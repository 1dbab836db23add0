/-
This file traces a path to the real location behind it.

The system knows no such question, so a trace keeps the location that it has reached and asks about
one name at a time, each time by the whole path from the top. That is not a walk. What a walk asks
of the directory where it stands, a trace asks of all directories above, and the path from the top
must be short, however short the one that is traced is. On the other hand a trace asks nothing where
it just goes back: a directory that may not be entered stops a walk before `..`, but not a trace.

Only one thing keeps a trace from going back past a file. Where the path stops at a name, or goes
back from it, with a slash or a dot behind it, the name must be that of a directory.
-/
import Inlay.FileSystem.Fault
import Inlay.FileSystem.Walk

namespace Inlay.FileSystem

/-! ### Single names -/

/-- What there is at the end of the names from a directory on. -/
def lookAlong (kinds : Location → Option Kind) : Location → List Name → Except Fault Kind
  | here, [] =>
    match kinds here with
    | some kind => .ok kind
    | none => .error .missing
  | here, name :: rest =>
    match kinds here with
    | some .directory =>
      if nameLimit < Text.byteLength name then .error .nameTooLong
      else lookAlong kinds (here ++ [name]) rest
    | some .closedDirectory => .error .permissionDenied
    | some _ => .error .notDirectory
    | none => .error .missing

/-- What the system says there is at a location when it is handed the path of the location. -/
def look (kinds : Location → Option Kind) (place : Location) : Except Fault Kind :=
  if pathLimit ≤ Text.byteLength place.path then .error .nameTooLong
  else lookAlong kinds [] place

/-- Whether steps need a directory to start from though they do not look for a name in it: they go
back first, or they end with nothing but dots and slashes. -/
def backOrEnd : List Step → Bool
  | [] => false
  | .into _ :: _ => false
  | .up :: _ => true
  | .stay :: rest => rest.isEmpty || backOrEnd rest
  | .finalSlash :: rest => rest.isEmpty || backOrEnd rest

/-- Why a trace cannot go on with these steps from an entry that is no link, if it cannot, by what
is seen at the place of the entry. To see that it is a directory, the system is handed its path with
a slash behind it. -/
def onwardFault? (place : Location) (seen : Except Fault Kind) (rest : List Step) : Option Fault :=
  if backOrEnd rest ∧ pathLimit ≤ Text.byteLength place.path + 1 then some .nameTooLong
  else
    match seen with
    | .error fault => some fault
    | .ok .file => if backOrEnd rest then some .notDirectory else none
    | .ok _ => none

/-! ### Traces -/

/-- Traces the steps from a location, handing over to `follow` at a link: it gets the location of
the link, the path in it and the steps after it. -/
def traceWith (kinds : Location → Option Kind)
    (follow : Location → Path → List Step → Except Fault Location) :
    Location → List Step → Except Fault Location
  | here, [] => .ok here
  | here, .stay :: rest => traceWith kinds follow here rest
  | here, .finalSlash :: rest => traceWith kinds follow here rest
  | here, .up :: rest => traceWith kinds follow here.parent rest
  | here, .into name :: rest =>
    let next := here ++ [name]
    match look kinds next with
    | .ok (.link target) => follow next target rest
    | seen =>
      match onwardFault? next seen rest with
      | some fault => .error fault
      | none => traceWith kinds follow next rest

/-- Traces the steps from a location and follows at most so many links. -/
def traceFrom (kinds : Location → Option Kind) :
    Nat → Location → List Step → Except Fault Location
  | 0 => traceWith kinds fun _ _ _ => .error .tooManyLinks
  | links + 1 => traceWith kinds fun link target rest =>
      traceFrom kinds links (origin link.parent target) (target.steps ++ rest)

/-- The real location behind a path. The empty path has none. -/
def trace (tree : FileSystem) (directory : Location) (path : Path) : Except Fault Location :=
  if path = [] then .error .missing
  else if '\x00' ∈ path then .error .nulInPath
  else traceFrom tree.kind? linkLimit (origin directory path) path.steps

end Inlay.FileSystem
