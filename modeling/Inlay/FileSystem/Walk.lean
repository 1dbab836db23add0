/-
This file follows a path through a tree, as the system does when it is handed the path.

A path is read once into steps, and the walk takes them one by one: every step must start from a
directory that may be entered, a name must be there, and a link on the way is replaced by its own
steps. At most forty links are followed. The walk looks at nothing but the kind of the entries it
passes, so a change that keeps all kinds keeps where every path leads; that is why `walk` takes the
kinds and not the tree.

The outcome is the location of the entry, which no link leads to, or the place where the walk is
stuck together with the steps that are left. The latter tells a path whose last name alone is
missing from other failures, as creating a file has to. A walk that is to create a file also refuses
a slash after the last name before it looks that name up.
-/
import Inlay.FileSystem.Basic

namespace Inlay

/-- The text that leads to an entry, with slashes between its names. -/
abbrev Path := Text

/-- One step along a path. -/
inductive Step
  | stay
  | up
  | into (name : Name)
  /-- A slash at the very end, which asks for a directory. -/
  | finalSlash
  deriving DecidableEq, Repr

namespace Path

/-- Whether a path starts from the top directory. -/
def isAbsolute (path : Path) : Bool := path.head? == some '/'

/-- The step for the text between two slashes; nothing between them is no step. -/
def step? (piece : Text) : Option Step :=
  if piece = [] then none
  else if piece = ['.'] then some .stay
  else if piece = ['.', '.'] then some .up
  else some (.into piece)

/-- The steps of a path. -/
def steps (path : Path) : List Step :=
  (path.splitOn '/').filterMap step? ++
    if path.getLast? = some '/' then [.finalSlash] else []

/-- The path of something in a directory: an absolute one is itself, any other follows the
directory, with a slash between them if the directory does not end in one. -/
def joined (directory path : Path) : Path :=
  if isAbsolute path then path
  else if directory = [] ∨ directory.getLast? = some '/' then directory ++ path
  else directory ++ '/' :: path

end Path

namespace FileSystem

/-- What a walk is for. -/
inductive Aim
  /-- To find an entry. -/
  | find
  /-- To find a file, or the place to create it. -/
  | create
  deriving DecidableEq, Repr

/-- Why a walk cannot go on. -/
inductive Obstacle
  | missing
  | notDirectory
  /-- A directory that may not be entered. -/
  | closed
  /-- A slash after the name of a file to create. -/
  | slashAfterName
  | nameTooLong
  | tooManyLinks
  deriving DecidableEq, Repr

/-- Where a walk cannot go on: the entry that it cannot pass, and the steps left to take. -/
structure Stuck where
  obstacle : Obstacle
  place : Location
  rest : List Step
  deriving DecidableEq, Repr

/-- The longest name of an entry, in bytes. -/
def nameLimit : Nat := 255

/-- The length in bytes that a path must stay below to be handed to the system. -/
def pathLimit : Nat := 4096

/-- How many links one walk follows. -/
def linkLimit : Nat := 40

/-- Takes the steps from a location, handing over to `follow` at a link: it gets the location of
the link, the path in it and the steps after it. A slash at the very end needs a directory, but does
not enter it. -/
def walkWith (aim : Aim) (kinds : Location → Option Kind)
    (follow : Location → Path → List Step → Except Stuck Location) :
    Location → List Step → Except Stuck Location
  | here, [] => .ok here
  | here, step :: rest =>
    match kinds here with
    | some .directory =>
      match step with
      | .stay => walkWith aim kinds follow here rest
      | .finalSlash => walkWith aim kinds follow here rest
      | .up => walkWith aim kinds follow here.parent rest
      | .into name =>
        let next := here ++ [name]
        if aim = .create ∧ rest = [.finalSlash] then .error ⟨.slashAfterName, next, rest⟩
        else if nameLimit < Text.byteLength name then .error ⟨.nameTooLong, next, rest⟩
        else
          match kinds next with
          | none => .error ⟨.missing, next, rest⟩
          | some (.link target) => follow next target rest
          | some _ => walkWith aim kinds follow next rest
    | some .closedDirectory =>
      if step = .finalSlash then walkWith aim kinds follow here rest
      else .error ⟨.closed, here, step :: rest⟩
    | _ => .error ⟨.notDirectory, here, step :: rest⟩

/-- Where a path in a directory starts. -/
def origin (directory : Location) (path : Path) : Location :=
  if path.isAbsolute then [] else directory

/-- Takes the steps from a location and follows at most so many links. -/
def walk (aim : Aim) (kinds : Location → Option Kind) :
    Nat → Location → List Step → Except Stuck Location
  | 0 => walkWith aim kinds fun link _ rest => .error ⟨.tooManyLinks, link, rest⟩
  | links + 1 => walkWith aim kinds fun link target rest =>
      walk aim kinds links (origin link.parent target) (target.steps ++ rest)

/-- Where a path leads from a directory. -/
def resolve (tree : FileSystem) (directory : Location) (path : Path) : Except Stuck Location :=
  walk .find tree.kind? linkLimit (origin directory path) path.steps

/-- Where a path leads that a file may be created at. -/
def resolveToCreate (tree : FileSystem) (directory : Location) (path : Path) :
    Except Stuck Location :=
  walk .create tree.kind? linkLimit (origin directory path) path.steps

end FileSystem

end Inlay
