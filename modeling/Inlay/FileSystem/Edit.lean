/-
This file holds the changes that other programs make to a tree: writing in place, making
directories, links and further names, changing modes, removing and renaming. It also compares two
trees, as far as the owner of the entries may look at them.

Unlike a replacement, writing in place changes the file itself and so all names of its family. A new
name, link or removal concerns the entry at the last name of a path, which is therefore not
followed; `entryPlace` finds it. A new name or link never takes the place of an entry; only a moved
one does.
-/
import Inlay.FileSystem.Access

namespace Inlay.FileSystem

/-! ### Files in place -/

/-- Changes the file at a location, at each of its names. -/
def updateFile (tree : FileSystem) (location : Location) (change : File → File) : FileSystem :=
  match tree.node? location with
  | some (.file file) =>
    let touched (entry : Location × Node) : Bool :=
      match entry.2 with
      | .file other => entry.1 = location || (file.family.isSome && other.family = file.family)
      | _ => false
    { nodes := tree.nodes.map fun entry =>
        if touched entry then
          match entry.2 with
          | .file other => (entry.1, .file (change other))
          | _ => entry
        else entry }
  | _ => tree

/-- Writes a file in place, created if it is missing, and sets its mode. -/
def writeFile (tree : FileSystem) (directory : Location) (path : Path) (bytes : ByteArray)
    (mode : Nat) : Except Fault FileSystem := do
  let (opened, location) ← tree.openForWriting directory path
  return opened.updateFile location fun file => { file with bytes, mode }

/-- Sets the mode of the file or directory that a path leads to. -/
def setMode (tree : FileSystem) (directory : Location) (path : Path) (mode : Nat) :
    Except Fault FileSystem := do
  let location ← tree.locate directory path
  if location ≠ [] ∧ tree.kind? location ≠ some .file then
    return tree.put location (.directory mode)
  else return tree.updateFile location fun file => { file with mode }

/-! ### Entries -/

/-- The place of the entry that the last name of a path stands for, without following it. The
directory of the entry has to be entered. -/
def entryPlace (tree : FileSystem) (directory : Location) (path : Path) :
    Except Fault Location :=
  let steps := path.steps.filter (· ≠ .finalSlash)
  let start := origin directory path
  match steps.getLast?, walk .find tree.kind? linkLimit start (steps.dropLast ++ [.stay]) with
  | none, _ => .error .missing
  | some (.into name), .ok parent => .ok (parent ++ [name])
  | some _, .error stuck => .error stuck.fault
  | some _, .ok _ => .error .isDirectory

/-- The place at the last name of a path, for a new entry that is no directory. The directory has to
accept its name. -/
def freePlace (tree : FileSystem) (directory : Location) (path : Path) :
    Except Fault Location := do
  let place ← tree.entryPlace directory path
  if (tree.node? place).isSome then .error .alreadyThere
  else if path.getLast? = some '/' then .error .missing
  else if tree.acceptsNames place.parent then return place
  else .error .permissionDenied

/-- Makes the directory at a path and all missing ones above it. What is there already has to be a
directory, or a link to one. -/
def makeDirectories (tree : FileSystem) (directory : Location) (path : Path) :
    Except Fault FileSystem := do
  let make (state : FileSystem × Location) (step : Step) : Except Fault (FileSystem × Location) :=
    let (tree, here) := state
    match walk .find tree.kind? linkLimit here [step] with
    | .ok next => .ok (tree, next)
    | .error stuck =>
      if stuck.obstacle ≠ .missing then .error stuck.fault
      else if ¬ (step = .into stuck.place.name ∧ stuck.place.parent = here) then
        .error .alreadyThere
      else if tree.acceptsNames here then
        .ok (tree.put stuck.place (.directory newDirectoryMode), stuck.place)
      else .error .permissionDenied
  let (made, place) ← path.steps.foldlM make (tree, origin directory path)
  if made.kind? place = some .file then .error .alreadyThere
  return made

/-- Makes a symbolic link at a path. -/
def addLink (tree : FileSystem) (directory : Location) (path target : Path) :
    Except Fault FileSystem := do
  let place ← tree.freePlace directory path
  return tree.put place (.link target none)

/-- A family number that no entry has. -/
def freshFamily (tree : FileSystem) : Nat :=
  tree.nodes.foldr (fun entry next => max next (entry.2.family?.elim 0 (· + 1))) 0

/-- Gives an existing file or link a further name. -/
def addName (tree : FileSystem) (directory : Location) (path existing : Path) :
    Except Fault FileSystem := do
  let source ← tree.entryPlace directory existing
  match tree.node? source with
  | none => .error .missing
  | some node =>
    let place ← tree.freePlace directory path
    match node with
    | .directory _ => .error .notPermitted
    | _ =>
      let shared := node.withFamily (some (node.family?.getD tree.freshFamily))
      return (tree.put source shared).put place shared

/-- Whether all entries from a place on can be found: each directory may be listed, and entered if
it has entries. -/
def isExplorable (tree : FileSystem) (top : Location) : Bool :=
  tree.nodes.all fun entry =>
    !top.isPrefixOf entry.1 ||
      ((entry.1 = top || tree.kind? entry.1.parent = some .directory) &&
        match entry.2 with
        | .directory mode => mayRead mode
        | _ => true)

/-- Whether every directory from a place on that has entries lets them be removed. -/
def isClearable (tree : FileSystem) (top : Location) : Bool :=
  tree.nodes.all fun entry =>
    !top.isPrefixOf entry.1 || entry.1 = top || tree.acceptsNames entry.1.parent

/-- Removes the entry at a path, with everything below it. -/
def remove (tree : FileSystem) (directory : Location) (path : Path) :
    Except Fault FileSystem := do
  let place ← tree.entryPlace directory path
  if (tree.node? place).isNone then .error .missing
  else if tree.isExplorable place && tree.isClearable place && tree.acceptsNames place.parent then
    return { nodes := tree.nodes.filter fun entry => !place.isPrefixOf entry.1 }
  else .error .permissionDenied

/-- Why one entry cannot be moved over another that is there, if it cannot: files and links take the
place of files and links, a directory that of an empty directory. -/
def moveFault? (tree : FileSystem) (moved : Node) (target : Location) : Option Fault :=
  match moved, tree.node? target with
  | _, none => none
  | .directory _, some (.directory _) =>
    if tree.nodes.any fun entry => target.isPrefixOf entry.1 && target ≠ entry.1 then some .notEmpty
    else none
  | .directory _, some _ => some .notDirectory
  | _, some (.directory _) => some .isDirectory
  | _, some _ => none

/-- Whether an entry may be moved to another place. A directory that gets another directory above it
is changed itself. -/
def mayMove (tree : FileSystem) (moved : Node) (source target : Location) : Bool :=
  tree.acceptsNames source.parent && tree.acceptsNames target.parent &&
    match moved with
    | .directory mode => source.parent = target.parent || mayWrite mode
    | _ => true

/-- Moves an entry, with everything below it, over whatever has the new name. Two names of one file
or link stay as they are. -/
def rename (tree : FileSystem) (directory : Location) (path newPath : Path) :
    Except Fault FileSystem := do
  let source ← tree.entryPlace directory path
  let target ← tree.entryPlace directory newPath
  match tree.node? source with
  | none => .error .missing
  | some moved =>
    let areOne := moved.family?.isSome && moved.family? = (tree.node? target).bind Node.family?
    if source = target || areOne then return tree
    else if source.isPrefixOf target then .error .belowItself
    else if target.isPrefixOf source then .error .notEmpty
    else if !tree.mayMove moved source target then .error .permissionDenied
    else
      match tree.moveFault? moved target with
      | some fault => .error fault
      | none =>
        let kept := tree.nodes.filter fun entry => target ≠ entry.1
        return { nodes := kept.map fun entry =>
          if source.isPrefixOf entry.1 then (target ++ entry.1.drop source.length, entry.2)
          else entry }

/-! ### What differs between two trees -/

/-- An entry without what cannot be seen at this name alone. -/
def Node.visible (node : Node) : Node := node.withFamily none

/-- The entries below a directory that look different after a change, each by its location below
that directory; none stands for an entry that is gone. -/
def differences (before after : FileSystem) (top : Location) : List (Location × Option Node) :=
  let below (tree : FileSystem) := tree.nodes.filter fun entry =>
    top.isPrefixOf entry.1 && top ≠ entry.1
  let changed := (below after).filter fun entry =>
    (before.node? entry.1).map Node.visible ≠ some entry.2.visible
  let gone := (below before).filter fun entry => (after.node? entry.1).isNone
  changed.map (fun entry => (entry.1.drop top.length, some entry.2)) ++
    gone.map fun entry => (entry.1.drop top.length, none)

/-- Whether all entries from a place on can be found and all files among them read. -/
def isReadable (tree : FileSystem) (top : Location) : Bool :=
  tree.isExplorable top && tree.nodes.all fun entry =>
    !top.isPrefixOf entry.1 ||
      match entry.2 with
      | .file file => mayRead file.mode
      | _ => true

/-- The differences below a directory, for someone who may only look at what its owner may. -/
def compare (before after : FileSystem) (top : Location) :
    Except Fault (List (Location × Option Node)) :=
  if before.isReadable top && after.isReadable top then .ok (differences before after top)
  else .error .permissionDenied

end Inlay.FileSystem
