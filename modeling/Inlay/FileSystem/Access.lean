/-
This file opens files by path: to read them, to see whether they are there, and to have them there.

There are two ways to a file. A path that is handed to the system is walked, and so must be short.
A target is traced to its real location first, name by name, and from then on the system is handed
the path of that location. Either way can find a file that the other does not: `isFile` goes the
first and `fileLocation?` the second.

What a failure means differs too. A reader reports the fault. `fileLocation?` and `isFile` report
nothing more than that the path does not lead to a file. Opening for writing creates the file when
nothing but its last name is missing, also at the end of a link, and never changes a file that is
there.
-/
import Inlay.FileSystem.Trace

namespace Inlay

/-- What its owner reads in a file. -/
def File.read (file : File) : Except Fault Text :=
  if FileSystem.mayRead file.mode then
    match Text.decode? file.bytes with
    | some text => .ok text
    | none => .error .notUnicode
  else .error .permissionDenied

namespace FileSystem

/-- The fault behind a walk that is stuck. A name with a slash after it is the name of a directory,
which no file can be created as. -/
def Stuck.fault (stuck : Stuck) : Fault :=
  match stuck.obstacle with
  | .missing => .missing
  | .notDirectory => .notDirectory
  | .closed => .permissionDenied
  | .slashAfterName => .isDirectory
  | .nameTooLong => .nameTooLong
  | .tooManyLinks => .tooManyLinks

/-- Where a path leads from a directory when it is handed to the system. -/
def locate (tree : FileSystem) (directory : Location) (path : Path) : Except Fault Location :=
  if path = [] then .error .missing
  else if '\x00' ∈ path then .error .nulInPath
  else if pathLimit ≤ Text.byteLength path then .error .nameTooLong
  else
    match tree.resolve directory path with
    | .ok location => .ok location
    | .error stuck => .error stuck.fault

/-! ### Reading -/

/-- The file at a location. A directory can be opened as well, if it may be listed, but there is no
file to read in it. -/
def fileAt (tree : FileSystem) (location : Location) : Except Fault File :=
  match tree.node? location with
  | some (.file file) => .ok file
  | some (.directory mode) => .error (if mayRead mode then .isDirectory else .permissionDenied)
  | _ => .error .missing

/-- The text of the file that a path leads to. -/
def readText (tree : FileSystem) (directory : Location) (path : Path) : Except Fault Text := do
  let location ← tree.locate directory path
  let file ← tree.fileAt location
  file.read

/-- Whether a path leads to a regular file. -/
def isFile (tree : FileSystem) (directory : Location) (path : Path) : Bool :=
  match tree.locate directory path with
  | .ok location => tree.kind? location = some .file
  | .error _ => false

/-- The real location of the regular file behind a path, if there is one and its own path leads the
system to it. -/
def fileLocation? (tree : FileSystem) (directory : Location) (path : Path) : Option Location :=
  match tree.trace directory path with
  | .error _ => none
  | .ok location =>
    match look tree.kind? location with
    | .ok .file => some location
    | _ => none

/-! ### Opening for writing -/

/-- The mode of a file that opening creates. -/
def newFileMode : Nat := 0o644

/-- The file that opening creates. -/
def newFile : File := { bytes := .empty, mode := newFileMode, family := none }

/-- Opens the file that a path leads to for writing, and creates it empty if its last name is all
that is missing. The path is handed over with that of the directory before it. Gives the tree with
the file and where the file is. -/
def openForWriting (tree : FileSystem) (directory : Location) (path : Path) :
    Except Fault (FileSystem × Location) :=
  if pathLimit ≤ Text.byteLength (Path.joined directory.path path) then .error .nameTooLong
  else
    match tree.resolveToCreate directory path with
    | .ok location =>
      match tree.node? location with
      | some (.file file) =>
        if mayWrite file.mode then .ok (tree, location) else .error .permissionDenied
      | _ => .error .isDirectory
    | .error stuck =>
      if stuck.obstacle = .missing ∧ stuck.rest = [] then
        if tree.acceptsNames stuck.place.parent then
          .ok (tree.put stuck.place (.file newFile), stuck.place)
        else .error .permissionDenied
      else .error stuck.fault

end FileSystem

end Inlay
