/-
This file finds the set of definitions that a project uses.

A set is loaded from one file: its text must be UTF-8 and stand for definitions, and these must make
a set. A project keeps that file in its root under a fixed name; only where there is no such file
does the built-in set stand in, and never for a file that cannot be loaded.
-/
import Inlay.FileSystem.Access
import Inlay.PatchSet.Decode

namespace Inlay

/-- Why a set could not be loaded from the file at a path. -/
inductive LoadError
  | unreadable (path : Path) (fault : Fault)
  | unparsable (path : Path) (problem : TomlProblem)
  | rejected (error : SetError)
  deriving Repr

namespace LoadError

/-- The message for a set that could not be loaded. -/
def message : LoadError → String
  | .unreadable path fault => "failed to read " ++ String.ofList path ++ ": " ++ fault.message
  | .unparsable path problem =>
    "failed to parse " ++ String.ofList path ++ ": " ++ problem.message
  | .rejected error => error.message

/-- The messages of the failure and of the causes behind it, outermost first. -/
def chain (error : LoadError) : List String :=
  match error with
  | .unreadable _ fault => [error.message, fault.message]
  | .unparsable _ problem => [error.message, problem.message]
  | .rejected (.invalid _ defect) => [error.message, defect.message]
  | .rejected (.duplicateName _) => [error.message]

end LoadError

namespace PatchSet

/-- The set that a text stands for; the path tells where the text is from. -/
def ofToml (source : Text) (path : Path) : Except LoadError PatchSet :=
  match Definition.listOfToml source with
  | .error problem => .error (.unparsable path problem)
  | .ok definitions =>
    match ofDefinitions definitions with
    | .error error => .error (.rejected error)
    | .ok set => .ok set

/-- The set in the file at a path. -/
def load (tree : FileSystem) (directory : Location) (path : Path) : Except LoadError PatchSet :=
  match tree.readText directory path with
  | .error fault => .error (.unreadable path fault)
  | .ok source => ofToml source path

/-- The name of the file with the definitions of a project. -/
def fileName : Name := "hdrpatch.toml".toList

/-- The set of the project with this root. -/
def discover (tree : FileSystem) (directory : Location) (root : Path) :
    Except LoadError PatchSet :=
  let path := Path.joined root fileName
  if tree.isFile directory path then load tree directory path else .ok builtin

end PatchSet

end Inlay
