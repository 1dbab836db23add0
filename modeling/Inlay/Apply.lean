/-
This file applies a patch to a file.

The path is traced to the real file first, so a link stays a link and the file behind it is
replaced. What happens then depends on that file alone: `Patch.inspect` reads it and plans, and both
`Patch.plan` and `Patch.apply` are built on it, so the former tells what the latter would do. Only a
plan to insert writes, by replacing the file in one step with the old mode.

With the lock asked for, a sidecar beside the real file is opened before the file is read, and
created if it is missing. Nothing ever writes into it or removes it.
-/
import Inlay.Digest
import Inlay.FileSystem.Replace
import Inlay.Patch.Splice

namespace Inlay

/-- How an application that did not fail has ended, by lines counted from one. -/
inductive Outcome
  /-- The file was replaced; the block starts on this line. -/
  | applied (line : Nat)
  /-- The sentinel is on this line; nothing was written. -/
  | alreadyApplied (line : Nat)
  deriving DecidableEq, Repr

namespace Outcome

/-- Whether the file was replaced. -/
def isApplied : Outcome → Bool
  | .applied _ => true
  | .alreadyApplied _ => false

/-- The line that an outcome tells. -/
def line : Outcome → Nat
  | .applied line => line
  | .alreadyApplied line => line

/-- How an outcome is told. -/
def describe : Outcome → String
  | .applied line => "applied at line " ++ toString line
  | .alreadyApplied line => "already applied (sentinel at line " ++ toString line ++ ")"

end Outcome

/-- What an application tells about the file. -/
structure Report where
  /-- The real file, behind all links. -/
  target : Location
  outcome : Outcome
  /-- The digest of the bytes that were read. -/
  before : String
  /-- The digest of the bytes that the file holds now. -/
  after : String
  deriving DecidableEq, Repr

/-- Why planning or applying a patch failed. -/
inductive ApplyError
  /-- The path as given does not lead to a regular file. -/
  | targetMissing (path : Path)
  /-- The real file has neither the sentinel nor the marker. -/
  | markerMissing (target : Location) (marker : Text)
  /-- The file at this place could not be opened, read or written. -/
  | inaccessible (place : Location) (fault : Fault)
  deriving DecidableEq, Repr

/-- The message for a failure. -/
def ApplyError.message : ApplyError → String
  | .targetMissing path => "file not found: " ++ String.ofList path
  | .markerMissing target marker =>
    "marker " ++ String.ofList (Text.quoted marker) ++ " not found in " ++
      String.ofList target.path
  | .inaccessible place fault =>
    "I/O error on " ++ String.ofList place.path ++ ": " ++ fault.message

/-- How a patch is applied, and how the disk takes what is written. -/
structure ApplyOptions extends FileSystem.Disk where
  /-- Hold the sidecar lock from before the file is read. -/
  lock : Bool := false
  deriving DecidableEq, Repr

/-! ### The sidecar -/

/-- The name of the sidecar of a file with this name. -/
def sidecarName (name : Name) : Name := '.' :: name ++ ".hdrpatch.lock".toList

/-- The location of the sidecar of a file. -/
def Location.sidecar (target : Location) : Location := target.parent ++ [sidecarName target.name]

/-- Opens the sidecar of a file, through links, and creates it if it is missing. -/
def FileSystem.openSidecar (tree : FileSystem) (target : Location) : Except Fault FileSystem :=
  (tree.openForWriting target.parent (sidecarName target.name)).map Prod.fst

/-- The tree in which a file is read: with its sidecar opened, if the lock is asked for. -/
def FileSystem.openedFor (tree : FileSystem) (target : Location) (options : ApplyOptions) :
    Except Fault FileSystem :=
  if options.lock then tree.openSidecar target else .ok tree

namespace Patch

/-! ### Planning -/

/-- What is known of a file once a patch was held against it. -/
structure Inspection where
  file : File
  text : Text
  plan : Plan
  deriving DecidableEq

/-- Reads the file at a location and plans. -/
def inspect (patch : Patch) (tree : FileSystem) (target : Location) :
    Except ApplyError Inspection :=
  match tree.fileAt target with
  | .error fault => .error (.inaccessible target fault)
  | .ok file =>
    match file.read with
    | .error fault => .error (.inaccessible target fault)
    | .ok text =>
      match patch.plan? text with
      | none => .error (.markerMissing target patch.marker)
      | some plan => .ok { file, text, plan }

/-- What applying the patch to the file at a path would do. -/
def plan (patch : Patch) (tree : FileSystem) (directory : Location) (path : Path) :
    Except ApplyError Plan :=
  match tree.fileLocation? directory path with
  | none => .error (.targetMissing path)
  | some target => (patch.inspect tree target).map Inspection.plan

/-! ### Applying -/

/-- Applies the patch to the file at a location. -/
def applyAt (patch : Patch) (tree : FileSystem) (target : Location) (disk : FileSystem.Disk) :
    FileSystem × Except ApplyError Report :=
  match patch.inspect tree target with
  | .error error => (tree, .error error)
  | .ok { file, text, plan } =>
    let before := Digest.hex file.bytes
    match plan with
    | .alreadyApplied index =>
      let outcome := Outcome.alreadyApplied (index + 1)
      (tree, .ok { target, outcome, before, after := before })
    | .insert index =>
      let bytes := Text.encode (patch.splice text index)
      match tree.replaceFile target bytes file.mode disk with
      | (tree, .error fault) => (tree, .error (.inaccessible target fault))
      | (tree, .ok ()) =>
        let outcome := Outcome.applied (index + 1)
        (tree, .ok { target, outcome, before, after := Digest.hex bytes })

/-- Applies the patch to the file at a path: the tree afterwards, and the report or the failure. -/
def apply (patch : Patch) (tree : FileSystem) (directory : Location) (path : Path)
    (options : ApplyOptions) : FileSystem × Except ApplyError Report :=
  match tree.fileLocation? directory path with
  | none => (tree, .error (.targetMissing path))
  | some target =>
    match tree.openedFor target options with
    | .error fault => (tree, .error (.inaccessible target.sidecar fault))
    | .ok tree => patch.applyAt tree target options.toDisk

/-- Applies the patch without the lock, and tells of a success only how it has ended. -/
def applyUnlocked (patch : Patch) (tree : FileSystem) (directory : Location) (path : Path)
    (sizeLimit : Option Nat) (refusal : Option (FileSystem.Stage × Fault) := none) :
    FileSystem × Except ApplyError Outcome :=
  let applied := patch.apply tree directory path { sizeLimit, refusal }
  (applied.1, applied.2.map Report.outcome)

end Patch

end Inlay
