/-
This file carries out what a command line asks for.

A run first loads the set of definitions, then selects those that are named, and only then touches a
target; what fails before that point ends the run with nothing printed and nothing changed. From
there on no failure stops it: every selected definition is visited in order and leaves one entry,
and the first failure among them decides the exit code. `apply` visits each definition in the tree
that the ones before it have left, `check` visits all of them in the tree as it is. What the disk
refuses may differ from visit to visit, so a run of `apply` comes with a list of disks.

Entries are kept as values, so that what a run does can be told apart from how it is printed.
-/
import Inlay.Apply
import Inlay.Command.Arguments
import Inlay.PatchSet.Load

namespace Inlay.Command

/-! ### Before any target is touched -/

/-- Why a run ends before it touches a target. -/
inductive RunError
  /-- The definition file that was asked for could not be loaded. -/
  | fileNotLoaded (path : Path) (error : LoadError)
  /-- The definitions of the project could not be loaded. -/
  | projectNotLoaded (root : Path) (error : LoadError)
  | unknownPatch (name : Text)
  /-- A target was given for so many definitions. -/
  | targetForMany (count : Nat)
  deriving Repr

/-- The message for a run that ends before it touches a target. -/
def RunError.message : RunError → String
  | .fileNotLoaded path error =>
    ": ".intercalate (("Failed to load patch file " ++ String.ofList path) :: error.chain)
  | .projectNotLoaded root error =>
    ": ".intercalate (("Failed to load patches under " ++ String.ofList root) :: error.chain)
  | .unknownPatch name => "Unknown patch: " ++ String.ofList name
  | .targetForMany count =>
    "--target needs exactly one patch, " ++ toString count ++ " selected"

/-- Loads the set for a run: from the file that was asked for, or else that of the project. -/
def loadSet (tree : FileSystem) (directory : Location) (root : Path) (config : Option Path) :
    Except RunError PatchSet :=
  match config with
  | some path => (PatchSet.load tree directory path).mapError (RunError.fileNotLoaded path)
  | none => (PatchSet.discover tree directory root).mapError (RunError.projectNotLoaded root)

/-- The definition with a name. -/
def findNamed (set : PatchSet) (name : Text) : Except RunError Member :=
  match set.get? name with
  | some member => .ok member
  | none => .error (.unknownPatch name)

/-- The definitions with these names, in the order of the names; all of them without names. -/
def select (set : PatchSet) (names : List Text) : Except RunError (List Member) :=
  if names = [] then .ok set.members else names.mapM (findNamed set)

/-- The selected definitions, unless a target is given for other than one of them. -/
def selectFor (set : PatchSet) (names : List Text) (target : Option Path) :
    Except RunError (List Member) :=
  match select set names with
  | .error error => .error error
  | .ok selected =>
    if target.isSome ∧ selected.length ≠ 1 then .error (.targetForMany selected.length)
    else .ok selected

/-! ### Visiting the targets -/

/-- The path of the file to visit for a definition. -/
def targetPath (root : Path) (target : Option Path) (member : Member) : Path :=
  target.getD (member.definition.resolvedTarget root)

/-- What came of one definition. -/
structure Entry (Result : Type) where
  name : Text
  result : Except ApplyError Result

/-- What `list` tells of one definition. -/
structure Listing where
  definition : Definition
  target : Path
  isPresent : Bool
  deriving DecidableEq, Repr

/-- Applies definitions one after the other. Each has its own disk, as what is refused to one may be
granted to another; behind the last disk nothing is refused. -/
def applyEach (directory : Location) (root : Path) (lock : Bool) (target : Option Path) :
    List FileSystem.Disk → List Member → FileSystem → FileSystem × List (Entry Report)
  | _, [], tree => (tree, [])
  | disks, member :: rest, tree =>
    let path := targetPath root target member
    let applied := member.patch.apply tree directory path { toDisk := disks.headD {}, lock }
    let later := applyEach directory root lock target disks.tail rest applied.1
    (later.1, { name := member.definition.name, result := applied.2 } :: later.2)

/-- Plans definitions, all in the same tree. -/
def checkEach (tree : FileSystem) (directory : Location) (root : Path) (target : Option Path)
    (selected : List Member) : List (Entry Plan) :=
  selected.map fun member =>
    { name := member.definition.name
      result := member.patch.plan tree directory (targetPath root target member) }

/-! ### Visits that make their patches on the way

A definition by itself may have a defect, and then there is no patch to apply. These visits know
nothing of sets: they make each patch when its turn comes, and a defect stops them. -/

/-- Applies definitions one after the other, each with the patch that is made of it when its turn
comes, and stops at a definition of which none can be made. -/
def applyUntil (directory : Location) (root : Path) (lock : Bool) (target : Option Path) :
    List FileSystem.Disk → List Definition → FileSystem →
      FileSystem × List (Entry Report) × Option Defect
  | _, [], tree => (tree, [], none)
  | disks, definition :: rest, tree =>
    match definition.patch with
    | .error defect => (tree, [], some defect)
    | .ok patch =>
      let path := target.getD (definition.resolvedTarget root)
      let applied := patch.apply tree directory path { toDisk := disks.headD {}, lock }
      let later := applyUntil directory root lock target disks.tail rest applied.1
      (later.1, { name := definition.name, result := applied.2 } :: later.2.1, later.2.2)

/-- Plans definitions in the same way, all in one tree. -/
def checkUntil (tree : FileSystem) (directory : Location) (root : Path) (target : Option Path) :
    List Definition → List (Entry Plan) × Option Defect
  | [] => ([], none)
  | definition :: rest =>
    match definition.patch with
    | .error defect => ([], some defect)
    | .ok patch =>
      let path := target.getD (definition.resolvedTarget root)
      let later := checkUntil tree directory root target rest
      ({ name := definition.name, result := patch.plan tree directory path } :: later.1, later.2)

/-! ### Looking for targets -/

/-- Looks for the targets of definitions. -/
def listEach (tree : FileSystem) (directory : Location) (root : Path) (members : List Member) :
    List Listing :=
  members.map fun member =>
    let target := member.definition.resolvedTarget root
    { definition := member.definition, target, isPresent := tree.isFile directory target }

/-! ### Whole runs -/

/-- What a run tells. -/
inductive Summary
  | applied (entries : List (Entry Report))
  | checked (entries : List (Entry Plan))
  | listed (listings : List Listing)

/-- Carries out an action with a set of definitions. -/
def perform (tree : FileSystem) (directory : Location) (root : Path) (set : PatchSet)
    (action : Action) (disks : List FileSystem.Disk := []) :
    FileSystem × Except RunError Summary :=
  match action with
  | .apply names lock target =>
    match selectFor set names target with
    | .error error => (tree, .error error)
    | .ok selected =>
      let applied := applyEach directory root lock target disks selected tree
      (applied.1, .ok (.applied applied.2))
  | .check names target =>
    match selectFor set names target with
    | .error error => (tree, .error error)
    | .ok selected => (tree, .ok (.checked (checkEach tree directory root target selected)))
  | .list => (tree, .ok (.listed (listEach tree directory root set.members)))

/-- Carries out an order: the tree afterwards, and what the run tells or why it ended early. -/
def run (tree : FileSystem) (directory : Location) (invocation : Invocation)
    (disks : List FileSystem.Disk := []) : FileSystem × Except RunError Summary :=
  match loadSet tree directory invocation.root invocation.config with
  | .error error => (tree, .error error)
  | .ok set => perform tree directory invocation.root set invocation.action disks

/-! ### Exit codes -/

/-- The exit code for a failure. -/
def failureCode : ApplyError → Nat
  | .targetMissing _ => 2
  | .markerMissing _ _ => 3
  | .inaccessible _ _ => 4

/-- The failure that an entry tells of. -/
def Entry.failure? {Result : Type} (entry : Entry Result) : Option ApplyError :=
  match entry.result with
  | .ok _ => none
  | .error error => some error

/-- The exit code of a run that left these entries: that of the first failure, or zero. -/
def entriesCode {Result : Type} (entries : List (Entry Result)) : Nat :=
  ((entries.findSome? Entry.failure?).map failureCode).getD 0

/-- The exit code of a run that was not ended early. -/
def Summary.code : Summary → Nat
  | .applied entries => entriesCode entries
  | .checked entries => entriesCode entries
  | .listed _ => 0

end Inlay.Command
