/-
This file proves that a run is either refused before it touches anything, or carried through.

What can refuse it are the definition file, the names and the target, in this order. All three are
settled before the first definition is visited, so a refused run changes no entry and prints
nothing. From then on nothing can stop it. The one step that could is making the patch of a
definition, as it is made only when its turn comes, after others may have been applied. But every
definition in a set has its patch, so that step never fails.

The exit code tells the two apart: it is one exactly for a refused run. A run that is carried
through has the code of its first failure, or zero.
-/
import Inlay.Command.Finish
import Inlay.Proofs.Effect
import Inlay.Proofs.Loading
import Inlay.Proofs.Selection
import Inlay.Proofs.Visits

namespace Inlay.Command

/-! ### Visits that could stop -/

section Visits

variable (directory : Location) (root : Path) (target : Option Path)

/-- The definitions of members never stop a run of `apply`. -/
theorem applyUntil_members (lock : Bool) (disks : List FileSystem.Disk) (selected : List Member)
    (tree : FileSystem) :
    applyUntil directory root lock target disks (selected.map Member.definition) tree =
      ((applyEach directory root lock target disks selected tree).1,
        (applyEach directory root lock target disks selected tree).2, none) := by
  induction selected generalizing disks tree with
  | nil => rfl
  | cons member rest inductionHypothesis =>
    simp only [List.map_cons, applyUntil, member.sound, inductionHypothesis, applyEach, targetPath]

theorem checkUntil_members (tree : FileSystem) (selected : List Member) :
    checkUntil tree directory root target (selected.map Member.definition) =
      (checkEach tree directory root target selected, none) := by
  induction selected with
  | nil => rfl
  | cons member rest inductionHypothesis =>
    simp only [List.map_cons, checkUntil, member.sound, inductionHypothesis, checkEach, targetPath]

end Visits

/-! ### The first failure -/

section Codes

variable {Result : Type} {entries : List (Entry Result)} {error : ApplyError} {code : Nat}

/-- The error is what the first entry that tells of one tells. -/
def FirstFailure (entries : List (Entry Result)) (error : ApplyError) : Prop :=
  ∃ before entry later, entries = before ++ entry :: later ∧
    (∀ other ∈ before, ∃ value, other.result = .ok value) ∧ entry.result = .error error

/-- The exit code of a run that has left the entries. -/
inductive ExitsWith (entries : List (Entry Result)) : Nat → Prop
  | success (unfailed : ∀ entry ∈ entries, ∃ value, entry.result = .ok value) :
      ExitsWith entries 0
  | targetMissing {path : Path} (first : FirstFailure entries (.targetMissing path)) :
      ExitsWith entries 2
  | markerMissing {place : Location} {marker : Text}
      (first : FirstFailure entries (.markerMissing place marker)) : ExitsWith entries 3
  | inaccessible {place : Location} {fault : Fault}
      (first : FirstFailure entries (.inaccessible place fault)) : ExitsWith entries 4

theorem ExitsWith.ne_one (exits : ExitsWith entries code) : code ≠ 1 := by
  cases exits <;> decide

theorem entriesCode_of_firstFailure (first : FirstFailure entries error) :
    entriesCode entries = failureCode error := by
  obtain ⟨before, entry, later, rfl, unfailed, failed⟩ := first
  have found : (before ++ entry :: later).findSome? Entry.failure? = some error := by
    rw [List.findSome?_append, List.findSome?_eq_none_iff.2 fun other member =>
      failure?_eq_none_iff.2 (unfailed other member), Option.none_or, List.findSome?_cons,
      failure?_of_error failed]
  rw [entriesCode, found]
  rfl

theorem unfailed_or_firstFailure (entries : List (Entry Result)) :
    (∀ entry ∈ entries, ∃ value, entry.result = .ok value) ∨
      ∃ error, FirstFailure entries error := by
  induction entries with
  | nil => exact Or.inl fun entry member => absurd member List.not_mem_nil
  | cons entry rest inductionHypothesis =>
    cases told : entry.result with
    | error error =>
      exact Or.inr ⟨error, [], entry, rest, rfl,
        fun other member => absurd member List.not_mem_nil, told⟩
    | ok value =>
      rcases inductionHypothesis with unfailed |
        ⟨error, before, failing, later, rfl, earlier, failed⟩
      · exact Or.inl (List.forall_mem_cons.2 ⟨⟨value, told⟩, unfailed⟩)
      · exact Or.inr ⟨error, entry :: before, failing, later, rfl,
          List.forall_mem_cons.2 ⟨⟨value, told⟩, earlier⟩, failed⟩

theorem exitsWith_entriesCode (entries : List (Entry Result)) :
    ExitsWith entries (entriesCode entries) := by
  rcases unfailed_or_firstFailure entries with unfailed | ⟨error, first⟩
  · rw [entriesCode_eq_zero_iff.2 unfailed]
    exact .success unfailed
  · rw [entriesCode_of_firstFailure first]
    cases error with
    | targetMissing path => exact .targetMissing first
    | markerMissing place marker => exact .markerMissing first
    | inaccessible place fault => exact .inaccessible first

end Codes

/-! ### Refused runs -/

/-- The names and the target that an action comes with, if it concerns selected definitions. -/
def Action.choice? : Action → Option (List Text × Option Path)
  | .apply names _ target => some (names, target)
  | .check names target => some (names, target)
  | .list => none

variable {tree : FileSystem} {directory : Location} {invocation : Invocation} {error : RunError}
  {disks : List FileSystem.Disk}

/-- Why a run ends before it visits a definition. -/
inductive Refused (tree : FileSystem) (directory : Location) (invocation : Invocation) :
    RunError → Prop
  | load {error : RunError}
      (fails : LoadsNone tree directory invocation.root invocation.config error) :
      Refused tree directory invocation error
  | selection {set : PatchSet} {names : List Text} {target : Option Path} {error : RunError}
      (loads : Loads tree directory invocation.root invocation.config set)
      (choice : invocation.action.choice? = some (names, target))
      (fails : SelectionFails set names target error) : Refused tree directory invocation error

theorem perform_of_selectionFails {set : PatchSet} {action : Action} {names : List Text}
    {root : Path} {target : Option Path} (choice : action.choice? = some (names, target))
    (fails : SelectionFails set names target error) :
    perform tree directory root set action disks = (tree, .error error) := by
  have refused := (selectFor_determines set names target).fails error fails
  cases action with
  | apply _ lock _ => cases choice; rw [perform, refused]
  | check _ _ => cases choice; rw [perform, refused]
  | list => cases choice

/-- A refused run changes nothing. -/
theorem run_of_refused (refused : Refused tree directory invocation error) :
    run tree directory invocation disks = (tree, .error error) := by
  cases refused with
  | load fails => rw [run, (loadSet_determines ..).fails error fails]
  | selection loads choice fails =>
    rw [run, (loadSet_determines ..).returns _ loads]
    exact perform_of_selectionFails choice fails

/-! ### Runs that are carried through -/

/-- The tree and the end of a run that was not refused: every selected definition was visited in
order, with the disk that was its own, and has left one entry, which is printed as one line, and
nothing has stopped the run. -/
inductive CarriedThrough (tree : FileSystem) (directory : Location) (invocation : Invocation)
    (disks : List FileSystem.Disk) : FileSystem → Finish → Prop
  | apply {set : PatchSet} {names : List Text} {lock : Bool} {target : Option Path}
      {selected : List Member} {after : FileSystem} {entries : List (Entry Report)} {code : Nat}
      (action : invocation.action = .apply names lock target)
      (loads : Loads tree directory invocation.root invocation.config set)
      (selects : Selects set names selected) (single : target.isSome = true → selected.length = 1)
      (visits : applyUntil directory invocation.root lock target disks
        (selected.map Member.definition) tree = (after, entries, none))
      (inOrder : entries.map Entry.name = selected.map fun member => member.definition.name)
      (exits : ExitsWith entries code) :
      CarriedThrough tree directory invocation disks after
        { code, output := entries.map applyLine, complaint := none }
  | check {set : PatchSet} {names : List Text} {target : Option Path} {selected : List Member}
      {entries : List (Entry Plan)} {code : Nat}
      (action : invocation.action = .check names target)
      (loads : Loads tree directory invocation.root invocation.config set)
      (selects : Selects set names selected) (single : target.isSome = true → selected.length = 1)
      (visits : checkUntil tree directory invocation.root target
        (selected.map Member.definition) = (entries, none))
      (inOrder : entries.map Entry.name = selected.map fun member => member.definition.name)
      (exits : ExitsWith entries code) :
      CarriedThrough tree directory invocation disks tree
        { code, output := entries.map checkLine, complaint := none }
  | list {set : PatchSet} (action : invocation.action = .list)
      (loads : Loads tree directory invocation.root invocation.config set) :
      CarriedThrough tree directory invocation disks tree {
        code := 0
        output := (Summary.listed (listEach tree directory invocation.root set.members)).lines
        complaint := none }

theorem CarriedThrough.code_ne_one {after : FileSystem} {finish : Finish}
    (through : CarriedThrough tree directory invocation disks after finish) : finish.code ≠ 1 := by
  cases through with
  | apply _ _ _ _ _ _ exits => exact exits.ne_one
  | check _ _ _ _ _ _ exits => exact exits.ne_one
  | list action loads => exact Nat.zero_ne_one

theorem refused_or_carriedThrough (tree : FileSystem) (directory : Location)
    (invocation : Invocation) (disks : List FileSystem.Disk) :
    (∃ error, Refused tree directory invocation error) ∨
      CarriedThrough tree directory invocation disks (run tree directory invocation disks).1
        (finishOf (run tree directory invocation disks).2) := by
  obtain ⟨root, config, action⟩ := invocation
  rcases (loadSet_determines tree directory root config).covers with ⟨set, loads⟩ |
    ⟨error, fails⟩
  · have loaded := (loadSet_determines ..).returns set loads
    cases action with
    | apply names lock target =>
      rcases (selectFor_determines set names target).covers with ⟨selected, passes⟩ |
        ⟨error, fails⟩
      · have selection := (selectFor_determines set names target).returns selected passes
        have trail := applyEach_trail directory root lock target disks selected tree
        rw [run, loaded]
        simp only [perform_apply_of_selected _ _ _ _ _ selection]
        exact Or.inr (.apply rfl loads passes.1 passes.2
          (applyUntil_members directory root target lock disks selected tree) trail.names
          (exitsWith_entriesCode _))
      · exact Or.inl ⟨error, .selection loads rfl fails⟩
    | check names target =>
      rcases (selectFor_determines set names target).covers with ⟨selected, passes⟩ |
        ⟨error, fails⟩
      · have selection := (selectFor_determines set names target).returns selected passes
        rw [run, loaded]
        simp only [perform_check_of_selected _ _ _ _ selection]
        exact Or.inr (.check rfl loads passes.1 passes.2
          (checkUntil_members directory root target tree selected) (checkEach_names ..)
          (exitsWith_entriesCode _))
      · exact Or.inl ⟨error, .selection loads rfl fails⟩
    | list =>
      rw [run, loaded]
      exact Or.inr (.list rfl loads)
  · exact Or.inl ⟨error, .load fails⟩

/-! ### Processes -/

open FileSystem (linked)

end Inlay.Command
