/-
This file says how a run visits the selected definitions.

A run of `apply` is a trail of applications. Each starts in the tree that the one before has left,
has a disk of its own, ends in one of the seven ways, and leaves one entry under the name of its
definition. Whatever every application keeps, whatever its disk refuses, the run keeps. The exit
code is read off the entries: it is zero exactly when no entry tells of a failure, and otherwise the
first failure decides.
-/
import Inlay.Command.Run
import Inlay.Proofs.Ending

namespace Inlay.Command

open Patch (Ending)

/-! ### Trails -/

/-- The way of a run of `apply` over some members: the tree before, the tree after, the entries. -/
inductive Trail (directory : Location) (root : Path) (lock : Bool) (target : Option Path) :
    List Member → FileSystem → FileSystem → List (Entry Report) → Prop
  | nil {tree : FileSystem} : Trail directory root lock target [] tree tree []
  | cons {member : Member} {rest : List Member} {tree next after : FileSystem}
      {disk : FileSystem.Disk} {result : Except ApplyError Report} {entries : List (Entry Report)}
      (ending : Ending member.patch tree directory (targetPath root target member)
        { toDisk := disk, lock } next result)
      (later : Trail directory root lock target rest next after entries) :
      Trail directory root lock target (member :: rest) tree after
        ({ name := member.definition.name, result } :: entries)

section Trails

variable {directory : Location} {root : Path} {lock : Bool} {target : Option Path}
  {selected others : List Member} {tree middle after : FileSystem}
  {entries more : List (Entry Report)}

theorem applyEach_trail (directory : Location) (root : Path) (lock : Bool)
    (target : Option Path) (disks : List FileSystem.Disk) (selected : List Member)
    (tree : FileSystem) :
    Trail directory root lock target selected tree
      (applyEach directory root lock target disks selected tree).1
      (applyEach directory root lock target disks selected tree).2 := by
  induction selected generalizing disks tree with
  | nil => exact .nil
  | cons member rest inductionHypothesis =>
    exact .cons (member.patch.apply_ending tree directory (targetPath root target member) _)
      (inductionHypothesis _ _)

theorem Trail.append (first : Trail directory root lock target selected tree middle entries)
    (second : Trail directory root lock target others middle after more) :
    Trail directory root lock target (selected ++ others) tree after (entries ++ more) := by
  induction first with
  | nil => exact second
  | cons ending later inductionHypothesis => exact .cons ending (inductionHypothesis second)

/-- Every selected definition leaves one entry, in order. -/
theorem Trail.names (trail : Trail directory root lock target selected tree after entries) :
    entries.map Entry.name = selected.map fun member => member.definition.name := by
  induction trail with
  | nil => rfl
  | cons ending later inductionHypothesis =>
    rw [List.map_cons, List.map_cons, inductionHypothesis]

/-- What every application keeps, a run keeps. -/
theorem Trail.keeps {holds : FileSystem → Prop}
    (trail : Trail directory root lock target selected tree after entries)
    (step : ∀ {member tree disk next result}, Ending member.patch tree directory
      (targetPath root target member) { toDisk := disk, lock } next result →
        holds tree → holds next)
    (start : holds tree) : holds after := by
  induction trail with
  | nil => exact start
  | cons ending later inductionHypothesis => exact inductionHypothesis (step ending start)

end Trails

/-! ### Runs over a selection -/

section Selections

variable {set : PatchSet} {names : List Text} {target : Option Path} {selected : List Member}

theorem perform_apply_of_selected (tree : FileSystem) (directory : Location) (root : Path)
    (lock : Bool) (disks : List FileSystem.Disk)
    (passes : selectFor set names target = .ok selected) :
    perform tree directory root set (.apply names lock target) disks =
      ((applyEach directory root lock target disks selected tree).1,
        .ok (.applied (applyEach directory root lock target disks selected tree).2)) := by
  rw [perform, passes]

theorem perform_check_of_selected (tree : FileSystem) (directory : Location) (root : Path)
    (disks : List FileSystem.Disk) (passes : selectFor set names target = .ok selected) :
    perform tree directory root set (.check names target) disks =
      (tree, .ok (.checked (checkEach tree directory root target selected))) := by
  rw [perform, passes]

/-- Every planned definition leaves one entry, in order. -/
theorem checkEach_names (tree : FileSystem) (directory : Location) (root : Path)
    (target : Option Path) (selected : List Member) :
    (checkEach tree directory root target selected).map Entry.name =
      selected.map fun member => member.definition.name := by
  rw [checkEach, List.map_map]
  rfl

end Selections

/-! ### Exit codes -/

section Codes

variable {Result : Type}

theorem failure?_of_ok {entry : Entry Result} {value : Result} (told : entry.result = .ok value) :
    entry.failure? = none := by
  rw [Entry.failure?, told]

theorem failure?_of_error {entry : Entry Result} {error : ApplyError}
    (told : entry.result = .error error) : entry.failure? = some error := by
  rw [Entry.failure?, told]

theorem failure?_eq_none_iff {entry : Entry Result} :
    entry.failure? = none ↔ ∃ value, entry.result = .ok value := by
  constructor
  · intro unfailed
    cases told : entry.result with
    | ok value => exact ⟨value, rfl⟩
    | error error => rw [failure?_of_error told] at unfailed; cases unfailed
  · rintro ⟨value, told⟩
    exact failure?_of_ok told

theorem failureCode_ne_zero (error : ApplyError) : failureCode error ≠ 0 := by
  cases error <;> exact Nat.succ_ne_zero _

/-- A run exits with zero exactly when all its entries tell of success. -/
theorem entriesCode_eq_zero_iff {entries : List (Entry Result)} :
    entriesCode entries = 0 ↔ ∀ entry ∈ entries, ∃ value, entry.result = .ok value := by
  simp only [← failure?_eq_none_iff, ← List.findSome?_eq_none_iff]
  unfold entriesCode
  constructor
  · intro zero
    cases first : entries.findSome? Entry.failure? with
    | none => rfl
    | some error => rw [first] at zero; exact absurd zero (failureCode_ne_zero error)
  · intro none
    rw [none]
    rfl

end Codes

end Inlay.Command
