/-
This file says what the exit code of a process tells.

A visit of a definition can fail in three ways that have a code each: its path leads to no regular
file, the file has no place for the block, or something cannot be opened, read or written. A run of
`apply` and one of `check` have the same rule, that the first visit to fail gives its code. They
differ in the ways in which a visit may fail, as `check` writes nothing, and in the tree that it
leaves for the next one. So the rule is proved once, for visits that fail in some ways and leave any
tree.

With what the code of a refused run tells, this settles all codes but for one clash. A command line
that breaks a rule ends the process with two, the code of a missing target, and no target was
looked for.
-/
import Inlay.Proofs.Completion
import Inlay.Proofs.Prediction
import Inlay.Proofs.WholeText

namespace Inlay

namespace Patch

variable {patch : Patch} {tree : FileSystem} {directory : Location} {path : Path}
  {options : ApplyOptions} {code : Nat}

/-! ### One visit -/

/-- A visit of the file at a path fails before anything is written, for a reason that has this exit
code. -/
inductive FailsUnwritten (patch : Patch) (tree : FileSystem) (directory : Location) (path : Path)
    (options : ApplyOptions) : Nat → Prop
  | targetMissing (lost : ∀ place, tree.trace directory path = .ok place →
      ¬ FileSystem.Looks tree.kind? place .file) :
      FailsUnwritten patch tree directory path options 2
  | markerMissing {place : Location} {opened : FileSystem} {file : File} {text : Text}
      (reaches : Reaches tree directory path options place opened file)
      (reads : file.read = .ok text) (unmarked : ¬ patch.sentinel <:+: text)
      (lacking : ¬ patch.marker <:+: text) : FailsUnwritten patch tree directory path options 3
  | sidecarRefused {place : Location} {fault : Fault}
      (leads : tree.fileLocation? directory path = some place)
      (refused : tree.openedFor place options = .error fault) :
      FailsUnwritten patch tree directory path options 4
  | unreadable {place : Location} {opened : FileSystem} {file : File} {fault : Fault}
      (reaches : Reaches tree directory path options place opened file)
      (refused : file.read = .error fault) : FailsUnwritten patch tree directory path options 4

/-- A visit of the file at a path fails, for a reason that has this exit code: either before
anything is written, or because the new file is refused. -/
inductive Fails (patch : Patch) (tree : FileSystem) (directory : Location) (path : Path)
    (options : ApplyOptions) : Nat → Prop
  | unwritten {code : Nat} (fails : FailsUnwritten patch tree directory path options code) :
      Fails patch tree directory path options code
  | writing {place : Location} {opened : FileSystem} {file : File} {text : Text} {index : Nat}
      {fault : Fault} (reaches : Reaches tree directory path options place opened file)
      (reads : file.read = .ok text) (planned : patch.plan? text = some (.insert index))
      (refused : opened.replaceFault? place.parent (Text.encode (patch.splice text index)).size
        options.toDisk = some fault) : Fails patch tree directory path options 4

theorem fileLocation?_eq_none_iff : tree.fileLocation? directory path = none ↔
    ∀ place, tree.trace directory path = .ok place →
      ¬ FileSystem.Looks tree.kind? place .file := by
  simp only [Option.eq_none_iff_forall_ne_some, ne_eq, FileSystem.fileLocation?_eq_some_iff,
    not_and]

/-- A failed application tells the reason that has its code. -/
theorem fails_of_ending {after : FileSystem} {error : ApplyError}
    (ending : Ending patch tree directory path options after (.error error)) :
    Fails patch tree directory path options (Command.failureCode error) := by
  cases ending with
  | targetMissing lost => exact .unwritten (.targetMissing (fileLocation?_eq_none_iff.1 lost))
  | sidecarRefused leads refused => exact .unwritten (.sidecarRefused leads refused)
  | unreadable reaches refused => exact .unwritten (.unreadable reaches refused)
  | markerMissing reaches reads placeless =>
    obtain ⟨unmarked, lacking⟩ := plan?_eq_none_iff_isInfix.1 placeless
    exact .unwritten (.markerMissing reaches reads unmarked lacking)
  | unwritten reaches reads planned fails => exact .writing reaches reads planned fails

/-- Where there is a reason, an application fails and tells its code. -/
theorem Fails.exists_error (fails : Fails patch tree directory path options code) :
    ∃ error, (patch.apply tree directory path options).2 = .error error ∧
      Command.failureCode error = code := by
  cases fails with
  | unwritten fails =>
    cases fails with
    | targetMissing lost =>
      rw [apply_of_lost (fileLocation?_eq_none_iff.2 lost)]
      exact ⟨_, rfl, rfl⟩
    | sidecarRefused leads refused =>
      rw [apply_of_refused leads refused]
      exact ⟨_, rfl, rfl⟩
    | unreadable reaches refused =>
      rw [apply_of_opened reaches.leads reaches.opens,
        applyAt_of_error (inspect_of_unreadable (reaches.keeps reaches.present) refused)]
      exact ⟨_, rfl, rfl⟩
    | markerMissing reaches reads unmarked lacking =>
      have placeless := plan?_eq_none_iff_isInfix.2 ⟨unmarked, lacking⟩
      rw [apply_of_opened reaches.leads reaches.opens,
        applyAt_of_error (inspect_of_placeless (reaches.keeps reaches.present) reads placeless)]
      exact ⟨_, rfl, rfl⟩
  | writing reaches reads planned refused =>
    have inspected := inspect_of_planned (reaches.keeps reaches.present) reads planned
    rw [apply_of_opened reaches.leads reaches.opens, applyAt_of_unwritten inspected refused]
    exact ⟨_, rfl, rfl⟩

theorem fails_iff_apply : Fails patch tree directory path options code ↔
    ∃ error, (patch.apply tree directory path options).2 = .error error ∧
      Command.failureCode error = code := by
  refine ⟨Fails.exists_error, ?_⟩
  rintro ⟨error, failed, rfl⟩
  have ending := patch.apply_ending tree directory path options
  rw [failed] at ending
  exact fails_of_ending ending

theorem FailsUnwritten.exists_error_plan
    (fails : FailsUnwritten patch tree directory path {} code) :
    ∃ error, patch.plan tree directory path = .error error ∧
      Command.failureCode error = code := by
  cases fails with
  | targetMissing lost =>
    rw [plan, fileLocation?_eq_none_iff.2 lost]
    exact ⟨_, rfl, rfl⟩
  | sidecarRefused leads refused =>
    rw [FileSystem.openedFor_of_unlocked rfl] at refused
    cases refused
  | unreadable reaches refused =>
    rw [plan_of_leads reaches.leads, inspect_of_unreadable reaches.present refused]
    exact ⟨_, rfl, rfl⟩
  | markerMissing reaches reads unmarked lacking =>
    have placeless := plan?_eq_none_iff_isInfix.2 ⟨unmarked, lacking⟩
    rw [plan_of_leads reaches.leads, inspect_of_placeless reaches.present reads placeless]
    exact ⟨_, rfl, rfl⟩

theorem Unplanned.failsUnwritten {error : ApplyError}
    (fails : Unplanned patch tree directory path error) :
    FailsUnwritten patch tree directory path {} (Command.failureCode error) := by
  have reaches {target : Location} {file : File}
      (leads : tree.fileLocation? directory path = some target)
      (present : tree.node? target = some (.file file)) :
      Reaches tree directory path {} target tree file :=
    ⟨leads, FileSystem.openedFor_of_unlocked rfl, present⟩
  cases fails with
  | targetMissing lost => exact .targetMissing (fileLocation?_eq_none_iff.1 lost)
  | unreadable leads present refused => exact .unreadable (reaches leads present) refused
  | markerMissing leads present reads placeless =>
    obtain ⟨unmarked, lacking⟩ := plan?_eq_none_iff_isInfix.1 placeless
    exact .markerMissing (reaches leads present) reads unmarked lacking

/-- Planning fails for the reasons for which an application without the lock fails unwritten. -/
theorem failsUnwritten_iff_plan : FailsUnwritten patch tree directory path {} code ↔
    ∃ error, patch.plan tree directory path = .error error ∧
      Command.failureCode error = code := by
  refine ⟨FailsUnwritten.exists_error_plan, ?_⟩
  rintro ⟨error, failed, rfl⟩
  have announced := (patch.apply_ending tree directory path {}).announced
  exact (announced.followsPlan.unplanned error failed).failsUnwritten

end Patch

namespace Command

open Patch (Fails FailsUnwritten)

variable {directory : Location} {root : Path} {lock : Bool} {target : Option Path} {code : Nat}
  {disks : List FileSystem.Disk}

/-! ### One visit after the other -/

/-- The first of the visits to fail does so for a reason with this code. Each visit has a disk of
its own, and each of those before the one that fails leaves a tree for the next. -/
inductive FirstFails (fails : FileSystem.Disk → Member → FileSystem → Nat → Prop)
    (left : FileSystem.Disk → Member → FileSystem → FileSystem) :
    List FileSystem.Disk → List Member → FileSystem → Nat → Prop
  | here {disks : List FileSystem.Disk} {member : Member} {rest : List Member} {tree : FileSystem}
      {code : Nat} (failing : fails (disks.headD {}) member tree code) :
      FirstFails fails left disks (member :: rest) tree code
  | later {disks : List FileSystem.Disk} {member : Member} {rest : List Member} {tree : FileSystem}
      {code : Nat} (passes : ∀ other, ¬ fails (disks.headD {}) member tree other)
      (failing : FirstFails fails left disks.tail rest (left (disks.headD {}) member tree) code) :
      FirstFails fails left disks (member :: rest) tree code

/-- The entries of visits that come to these results and leave these trees. -/
def visitEach {Result : Type}
    (visit : FileSystem.Disk → Member → FileSystem → Except ApplyError Result)
    (left : FileSystem.Disk → Member → FileSystem → FileSystem) :
    List FileSystem.Disk → List Member → FileSystem → List (Entry Result)
  | _, [], _ => []
  | disks, member :: rest, tree =>
    { name := member.definition.name, result := visit (disks.headD {}) member tree } ::
      visitEach visit left disks.tail rest (left (disks.headD {}) member tree)

theorem entriesCode_cons_of_ok {Result : Type} {entry : Entry Result} {value : Result}
    (told : entry.result = .ok value) (rest : List (Entry Result)) :
    entriesCode (entry :: rest) = entriesCode rest := by
  rw [entriesCode, List.findSome?_cons, failure?_of_ok told]
  rfl

theorem entriesCode_cons_of_error {Result : Type} {entry : Entry Result} {error : ApplyError}
    (told : entry.result = .error error) (rest : List (Entry Result)) :
    entriesCode (entry :: rest) = failureCode error := by
  rw [entriesCode, List.findSome?_cons, failure?_of_error told]
  rfl

/-- If the results of visits are told by their reasons, the first reason gives the exit code. -/
theorem firstFails_iff_visitEach {Result : Type}
    {fails : FileSystem.Disk → Member → FileSystem → Nat → Prop}
    {visit : FileSystem.Disk → Member → FileSystem → Except ApplyError Result}
    {left : FileSystem.Disk → Member → FileSystem → FileSystem}
    (tells : ∀ disk member tree code, fails disk member tree code ↔
      ∃ error, visit disk member tree = .error error ∧ failureCode error = code)
    (positive : code ≠ 0) (disks : List FileSystem.Disk) (selected : List Member)
    (tree : FileSystem) :
    FirstFails fails left disks selected tree code ↔
      entriesCode (visitEach visit left disks selected tree) = code := by
  induction selected generalizing disks tree with
  | nil => exact ⟨nofun, fun zero => absurd zero.symm positive⟩
  | cons member rest inductionHypothesis =>
    rw [visitEach]
    cases told : visit (disks.headD {}) member tree with
    | error error =>
      rw [entriesCode_cons_of_error rfl]
      have failing := (tells _ member tree _).2 ⟨error, told, rfl⟩
      refine ⟨fun first => ?_, fun same => same ▸ .here failing⟩
      cases first with
      | here failsWith =>
        obtain ⟨other, otherTold, same⟩ := (tells _ member tree code).1 failsWith
        cases told.symm.trans otherTold
        exact same
      | later passes _ => exact absurd failing (passes _)
    | ok value =>
      rw [entriesCode_cons_of_ok rfl, ← inductionHypothesis]
      have passes : ∀ other, ¬ fails (disks.headD {}) member tree other := by
        intro other failing
        obtain ⟨error, failed, _⟩ := (tells _ member tree other).1 failing
        cases told.symm.trans failed
      refine ⟨fun first => ?_, fun first => .later passes first⟩
      cases first with
      | here failing => exact absurd failing (passes _)
      | later _ failing => exact failing

/-- An application fails for a reason with this code. -/
def FailsApplied (directory : Location) (root : Path) (lock : Bool) (target : Option Path)
    (disk : FileSystem.Disk) (member : Member) (tree : FileSystem) (code : Nat) : Prop :=
  Fails member.patch tree directory (targetPath root target member) { toDisk := disk, lock } code

/-- A plan fails for a reason with this code. -/
def FailsPlanned (directory : Location) (root : Path) (target : Option Path)
    (_ : FileSystem.Disk) (member : Member) (tree : FileSystem) (code : Nat) : Prop :=
  FailsUnwritten member.patch tree directory (targetPath root target member) {} code

/-- The tree that an application leaves. -/
def appliedTo (directory : Location) (root : Path) (lock : Bool) (target : Option Path)
    (disk : FileSystem.Disk) (member : Member) (tree : FileSystem) : FileSystem :=
  (member.patch.apply tree directory (targetPath root target member) { toDisk := disk, lock }).1

theorem applyEach_eq_visitEach (disks : List FileSystem.Disk) (selected : List Member)
    (tree : FileSystem) :
    (applyEach directory root lock target disks selected tree).2 =
      visitEach
        (fun disk member tree => (member.patch.apply tree directory (targetPath root target member)
          { toDisk := disk, lock }).2)
        (appliedTo directory root lock target) disks selected tree := by
  induction selected generalizing disks tree with
  | nil => rfl
  | cons member rest inductionHypothesis =>
    exact congrArg (List.cons _) (inductionHypothesis _ _)

theorem checkEach_eq_visitEach (disks : List FileSystem.Disk) (selected : List Member)
    (tree : FileSystem) :
    checkEach tree directory root target selected =
      visitEach
        (fun _ member tree => member.patch.plan tree directory (targetPath root target member))
        (fun _ _ tree => tree) disks selected tree := by
  induction selected generalizing disks with
  | nil => rfl
  | cons member rest inductionHypothesis =>
    exact congrArg (List.cons _) (inductionHypothesis _)

/-! ### Whole runs -/

/-- A run visits the selected definitions, and the first visit to fail has a reason with this
code. Only `apply` writes, takes the lock and leaves another tree for the visits behind. -/
inductive FailsVisiting (tree : FileSystem) (directory : Location) (invocation : Invocation)
    (disks : List FileSystem.Disk) : Nat → Prop
  | apply {set : PatchSet} {names : List Text} {lock : Bool} {target : Option Path}
      {selected : List Member} {code : Nat}
      (action : invocation.action = .apply names lock target)
      (loads : Loads tree directory invocation.root invocation.config set)
      (selects : Selects set names selected) (single : target.isSome = true → selected.length = 1)
      (first : FirstFails (FailsApplied directory invocation.root lock target)
        (appliedTo directory invocation.root lock target) disks selected tree code) :
      FailsVisiting tree directory invocation disks code
  | check {set : PatchSet} {names : List Text} {target : Option Path} {selected : List Member}
      {code : Nat} (action : invocation.action = .check names target)
      (loads : Loads tree directory invocation.root invocation.config set)
      (selects : Selects set names selected) (single : target.isSome = true → selected.length = 1)
      (first : FirstFails (FailsPlanned directory invocation.root target) (fun _ _ tree => tree)
        disks selected tree code) :
      FailsVisiting tree directory invocation disks code

section Runs

variable {tree : FileSystem} {invocation : Invocation} {set : PatchSet} {names : List Text}
  {selected : List Member}

theorem run_apply_of_selects (action : invocation.action = .apply names lock target)
    (loads : Loads tree directory invocation.root invocation.config set)
    (selects : Selects set names selected) (single : target.isSome = true → selected.length = 1) :
    (run tree directory invocation disks).2 =
      .ok (.applied (applyEach directory invocation.root lock target disks selected tree).2) := by
  have selection := (selectFor_determines set names target).returns selected ⟨selects, single⟩
  rw [run, (loadSet_determines ..).returns _ loads, action]
  simp only [perform_apply_of_selected _ _ _ _ _ selection]

theorem run_check_of_selects (action : invocation.action = .check names target)
    (loads : Loads tree directory invocation.root invocation.config set)
    (selects : Selects set names selected) (single : target.isSome = true → selected.length = 1) :
    (run tree directory invocation disks).2 =
      .ok (.checked (checkEach tree directory invocation.root target selected)) := by
  have selection := (selectFor_determines set names target).returns selected ⟨selects, single⟩
  rw [run, (loadSet_determines ..).returns _ loads, action]
  simp only [perform_check_of_selected _ _ _ _ selection]

/-- Every code of a run but zero and one tells the reason of the first failure. -/
theorem failsVisiting_iff_run (unzero : code ≠ 0) (unrefused : code ≠ 1) :
    FailsVisiting tree directory invocation disks code ↔
      (finishOf (run tree directory invocation disks).2).code = code := by
  have applied (lock : Bool) (target : Option Path) (selected : List Member) :
      FirstFails (FailsApplied directory invocation.root lock target)
          (appliedTo directory invocation.root lock target) disks selected tree code ↔
        entriesCode (applyEach directory invocation.root lock target disks selected tree).2 =
          code := by
    rw [applyEach_eq_visitEach]
    refine firstFails_iff_visitEach (fun _ _ _ _ => ?_) unzero disks selected tree
    exact Patch.fails_iff_apply
  have checked (target : Option Path) (selected : List Member) :
      FirstFails (FailsPlanned directory invocation.root target) (fun _ _ tree => tree) disks
          selected tree code ↔
        entriesCode (checkEach tree directory invocation.root target selected) = code := by
    rw [checkEach_eq_visitEach disks]
    refine firstFails_iff_visitEach (fun _ _ _ _ => ?_) unzero disks selected tree
    exact Patch.failsUnwritten_iff_plan
  constructor
  · intro fails
    cases fails with
    | apply action loads selects single first =>
      rw [run_apply_of_selects action loads selects single]
      exact (applied ..).1 first
    | check action loads selects single first =>
      rw [run_check_of_selects action loads selects single]
      exact (checked ..).1 first
  · intro ended
    rcases refused_or_carriedThrough tree directory invocation disks with ⟨error, refused⟩ | through
    · rw [run_of_refused refused] at ended
      exact absurd ended.symm unrefused
    · generalize (run tree directory invocation disks).1 = after at through
      generalize same : finishOf (run tree directory invocation disks).2 = finish at through
      cases through with
      | apply action loads selects single _ _ _ =>
        rw [run_apply_of_selects action loads selects single] at ended
        exact .apply action loads selects single ((applied ..).2 ended)
      | check action loads selects single _ _ _ =>
        rw [run_check_of_selects action loads selects single] at ended
        exact .check action loads selects single ((checked ..).2 ended)
      | list action loads =>
        rw [same] at ended
        exact absurd ended.symm unzero

theorem refused_iff_run : (∃ error, Refused tree directory invocation error) ↔
    (finishOf (run tree directory invocation disks).2).code = 1 := by
  constructor
  · rintro ⟨error, refused⟩
    rw [run_of_refused refused]
    rfl
  · intro ended
    rcases refused_or_carriedThrough tree directory invocation disks with refused | through
    · exact refused
    · exact absurd ended through.code_ne_one

theorem CarriedThrough.code_le_four {after : FileSystem} {finish : Finish}
    (through : CarriedThrough tree directory invocation disks after finish) : finish.code ≤ 4 := by
  have small {Result : Type} {entries : List (Entry Result)} {code : Nat}
      (exits : ExitsWith entries code) : code ≤ 4 := by
    cases exits <;> decide
  cases through with
  | apply _ _ _ _ _ _ exits => exact small exits
  | check _ _ _ _ _ _ exits => exact small exits
  | list action loads => exact Nat.zero_le 4

theorem code_run_le_four : (finishOf (run tree directory invocation disks).2).code ≤ 4 := by
  rcases refused_or_carriedThrough tree directory invocation disks with ⟨error, refused⟩ | through
  · rw [refused_iff_run.1 ⟨error, refused⟩]
    decide
  · exact through.code_le_four

end Runs

/-! ### Whole processes -/

/-- The exit code of a process. -/
def exitCode (tree : FileSystem) (directory : Location) (environment : Environment)
    (arguments : List Text) (disks : List FileSystem.Disk := []) : Nat :=
  (execute tree directory environment arguments disks).2.code

/-- A command line that breaks no rule gives one exactly if the run was refused, and two, three or
four exactly if the first visit to fail has the reason of that code, whatever the disk refuses. Two
is also what every command line gives that breaks a rule. -/
theorem exitCode_tells (tree : FileSystem) (directory : Location) (environment : Environment)
    (arguments : List Text) (disks : List FileSystem.Disk) :
    (exitCode tree directory environment arguments disks = 1 ↔
      ∃ invocation, Invocation.read environment arguments = .ok invocation ∧
        ∃ error, Refused tree directory invocation error) ∧
    (exitCode tree directory environment arguments disks = 2 ↔
      Invocation.read environment arguments = .error .invalid ∨
        ∃ invocation, Invocation.read environment arguments = .ok invocation ∧
          FailsVisiting tree directory invocation disks 2) ∧
    (exitCode tree directory environment arguments disks = 3 ↔
      ∃ invocation, Invocation.read environment arguments = .ok invocation ∧
        FailsVisiting tree directory invocation disks 3) ∧
    (exitCode tree directory environment arguments disks = 4 ↔
      ∃ invocation, Invocation.read environment arguments = .ok invocation ∧
        FailsVisiting tree directory invocation disks 4) ∧
    exitCode tree directory environment arguments disks ≤ 4 := by
  cases parsed : Invocation.read environment arguments with
  | error settled =>
    have ends : exitCode tree directory environment arguments disks = settled.finish.code := by
      rw [exitCode, execute, parsed]
    rw [ends]
    cases settled <;> simp [Settled.finish]
  | ok invocation =>
    have ends : exitCode tree directory environment arguments disks =
        (finishOf (run tree directory invocation disks).2).code := by
      rw [exitCode, execute_of_read parsed]
    rw [ends]
    simp only [Except.ok.injEq, exists_eq_left', reduceCtorEq, false_or]
    exact ⟨refused_iff_run.symm, (failsVisiting_iff_run (by decide) (by decide)).symm,
      (failsVisiting_iff_run (by decide) (by decide)).symm,
      (failsVisiting_iff_run (by decide) (by decide)).symm, code_run_le_four⟩

/-- A misspelled option ends a process with the code of a missing target. -/
theorem exitCode_misspelledOption :
    Invocation.read {} ["apply".toList, "--locked".toList] = .error .invalid ∧
      exitCode FileSystem.linked [] {} ["apply".toList, "--locked".toList] = 2 := by
  decide

end Command

end Inlay
