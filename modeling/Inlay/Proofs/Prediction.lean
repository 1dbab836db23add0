/-
This file proves that `check` foretells what `apply` will do.

Both hold a patch against the same file, so in one tree a plan announces the outcome. But `check`
plans all definitions in the tree as it is, and `apply` comes to each in a tree that others have
changed. Two things survive such changes: where paths lead, and the lines of files. So a marker or a
sentinel that `check` has seen is there when `apply` comes, and what is announced as applied is
found applied. A definition that is pending may by then have been served by the block of another.

That cannot happen when no two definitions share a file. Then `apply` finds each file as `check` has
found it, and the entries agree one by one.

`check` writes nothing and cannot foretell that a file cannot be written. So all of this is said of
runs in which every write passes.
-/
import Inlay.Proofs.Announcement
import Inlay.Proofs.Persistence
import Inlay.Proofs.Selection
import Inlay.Proofs.Visits
import Mathlib.Data.List.Forall2

namespace Inlay

/-! ### In one tree -/

/-- The outcome that a plan announces. -/
def Plan.outcome : Plan → Outcome
  | .insert index => .applied (index + 1)
  | .alreadyApplied index => .alreadyApplied (index + 1)

/-- The second tree has the entries of the first with the same kinds, and the lines of its files. -/
structure FileSystem.Retains (before after : FileSystem) : Prop where
  kinds : after.kind? = before.kind?
  carries : ∀ target needle, before.Carries target needle → after.Carries target needle

namespace Patch

variable {patch : Patch} {tree before after : FileSystem} {directory target : Location}
  {path : Path} {options : ApplyOptions} {plan : Plan} {disk : FileSystem.Disk}

/-- If the planned text can be written, what is told without the lock is the outcome of the plan. -/
theorem Ending.outcome_eq {told : Except ApplyError Report}
    (ending : Ending patch tree directory path { toDisk := disk } after told)
    (writes : patch.writeFault? tree directory path disk = none) :
    told.map Report.outcome = (patch.plan tree directory path).map Plan.outcome := by
  have announced := ending.announced
  generalize planned : patch.plan tree directory path = foretold at announced
  cases announced with
  | unplanned fails => rfl
  | found outcome => exact congrArg Except.ok outcome
  | putIn drafts written outcome => exact congrArg Except.ok outcome
  | unwritten drafts fails =>
    rw [drafts.writeFault?_eq planned, fails] at writes
    cases writes

/-! ### In a tree that others have changed -/

/-- A file that shows the marker has a plan. -/
theorem exists_plan_of_carries_marker (leads : tree.fileLocation? directory path = some target)
    (carried : tree.Carries target patch.marker) :
    ∃ plan, patch.plan tree directory path = .ok plan := by
  obtain ⟨file, text, present, reads, line, member, contains⟩ := carried
  obtain ⟨plan, planned⟩ : ∃ plan, patch.plan? text = some plan := by
    by_cases shown : ∃ line ∈ Text.lines text, patch.sentinel <:+: line
    · obtain ⟨index, planned⟩ := Insertion.plan?_of_line shown
      exact ⟨_, planned⟩
    · obtain ⟨index, first⟩ := Text.exists_isLeast_positions member contains
      exact ⟨_, Insertion.plan?_eq_insert_iff.2
        ⟨fun line member contains => shown ⟨line, member, contains⟩, first⟩⟩
  exact ⟨plan, plan_eq_ok_iff.2 ⟨target, file, text, leads, present, reads, planned⟩⟩

theorem Ending.retains {result : Except ApplyError Report} {start : FileSystem}
    (ending : Ending patch tree directory path options after result)
    (unlocked : options.lock = false) (retains : start.Retains tree) : start.Retains after where
  kinds := (ending.kind?_eq unlocked).trans retains.kinds
  carries _ _ carried := ending.carries (retains.carries _ _ carried)

/-- What has a plan keeps one, and what is announced as applied stays so. -/
theorem plan_of_retains (retains : before.Retains after)
    (planned : patch.plan before directory path = .ok plan) :
    ∃ later, patch.plan after directory path = .ok later ∧
      ∀ index, plan = .alreadyApplied index → ∃ index, later = .alreadyApplied index := by
  obtain ⟨target, file, text, leads, present, reads, found⟩ := plan_eq_ok_iff.1 planned
  have stillLeads : after.fileLocation? directory path = some target :=
    (FileSystem.fileLocation?_congr retains.kinds directory path).trans leads
  cases plan with
  | alreadyApplied index =>
    have carried := retains.carries target patch.sentinel
      ⟨file, text, present, reads, Insertion.exists_line_of_alreadyApplied found⟩
    obtain ⟨index, settled⟩ := (isSettled_of_carries carried).plan _ _ stillLeads
    exact ⟨_, settled, fun _ _ => ⟨index, rfl⟩⟩
  | insert index =>
    obtain ⟨⟨line, place, contains⟩, _⟩ := (Insertion.plan?_eq_insert_iff.1 found).2
    have carried := retains.carries target patch.marker
      ⟨file, text, present, reads, line, List.mem_of_getElem? place, contains⟩
    obtain ⟨later, succeeds⟩ := exists_plan_of_carries_marker stillLeads carried
    exact ⟨later, succeeds, fun _ announced => by cases announced⟩

theorem inspect_congr (same : after.node? target = before.node? target) :
    patch.inspect after target = patch.inspect before target := by
  simp only [inspect, FileSystem.fileAt, same]

/-- The plan for a path depends on the kinds of entries and on the file at its end. -/
theorem plan_congr (kinds : after.kind? = before.kind?)
    (same : ∀ place, before.fileLocation? directory path = some place →
      after.node? place = before.node? place) :
    patch.plan after directory path = patch.plan before directory path := by
  rw [plan, plan, FileSystem.fileLocation?_congr kinds]
  cases leads : before.fileLocation? directory path with
  | none => rfl
  | some target => simp only [inspect_congr (same target leads)]

end Patch

/-! ### What an entry of a check foretells -/

namespace Command

open Patch (Ending)

/-- What a check has told of a definition foretells what a run of `apply` tells of it. -/
structure Foretells (foretold : Entry Plan) (told : Entry Report) : Prop where
  name : told.name = foretold.name
  succeeds : ∀ plan, foretold.result = .ok plan → ∃ report, told.result = .ok report
  settled : ∀ index, foretold.result = .ok (.alreadyApplied index) →
    ∃ report line, told.result = .ok report ∧ report.outcome = .alreadyApplied line

/-- A check and a run of `apply` have told the same of a definition. -/
structure Agrees (foretold : Entry Plan) (told : Entry Report) : Prop where
  name : told.name = foretold.name
  pending : ∀ index, foretold.result = .ok (.insert index) ↔
    ∃ report, told.result = .ok report ∧ report.outcome = .applied (index + 1)
  settled : ∀ index, foretold.result = .ok (.alreadyApplied index) ↔
    ∃ report, told.result = .ok report ∧ report.outcome = .alreadyApplied (index + 1)
  failed : ∀ error, foretold.result = .error error ↔ told.result = .error error

/-- In the tree no file is the target of both definitions. -/
def Apart (tree : FileSystem) (directory : Location) (root : Path) (target : Option Path)
    (first second : Member) : Prop :=
  ∀ place, tree.fileLocation? directory (targetPath root target first) = some place →
    tree.fileLocation? directory (targetPath root target second) ≠ some place

section Entries

variable {name : Text} {planned : Except ApplyError Plan} {result : Except ApplyError Report}

theorem agrees_of_outcome_eq (same : result.map Report.outcome = planned.map Plan.outcome) :
    Agrees { name, result := planned } { name, result } := by
  cases planned with
  | error error =>
    cases result with
    | ok report => cases same
    | error reason =>
      cases same
      exact ⟨rfl, fun _ => ⟨nofun, nofun⟩, fun _ => ⟨nofun, nofun⟩, fun _ => by
        simp only [Except.error.injEq]⟩
  | ok plan =>
    cases result with
    | error reason => cases same
    | ok report =>
      have outcome : report.outcome = plan.outcome := Except.ok.inj same
      refine ⟨rfl, fun index => ?_, fun index => ?_, fun _ => ⟨nofun, nofun⟩⟩
      all_goals simp only [Except.ok.injEq, exists_eq_left', outcome]
      all_goals cases plan <;> simp [Plan.outcome]

theorem Agrees.failure?_eq {foretold : Entry Plan} {told : Entry Report}
    (agrees : Agrees foretold told) : told.failure? = foretold.failure? := by
  cases failed : foretold.result with
  | error error =>
    rw [failure?_of_error failed, failure?_of_error ((agrees.failed error).1 failed)]
  | ok plan =>
    rw [failure?_of_ok failed]
    cases answer : told.result with
    | error error => rw [(agrees.failed error).2 answer] at failed; cases failed
    | ok report => exact failure?_of_ok answer

end Entries

/-! ### Whole runs -/

/-- In a run of `apply` without the lock every text that comes to be written can be written. -/
def WritesPass (directory : Location) (root : Path) (target : Option Path) :
    List FileSystem.Disk → List Member → FileSystem → Prop
  | _, [], _ => True
  | disks, member :: rest, tree =>
    let path := targetPath root target member
    member.patch.writeFault? tree directory path (disks.headD {}) = none ∧
      WritesPass directory root target disks.tail rest
        (member.patch.apply tree directory path { toDisk := disks.headD {} }).1

section Runs

variable {directory : Location} {root : Path} {target : Option Path} {selected : List Member}
  {start tree : FileSystem} {disks : List FileSystem.Disk}

theorem forall₂_foretells (retains : start.Retains tree)
    (passes : WritesPass directory root target disks selected tree) :
    List.Forall₂ Foretells (checkEach start directory root target selected)
      (applyEach directory root false target disks selected tree).2 := by
  induction selected generalizing disks tree with
  | nil => exact .nil
  | cons member rest inductionHypothesis =>
    obtain ⟨writes, later⟩ := passes
    have ending := member.patch.apply_ending tree directory (targetPath root target member)
      { toDisk := disks.headD {} }
    refine .cons ?_ (inductionHypothesis (ending.retains rfl retains) later)
    have outcome := ending.outcome_eq writes
    have agrees : Agrees _ { name := member.definition.name, result := _ } :=
      agrees_of_outcome_eq outcome
    refine ⟨rfl, fun plan planned => ?_, fun index planned => ?_⟩
    · -- What `check` has planned in the first tree can be planned in this one too.
      obtain ⟨found, succeeds, _⟩ := Patch.plan_of_retains retains planned
      rw [succeeds] at outcome
      cases told : (member.patch.apply tree directory (targetPath root target member)
          { toDisk := disks.headD {} }).2 with
      | ok report => exact ⟨report, rfl⟩
      | error error => rw [told] at outcome; cases outcome
    · obtain ⟨found, succeeds, same⟩ := Patch.plan_of_retains retains planned
      obtain ⟨position, rfl⟩ := same index rfl
      obtain ⟨report, told, settled⟩ := (agrees.settled position).1 succeeds
      exact ⟨report, position + 1, told, settled⟩

/-- Where no two definitions share a file, each is planned as if it came first. -/
theorem forall₂_agrees (apart : selected.Pairwise (Apart start directory root target))
    (kinds : tree.kind? = start.kind?)
    (same : ∀ member ∈ selected, ∀ place,
      start.fileLocation? directory (targetPath root target member) = some place →
        tree.node? place = start.node? place)
    (passes : WritesPass directory root target disks selected tree) :
    List.Forall₂ Agrees (checkEach start directory root target selected)
      (applyEach directory root false target disks selected tree).2 := by
  induction selected generalizing disks tree with
  | nil => exact .nil
  | cons member rest inductionHypothesis =>
    obtain ⟨writes, later⟩ := passes
    obtain ⟨first, others⟩ := List.pairwise_cons.1 apart
    have ending := member.patch.apply_ending tree directory (targetPath root target member)
      { toDisk := disks.headD {} }
    refine .cons (agrees_of_outcome_eq ?_) (inductionHypothesis others
      ((ending.kind?_eq rfl).trans kinds) (fun other member place leads => ?_) later)
    · rw [ending.outcome_eq writes, Patch.plan_congr kinds (same member List.mem_cons_self)]
    · rw [← same other (List.mem_cons_of_mem _ member) place leads]
      -- The file that may be replaced is a target of no later definition.
      refine ending.node?_elsewhere rfl fun reached => ?_
      rw [FileSystem.fileLocation?_congr kinds] at reached
      exact first other member place reached leads

theorem entriesCode_eq_zero_of_foretells {foretold : List (Entry Plan)}
    {told : List (Entry Report)} (foretells : List.Forall₂ Foretells foretold told)
    (succeeds : entriesCode foretold = 0) : entriesCode told = 0 := by
  rw [entriesCode_eq_zero_iff] at succeeds ⊢
  induction foretells with
  | nil => exact fun entry member => absurd member List.not_mem_nil
  | cons first rest inductionHypothesis =>
    obtain ⟨⟨plan, planned⟩, others⟩ := List.forall_mem_cons.1 succeeds
    exact List.forall_mem_cons.2 ⟨first.succeeds plan planned, inductionHypothesis others⟩

theorem entriesCode_eq_of_agrees {foretold : List (Entry Plan)} {told : List (Entry Report)}
    (agrees : List.Forall₂ Agrees foretold told) : entriesCode told = entriesCode foretold := by
  have failures : told.findSome? Entry.failure? = foretold.findSome? Entry.failure? := by
    induction agrees with
    | nil => rfl
    | cons first rest inductionHypothesis =>
      rw [List.findSome?_cons, List.findSome?_cons, first.failure?_eq, inductionHypothesis]
  rw [entriesCode, entriesCode, failures]

end Runs

/-- `check` foretells what `apply` without the lock does from the same tree if it can write all that
it comes to write, with whatever definitions share a file: those without a failure have none, and
those that are applied are found applied. Definitions of which no two share a file are told of
alike, with the same exit code. -/
theorem check_foretells_apply (tree : FileSystem) (directory : Location) (root : Path)
    (set : PatchSet) (names : List Text) (target : Option Path) (selected : List Member)
    (disks : List FileSystem.Disk) (passes : selectFor set names target = .ok selected)
    (writes : WritesPass directory root target disks selected tree) :
    ∃ foretold after told,
      perform tree directory root set (.check names target) = (tree, .ok (.checked foretold)) ∧
      perform tree directory root set (.apply names false target) disks =
        (after, .ok (.applied told)) ∧
      foretold.map Entry.name = (selected.map fun member => member.definition.name) ∧
      List.Forall₂ Foretells foretold told ∧
      ((Summary.checked foretold).code = 0 → (Summary.applied told).code = 0) ∧
      (selected.Pairwise (Apart tree directory root target) →
        List.Forall₂ Agrees foretold told ∧
          (Summary.applied told).code = (Summary.checked foretold).code) := by
  have foretold := forall₂_foretells ⟨rfl, fun _ _ carried => carried⟩ writes
  refine ⟨_, _, _, perform_check_of_selected tree directory root [] passes,
    perform_apply_of_selected tree directory root false disks passes, checkEach_names .., foretold,
    entriesCode_eq_zero_of_foretells foretold, fun apart => ?_⟩
  have agrees := forall₂_agrees apart rfl (fun _ _ _ _ => rfl) writes
  exact ⟨agrees, entriesCode_eq_of_agrees agrees⟩

end Command

/-! ### Definitions that share a file -/

/-- The member for a definition without a defect. -/
def Member.ofSound (definition : Definition)
    (sound : (Insertion.ofBlockText definition.marker definition.sentinel
      definition.block).defect? = none) : Member where
  definition := definition
  patch := { toInsertion := _, sound }
  sound := Patch.ofInsertion_toInsertion { toInsertion := _, sound }

/-- Has no place in `linked` until the block of `elseOn` is there. -/
def Member.elseOff : Member := .ofSound
  { name := "else-off".toList
    target := "src/real.h".toList
    marker := "#elif ON".toList
    sentinel := "#elif OFF".toList
    block := "#elif OFF".toList } (by decide)

def Member.elseOn : Member := .ofSound
  { name := "else-on".toList
    target := "link.h".toList
    marker := "#else".toList
    sentinel := "#elif ON".toList
    block := "#elif ON".toList } (by decide)

/-- Goes where `elseOn` goes, and its sentinel comes with the block of that. -/
def Member.on : Member := .ofSound
  { name := "on".toList
    target := "src/real.h".toList
    marker := "#else".toList
    sentinel := "ON".toList
    block := "// ON".toList } (by decide)

/-- Goes into the other name of the file. -/
def Member.copyOn : Member := .ofSound
  { name := "copy-on".toList
    target := "copy.h".toList
    marker := "#else".toList
    sentinel := "#elif ON".toList
    block := "#elif ON".toList } (by decide)

def PatchSet.elseBranches : PatchSet where
  members := [Member.elseOff, Member.elseOn, Member.on, Member.copyOn]
  distinct := by decide

namespace Command

open FileSystem (linked)

theorem selectFor_elseBranches {selected : List Member} (given : selected ≠ [])
    (members : ∀ member ∈ selected, member ∈ PatchSet.elseBranches.members) :
    selectFor .elseBranches (selected.map fun member => member.definition.name) none =
      .ok selected :=
  selectFor_named given members

/-- The two names of one file are two places. -/
theorem apart_linked : Apart linked [] ['.'] none .elseOn .copyOn := fun place leads => by
  have real : linked.fileLocation? [] (targetPath ['.'] none .elseOn) =
      some FileSystem.linkedPlace := by decide +kernel
  have copy : linked.fileLocation? [] (targetPath ['.'] none .copyOn) =
      some ["copy.h".toList] := by decide +kernel
  rw [real] at leads
  rw [copy, ← leads]
  decide

/-- Two definitions for one file are both pending and both succeed, though the second is served by
the block of the first. Two definitions for two files are put in where the check has said. -/
theorem check_foretells_apply_linked :
    (∃ after told, perform linked [] ['.'] .elseBranches
        (.apply ["else-on".toList, "on".toList] false none) = (after, .ok (.applied told)) ∧
      (Summary.applied told).code = 0) ∧
    ∃ after first second, perform linked [] ['.'] .elseBranches
        (.apply ["else-on".toList, "copy-on".toList] false none) =
          (after, .ok (.applied [first, second])) ∧
      (∃ report, first.result = .ok report ∧ report.outcome = .applied 2) ∧
      ∃ report, second.result = .ok report ∧ report.outcome = .applied 2 := by
  constructor
  · have passes := selectFor_elseBranches (List.cons_ne_nil Member.elseOn [Member.on])
      (by simp [PatchSet.elseBranches])
    have writes : WritesPass [] ['.'] none [] [.elseOn, .on] linked :=
      ⟨by decide +kernel, by decide +kernel, trivial⟩
    obtain ⟨foretold, after, told, checks, applies, _, _, code, _⟩ :=
      check_foretells_apply linked [] ['.'] .elseBranches _ none _ [] passes writes
    refine ⟨after, told, applies, code ?_⟩
    rw [perform_check_of_selected _ _ _ _ passes] at checks
    cases checks
    decide +kernel
  · have passes := selectFor_elseBranches (List.cons_ne_nil Member.elseOn [Member.copyOn])
      (by simp [PatchSet.elseBranches])
    have writes : WritesPass [] ['.'] none [] [.elseOn, .copyOn] linked :=
      ⟨by decide +kernel, by decide +kernel, trivial⟩
    obtain ⟨foretold, after, told, checks, applies, _, _, _, agree⟩ :=
      check_foretells_apply linked [] ['.'] .elseBranches _ none _ [] passes writes
    rw [perform_check_of_selected _ _ _ _ passes] at checks
    cases checks
    obtain ⟨agrees, _⟩ := agree (List.pairwise_pair.2 apart_linked)
    cases agrees with
    | cons first rest =>
      cases rest with
      | cons second none =>
        cases none
        exact ⟨after, _, _, applies, (first.pending 1).1 (by decide +kernel),
          (second.pending 1).1 (by decide +kernel)⟩

end Command

end Inlay
