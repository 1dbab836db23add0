/-
This file proves that a file which once carries a patch carries it for good.

The invariant is about one file: it can be read, and some line of it shows the sentinel. Every
application that succeeds establishes it for the real file, either because the sentinel was found or
because the block was put in. Every application of whatever patch, to whatever path, keeps it:
entries are kept as they are, but for one file that is replaced by a spliced one with the same mode,
and splicing loses no line. Neither failures nor sidecars matter, as they keep all entries.

A file with the invariant is done for the patch along every path that leads to it. So in a sequence
of applications no patch is put into a file twice.
-/
import Inlay.Proofs.Effect

namespace Inlay

open Text (lines)

/-! ### The invariant -/

/-- Some line of the file at a location contains the needle, and the file can be read. -/
def FileSystem.Carries (tree : FileSystem) (target : Location) (needle : Text) : Prop :=
  ∃ file text, tree.node? target = some (.file file) ∧ file.read = .ok text ∧
    ∃ line ∈ lines text, needle <:+: line

theorem FileSystem.Carries.exists_line {tree : FileSystem} {target : Location} {needle text : Text}
    {file : File} (carried : tree.Carries target needle)
    (present : tree.node? target = some (.file file)) (reads : file.read = .ok text) :
    ∃ line ∈ lines text, needle <:+: line := by
  obtain ⟨other, otherText, otherPresent, otherReads, shown⟩ := carried
  obtain rfl := FileSystem.text_unique present reads otherPresent otherReads
  exact shown

namespace Patch

variable {patch : Patch} {tree after : FileSystem} {directory target : Location} {path : Path}
  {options : ApplyOptions}

/-- A successful application leaves the sentinel in the real file. -/
theorem Ending.carries_of_ok {report : Report}
    (ending : Ending patch tree directory path options after (.ok report)) :
    after.Carries report.target patch.sentinel := by
  cases ending with
  | @alreadyApplied target _ file text index reaches reads planned =>
    exact ⟨file, text, reaches.keeps reaches.present, reads,
      Insertion.exists_line_of_alreadyApplied planned⟩
  | @applied target opened _ file text index reaches reads planned written replaced =>
    obtain ⟨marked, found, _⟩ := (Insertion.plan?_eq_insert_iff.1 planned).2.1
    obtain ⟨offset, first⟩ := patch.exists_isLeast_positions_block (Text.terminatorOf marked)
    have done := patch.plan?_splice planned found first
    exact ⟨_, patch.splice text index, by rw [replaced, if_pos rfl], File.read_encode reads _ none,
      Insertion.exists_line_of_alreadyApplied done⟩

/-- No application takes a line with a needle out of a file. -/
theorem Ending.carries {needle : Text} {result : Except ApplyError Report}
    (ending : Ending patch tree directory path options after result)
    (carried : tree.Carries target needle) : after.Carries target needle := by
  obtain ⟨file, text, present, reads, line, member, contains⟩ := carried
  rcases ending.kept_or_spliced present with kept |
    ⟨old, oldText, index, same, oldReads, planned, replaced⟩
  · exact ⟨file, text, kept, reads, line, member, contains⟩
  · cases same
    obtain rfl : text = oldText := File.read_unique reads oldReads
    exact ⟨_, patch.splice text index, replaced, File.read_encode reads _ none, line,
      mem_lines_splice planned member, contains⟩

/-- A file that shows the sentinel is not replaced for the patch. -/
theorem Ending.not_isApplied {report : Report}
    (ending : Ending patch tree directory path options after (.ok report))
    (carried : tree.Carries report.target patch.sentinel) :
    report.outcome.isApplied = false := by
  cases ending with
  | alreadyApplied reaches _ planned => rfl
  | applied reaches reads planned written replaced =>
    obtain ⟨line, member, contains⟩ := carried.exists_line reaches.present reads
    exact absurd contains ((Insertion.plan?_eq_insert_iff.1 planned).1 line member)

/-! ### What the invariant means for the patch -/

/-- The file at a location is done for the patch, along every path that leads to it. -/
structure IsSettled (patch : Patch) (tree : FileSystem) (target : Location) : Prop where
  isFile : tree.kind? target = some .file
  plan : ∀ directory path, tree.fileLocation? directory path = some target →
    ∃ index, patch.plan tree directory path = .ok (.alreadyApplied index)
  apply : ∀ directory path disk, tree.fileLocation? directory path = some target →
    ∃ line digest, patch.apply tree directory path { toDisk := disk, lock := false } =
      (tree, .ok { target, outcome := .alreadyApplied line, before := digest, after := digest })

theorem isSettled_of_carries (carried : tree.Carries target patch.sentinel) :
    patch.IsSettled tree target := by
  obtain ⟨file, text, present, reads, shown⟩ := carried
  obtain ⟨index, planned⟩ := Insertion.plan?_of_line shown
  have inspected := inspect_of_planned present reads planned
  refine ⟨?_, fun directory path leads => ⟨index, ?_⟩,
    fun directory path disk leads => ⟨index + 1, Digest.hex file.bytes, ?_⟩⟩
  · rw [FileSystem.kind?, present]
    rfl
  · rw [plan_of_leads leads, inspected]
    rfl
  · rw [apply_of_opened leads (FileSystem.openedFor_of_unlocked rfl),
      applyAt_of_alreadyApplied inspected]

end Patch

/-! ### Sequences of applications -/

/-- One application, as a process asks for it. -/
structure Call where
  patch : Patch
  directory : Location
  path : Path
  options : ApplyOptions

namespace Call

def run (call : Call) (tree : FileSystem) : FileSystem × Except ApplyError Report :=
  call.patch.apply tree call.directory call.path call.options

/-- The tree after some calls, one after the other. -/
def runAll (tree : FileSystem) : List Call → FileSystem
  | [] => tree
  | call :: calls => runAll (call.run tree).1 calls

/-- What the calls tell, in order. -/
def results (tree : FileSystem) : List Call → List (Call × Except ApplyError Report)
  | [] => []
  | call :: calls => (call, (call.run tree).2) :: results (call.run tree).1 calls

/-- Whether a call with this patch has put its block into the file at this location. -/
def inserts (patch : Patch) (target : Location) (told : Call × Except ApplyError Report) : Bool :=
  match told.2 with
  | .ok report =>
    decide (told.1.patch = patch) && decide (report.target = target) && report.outcome.isApplied
  | .error _ => false

theorem runAll_append (tree : FileSystem) (calls later : List Call) :
    runAll tree (calls ++ later) = runAll (runAll tree calls) later := by
  induction calls generalizing tree with
  | nil => rfl
  | cons call calls inductionHypothesis => exact inductionHypothesis (call.run tree).1

theorem carries_runAll {tree : FileSystem} {target : Location} {needle : Text}
    (calls : List Call) (carried : tree.Carries target needle) :
    (runAll tree calls).Carries target needle := by
  induction calls generalizing tree with
  | nil => exact carried
  | cons call calls inductionHypothesis =>
    have ending := call.patch.apply_ending tree call.directory call.path call.options
    exact inductionHypothesis (ending.carries carried)

theorem carries_of_run {call : Call} {tree : FileSystem} {report : Report}
    (succeeds : (call.run tree).2 = .ok report) :
    (call.run tree).1.Carries report.target call.patch.sentinel := by
  have ending := call.patch.apply_ending tree call.directory call.path call.options
  rw [← run, succeeds] at ending
  exact ending.carries_of_ok

theorem exists_report_of_inserts {patch : Patch} {target : Location}
    {told : Call × Except ApplyError Report} (counted : inserts patch target told = true) :
    ∃ report, told.2 = .ok report ∧ told.1.patch = patch ∧ report.target = target ∧
      report.outcome.isApplied = true := by
  unfold inserts at counted
  split at counted
  · next report succeeds =>
    simp only [Bool.and_eq_true, decide_eq_true_eq] at counted
    exact ⟨report, succeeds, counted.1.1, counted.1.2, counted.2⟩
  · cases counted

/-- Behind the invariant no call puts the block in again. -/
theorem inserts_eq_false_of_carries {patch : Patch} {tree : FileSystem} {target : Location}
    {calls : List Call} (carried : tree.Carries target patch.sentinel)
    {told : Call × Except ApplyError Report} (member : told ∈ results tree calls) :
    inserts patch target told = false := by
  induction calls generalizing tree with
  | nil => cases member
  | cons call calls inductionHypothesis =>
    have ending := call.patch.apply_ending tree call.directory call.path call.options
    rcases List.mem_cons.1 member with first | later
    · subst first
      refine Bool.eq_false_iff.2 fun counted => ?_
      obtain ⟨report, succeeds, own, here, applied⟩ := exists_report_of_inserts counted
      rw [← run, succeeds] at ending
      have idle := ending.not_isApplied (by rw [here, own]; exact carried)
      rw [idle] at applied
      cases applied
    · exact inductionHypothesis (ending.carries carried) later

theorem countP_inserts_le_one (patch : Patch) (target : Location) (tree : FileSystem)
    (calls : List Call) : (results tree calls).countP (inserts patch target) ≤ 1 := by
  induction calls generalizing tree with
  | nil => exact Nat.zero_le 1
  | cons call calls inductionHypothesis =>
    rw [results, List.countP_cons]
    split
    · next counted =>
      obtain ⟨report, succeeds, own, here, _⟩ := exists_report_of_inserts counted
      have carried := carries_of_run succeeds
      rw [here, own] at carried
      have never : (results (call.run tree).1 calls).countP (inserts patch target) = 0 :=
        List.countP_eq_zero.2 fun told member => by
          rw [inserts_eq_false_of_carries carried member]
          exact Bool.false_ne_true
      omega
    · exact inductionHypothesis (call.run tree).1

end Call

/-- Once a patch was applied to a file or found in it, the file is done for that patch after every
further call, whatever patches, paths and options the calls have and however they end. So no patch
is put into one file twice. -/
theorem Patch.stays_applied (patch : Patch) (target : Location) (tree : FileSystem)
    (calls : List Call) :
    (∀ earlier call later report, calls = earlier ++ call :: later → call.patch = patch →
      (Call.runAll tree earlier).fileLocation? call.directory call.path = some target →
      (call.run (Call.runAll tree earlier)).2 = .ok report →
      ∀ count, patch.IsSettled (Call.runAll tree (earlier ++ call :: later.take count)) target) ∧
    (Call.results tree calls).countP (Call.inserts patch target) ≤ 1 := by
  refine ⟨fun earlier call later report _ own leads succeeds count => ?_,
    Call.countP_inserts_le_one patch target tree calls⟩
  have carried := Call.carries_of_run succeeds
  have ending := call.patch.apply_ending (Call.runAll tree earlier) call.directory call.path
    call.options
  rw [← Call.run, succeeds] at ending
  have here : report.target = target := Option.some.inj (ending.leads_of_ok.symm.trans leads)
  rw [here, own] at carried
  rw [Call.runAll_append]
  exact Patch.isSettled_of_carries (Call.carries_runAll (later.take count) carried)

/-- A patch whose marker comes with the block of the other, and whose block has its marker. -/
def Patch.offBeforeOn : Patch :=
  { toInsertion :=
      { marker := "#elif ON".toList
        sentinel := "OFF".toList
        block := ["#elif OFF".toList, "#else".toList] }
    sound := by decide }

/-- Calls on one file with two patches: through its link, at its real place and by another name. -/
def Call.onLinked : List Call :=
  [{ patch := .elseOn, directory := [], path := "link.h".toList, options := { lock := true } },
    { patch := .offBeforeOn, directory := ["src".toList], path := "real.h".toList, options := {} },
    { patch := .elseOn, directory := [], path := "/copy.h".toList
      options := { sizeLimit := some 10 } }]

/-- After the first call the file is done, and its block is put in only then. -/
theorem Patch.stays_applied_onLinked :
    Patch.elseOn.IsSettled (Call.runAll .linked Call.onLinked) FileSystem.linkedPlace ∧
      (Call.results .linked Call.onLinked).countP
        (Call.inserts .elseOn FileSystem.linkedPlace) ≤ 1 := by
  obtain ⟨settled, once⟩ :=
    Patch.elseOn.stays_applied FileSystem.linkedPlace .linked Call.onLinked
  have succeeds := (Patch.apply_of_opened FileSystem.fileLocation?_linked
    (FileSystem.openedFor_linked {})).trans
      (Patch.applyAt_of_written FileSystem.inspect_linked rfl (by decide))
  exact ⟨settled [] _ _ _ rfl rfl FileSystem.fileLocation?_linked (congrArg Prod.snd succeeds) 2,
    once⟩

end Inlay
