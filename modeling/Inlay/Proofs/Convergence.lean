/-
This file proves that runs of `apply` with the same arguments come to rest.

A definition is spent once its file shows the sentinel, and also if its file is an empty sidecar, in
which no marker will ever stand. Once spent it stays so, and a spent definition is not put in. Hence
a definition is put in at most once over all runs. A run that changes a target file spends at least
one definition anew: the one that was put in, or the one whose target has just come to be as an
empty sidecar. So there are no more such runs than definitions.

A definition may fail in one run and be put in by a later one, when another has brought its marker.
But a run without a failure leaves all definitions at rest, and then nothing changes any more.
-/
import Inlay.Proofs.Prediction
import Inlay.Proofs.Rest
import Mathlib.Combinatorics.Enumerative.DoubleCounting

namespace Inlay

/-! ### Empty files -/

theorem Insertion.plan?_of_newFile (insertion : Insertion) {text : Text}
    (reads : FileSystem.newFile.read = .ok text) : insertion.plan? text = none := by
  obtain rfl : [] = text :=
    Option.some.inj ((Text.decode?_encode []).symm.trans (File.decode?_of_read reads))
  rfl

/-- The second tree has what the first has, and new empty files at most. -/
def FileSystem.OnlyGains (before after : FileSystem) : Prop :=
  ∀ place, after.node? place = before.node? place ∨
    before.node? place = none ∧ after.node? place = some (.file newFile)

theorem FileSystem.OnlyGains.trans {first second third : FileSystem}
    (front : first.OnlyGains second) (back : second.OnlyGains third) : first.OnlyGains third := by
  intro place
  rcases back place with same | ⟨free, made⟩
  · rw [same]
    exact front place
  · rcases front place with same | ⟨_, madeBefore⟩
    · exact Or.inr ⟨same ▸ free, made⟩
    · rw [madeBefore] at free
      cases free

/-- An application puts the block in, or nothing but an empty file is new. -/
theorem Patch.Ending.onlyGains_or_isApplied {patch : Patch} {tree after : FileSystem}
    {directory : Location} {path : Path} {options : ApplyOptions}
    {result : Except ApplyError Report}
    (ending : Ending patch tree directory path options after result) :
    tree.OnlyGains after ∨ ∃ report, result = .ok report ∧ report.outcome.isApplied = true := by
  by_cases applied : ∃ report, result = .ok report ∧ report.outcome.isApplied = true
  · exact Or.inr applied
  · refine Or.inl fun place => ?_
    cases ending.changes place with
    | untouched same untold => exact Or.inl same
    | injected leads present reads planned replaced told =>
      exact absurd (exists_report_of_injection? told) applied
    | created locked leads opens kinds free made untold => exact Or.inr ⟨free, made⟩

namespace Command

open Patch (Ending)

/-! ### Spent definitions -/

section Spent

variable {directory : Location} {root : Path} {lock : Bool} {target : Option Path}
  {member : Member} {set : PatchSet} {selected : List Member} {tree after : FileSystem}
  {entries : List (Entry Report)} {disk : FileSystem.Disk}

/-- No run will put the definition in: its file shows the sentinel, or is empty as a sidecar is. -/
def Spent (directory : Location) (root : Path) (target : Option Path) (tree : FileSystem)
    (member : Member) : Prop :=
  ∃ place, tree.fileLocation? directory (targetPath root target member) = some place ∧
    (tree.Carries place member.patch.sentinel ∨
      tree.node? place = some (.file FileSystem.newFile))

theorem Spent.ending {patch : Patch} {path : Path} {options : ApplyOptions}
    {result : Except ApplyError Report} (spent : Spent directory root target tree member)
    (ending : Ending patch tree directory path options after result) :
    Spent directory root target after member := by
  obtain ⟨place, leads, carried | empty⟩ := spent
  · exact ⟨place, FileSystem.fileLocation?_of_extends ending.extends leads,
      Or.inl (ending.carries carried)⟩
  · refine ⟨place, FileSystem.fileLocation?_of_extends ending.extends leads, Or.inr ?_⟩
    rcases ending.kept_or_spliced empty with kept | ⟨old, text, index, same, reads, planned, _⟩
    · exact kept
    · -- An empty file is not replaced, as it has no place for a block.
      cases same
      rw [patch.plan?_of_newFile reads] at planned
      cases planned

theorem spent_of_ending {report : Report}
    (ending : Ending member.patch tree directory (targetPath root target member)
      { toDisk := disk, lock } after (.ok report)) : Spent directory root target after member :=
  ⟨report.target, FileSystem.fileLocation?_of_extends ending.extends ending.leads_of_ok,
    Or.inl ending.carries_of_ok⟩

theorem Spent.not_isApplied {report : Report} (spent : Spent directory root target tree member)
    (ending : Ending member.patch tree directory (targetPath root target member)
      { toDisk := disk, lock } after (.ok report)) : report.outcome.isApplied = false := by
  obtain ⟨place, leads, carried | empty⟩ := spent
  · obtain rfl : place = report.target :=
      Option.some.inj (leads.symm.trans ending.leads_of_ok)
    exact ending.not_isApplied carried
  · cases ending with
    | alreadyApplied reaches reads planned => rfl
    | applied reaches reads planned written replaced =>
      obtain rfl := Option.some.inj (leads.symm.trans reaches.leads)
      obtain rfl := FileSystem.file_unique empty reaches.present
      rw [member.patch.plan?_of_newFile reads] at planned
      cases planned

theorem Trail.spent (trail : Trail directory root lock target selected tree after entries)
    (spent : Spent directory root target tree member) :
    Spent directory root target after member :=
  trail.keeps (fun ending spent => Spent.ending spent ending) spent

/-! ### Once over all runs -/

/-- Whether the entry tells that the definition with this name was put in. -/
def Entry.injects (name : Text) (entry : Entry Report) : Bool :=
  match entry.result with
  | .ok report => decide (entry.name = name) && report.outcome.isApplied
  | .error _ => false

theorem exists_report_of_injects {name : Text} {entry : Entry Report}
    (counted : entry.injects name = true) :
    ∃ report, entry.result = .ok report ∧ entry.name = name ∧
      report.outcome.isApplied = true := by
  unfold Entry.injects at counted
  split at counted
  · next report told =>
    simp only [Bool.and_eq_true, decide_eq_true_eq] at counted
    exact ⟨report, told, counted⟩
  · cases counted

theorem Trail.countP_injects_eq_zero
    (trail : Trail directory root lock target selected tree after entries)
    (alone : ∀ other ∈ selected, other.definition.name = member.definition.name → other = member)
    (spent : Spent directory root target tree member) :
    entries.countP (Entry.injects member.definition.name) = 0 := by
  induction trail with
  | nil => rfl
  | @cons first rest tree next after disk result entries ending later inductionHypothesis =>
    obtain ⟨firstAlone, othersAlone⟩ := List.forall_mem_cons.1 alone
    rw [List.countP_cons_of_neg fun counted => ?_]
    · exact inductionHypothesis othersAlone (spent.ending ending)
    · obtain ⟨report, told, sameName, applied⟩ := exists_report_of_injects counted
      obtain rfl := firstAlone sameName
      cases told
      rw [spent.not_isApplied ending] at applied
      cases applied

theorem Trail.countP_injects_le_one
    (trail : Trail directory root lock target selected tree after entries)
    (known : ∀ member ∈ selected, member ∈ set.members) (name : Text) :
    entries.countP (Entry.injects name) ≤ 1 := by
  induction trail with
  | nil => exact Nat.zero_le 1
  | @cons first rest tree next after disk result entries ending later inductionHypothesis =>
    obtain ⟨firstKnown, othersKnown⟩ := List.forall_mem_cons.1 known
    rw [List.countP_cons]
    split
    · next counted =>
      obtain ⟨report, told, sameName, _⟩ := exists_report_of_injects counted
      cases told
      subst sameName
      have never := later.countP_injects_eq_zero (fun other chosen =>
        List.inj_on_of_nodup_map set.distinct (othersKnown other chosen) firstKnown)
        (spent_of_ending ending)
      rw [never]
    · exact inductionHypothesis othersKnown

/-! ### Runs that change a target -/

/-- The path of some definition leads to a file in the second tree that is not what the first tree
has there. Paths that lead to files in the first tree lead to them in the second as well. -/
def ChangesTarget (directory : Location) (root : Path) (target : Option Path)
    (selected : List Member) (before after : FileSystem) : Prop :=
  ∃ member ∈ selected, ∃ place,
    after.fileLocation? directory (targetPath root target member) = some place ∧
      after.node? place ≠ before.node? place

theorem Trail.spends_or_onlyGains
    (trail : Trail directory root lock target selected tree after entries) :
    (∃ member ∈ selected, ¬ Spent directory root target tree member ∧
      Spent directory root target after member) ∨ tree.OnlyGains after := by
  induction trail with
  | nil => exact Or.inr fun place => Or.inl rfl
  | @cons member rest tree next after disk result entries ending later inductionHypothesis =>
    rcases ending.onlyGains_or_isApplied with gains | ⟨report, rfl, applied⟩
    · rcases inductionHypothesis with ⟨other, chosen, unspent, spent⟩ | laterGains
      · exact Or.inl ⟨other, List.mem_cons_of_mem _ chosen,
          fun before => unspent (before.ending ending), spent⟩
      · exact Or.inr (gains.trans laterGains)
    · refine Or.inl ⟨member, List.mem_cons_self, fun before => ?_,
        later.spent (spent_of_ending ending)⟩
      rw [before.not_isApplied ending] at applied
      cases applied

/-- A run that changes a target file spends a definition. -/
theorem Trail.spends (trail : Trail directory root lock target selected tree after entries)
    (changes : ChangesTarget directory root target selected tree after) :
    ∃ member ∈ selected, ¬ Spent directory root target tree member ∧
      Spent directory root target after member := by
  rcases trail.spends_or_onlyGains with spends | gains
  · exact spends
  · obtain ⟨member, chosen, place, leads, differs⟩ := changes
    rcases gains place with same | ⟨free, made⟩
    · exact absurd same differs
    · -- The target is a sidecar of this run. Had its path led anywhere before, it still would.
      refine ⟨member, chosen, fun ⟨old, ledBefore, _⟩ => ?_, place, leads, Or.inr made⟩
      have leadsStill : after.fileLocation? directory (targetPath root target member) = some old :=
        trail.keeps (fun ending leads => FileSystem.fileLocation?_of_extends ending.extends leads)
          ledBefore
      obtain rfl := Option.some.inj (leads.symm.trans leadsStill)
      obtain ⟨file, present⟩ := FileSystem.fileLocation?_isFile ledBefore
      rw [free] at present
      cases present

end Spent

/-! ### Runs one after the other -/

section Reruns

variable (directory : Location) (root : Path) (lock : Bool) (target : Option Path)
  (disks : Nat → List FileSystem.Disk) (selected : List Member) (tree : FileSystem)

/-- The tree after so many runs. -/
def treeAfter : Nat → FileSystem
  | 0 => tree
  | runs + 1 => (applyEach directory root lock target (disks runs) selected (treeAfter runs)).1

/-- What a run tells when so many were before it. -/
def toldAfter (runs : Nat) : List (Entry Report) :=
  (applyEach directory root lock target (disks runs) selected
    (treeAfter directory root lock target disks selected tree runs)).2

theorem run_trail (runs : Nat) :
    Trail directory root lock target selected
      (treeAfter directory root lock target disks selected tree runs)
      (treeAfter directory root lock target disks selected tree (runs + 1))
      (toldAfter directory root lock target disks selected tree runs) :=
  applyEach_trail directory root lock target (disks runs) selected _

/-- Runs one after the other are one run over the definitions so many times. -/
theorem runs_trail (runs : Nat) :
    Trail directory root lock target (List.replicate runs selected).flatten tree
      (treeAfter directory root lock target disks selected tree runs)
      ((List.range runs).flatMap (toldAfter directory root lock target disks selected tree)) := by
  induction runs with
  | zero => exact .nil
  | succ runs inductionHypothesis =>
    have further := inductionHypothesis.append
      (run_trail directory root lock target disks selected tree runs)
    rw [List.replicate_succ', List.flatten_concat, List.range_succ, List.flatMap_append,
      List.flatMap_singleton]
    exact further

variable {directory root lock target disks selected tree}

theorem spent_treeAfter {member : Member} {runs later : Nat} (order : runs ≤ later)
    (spent : Spent directory root target
      (treeAfter directory root lock target disks selected tree runs) member) :
    Spent directory root target (treeAfter directory root lock target disks selected tree later)
      member := by
  induction later, order using Nat.le_induction with
  | base => exact spent
  | succ later order inductionHypothesis =>
    exact (run_trail directory root lock target disks selected tree later).spent inductionHypothesis

theorem countP_injects_runs_le_one {set : PatchSet}
    (known : ∀ member ∈ selected, member ∈ set.members) (runs : Nat) (name : Text) :
    ((List.range runs).flatMap (toldAfter directory root lock target disks selected tree)).countP
      (Entry.injects name) ≤ 1 := by
  have allKnown : ∀ member ∈ (List.replicate runs selected).flatten, member ∈ set.members := by
    intro member chosen
    obtain ⟨copy, isCopy, inside⟩ := List.mem_flatten.1 chosen
    rw [List.eq_of_mem_replicate isCopy] at inside
    exact known member inside
  have whole := runs_trail directory root lock target disks selected tree runs
  exact whole.countP_injects_le_one allKnown name

/-- Of all runs no more change a target file than there are definitions. -/
theorem card_changing_le (changing : Finset Nat)
    (changes : ∀ run ∈ changing, ChangesTarget directory root target selected
      (treeAfter directory root lock target disks selected tree run)
      (treeAfter directory root lock target disks selected tree (run + 1))) :
    changing.card ≤ selected.toFinset.card := by
  refine Finset.card_le_card_of_forall_subsingleton
    (fun run member =>
      ¬ Spent directory root target (treeAfter directory root lock target disks selected tree run)
        member ∧
      Spent directory root target
        (treeAfter directory root lock target disks selected tree (run + 1)) member)
    (fun run isChanging => ?_) (fun member _ => ?_)
  · obtain ⟨member, chosen, spends⟩ :=
      (run_trail directory root lock target disks selected tree run).spends (changes run isChanging)
    exact ⟨member, List.mem_toFinset.2 chosen, spends⟩
  · -- A definition that one run has spent is not spent anew by a later one.
    have ordered {first second : Nat} (order : first < second)
        (spent : Spent directory root target
          (treeAfter directory root lock target disks selected tree (first + 1)) member)
        (unspent : ¬ Spent directory root target
          (treeAfter directory root lock target disks selected tree second) member) : False :=
      unspent (spent_treeAfter order spent)
    rintro first ⟨_, firstUnspent, firstSpent⟩ second ⟨_, secondUnspent, secondSpent⟩
    rcases Nat.lt_trichotomy first second with before | same | behind
    · exact (ordered before firstSpent secondUnspent).elim
    · exact same
    · exact (ordered behind secondSpent firstUnspent).elim

/-- After a run without a failure the tree stays as it is, with all definitions at rest. -/
theorem rests_treeAfter {run later : Nat}
    (succeeds : entriesCode (toldAfter directory root lock target disks selected tree run) = 0)
    (order : run + 1 ≤ later) :
    treeAfter directory root lock target disks selected tree later =
        treeAfter directory root lock target disks selected tree (run + 1) ∧
      ∀ member ∈ selected, Rests directory root lock target
        (treeAfter directory root lock target disks selected tree later) member := by
  induction later, order using Nat.le_induction with
  | base =>
    exact ⟨rfl, (run_trail directory root lock target disks selected tree run).rests
      (entriesCode_eq_zero_iff.1 succeeds)⟩
  | succ later order inductionHypothesis =>
    obtain ⟨same, allRest⟩ := inductionHypothesis
    have idle : treeAfter directory root lock target disks selected tree (later + 1) =
        treeAfter directory root lock target disks selected tree later :=
      (applyEach_of_rests _ allRest).1
    rw [idle]
    exact ⟨same, allRest⟩

end Reruns

/-- In the tree a run of `apply` finds all definitions applied and changes nothing, whatever the
disk would refuse, and `check` finds them applied as well. -/
structure Converged (directory : Location) (root : Path) (set : PatchSet) (names : List Text)
    (lock : Bool) (target : Option Path) (selected : List Member) (tree : FileSystem) : Prop where
  applies : ∀ disks, ∃ told,
    perform tree directory root set (.apply names lock target) disks =
        (tree, .ok (.applied told)) ∧
      (Summary.applied told).code = 0 ∧
      told.map Entry.name = (selected.map fun member => member.definition.name) ∧
      ∀ entry ∈ told,
        ∃ report line, entry.result = .ok report ∧ report.outcome = .alreadyApplied line
  checks : ∃ foretold,
    perform tree directory root set (.check names target) = (tree, .ok (.checked foretold)) ∧
      (Summary.checked foretold).code = 0 ∧
      foretold.map Entry.name = (selected.map fun member => member.definition.name) ∧
      ∀ entry ∈ foretold, ∃ index, entry.result = .ok (.alreadyApplied index)

theorem converged_of_rests {directory : Location} {root : Path} {set : PatchSet}
    {names : List Text} {lock : Bool} {target : Option Path} {selected : List Member}
    {tree : FileSystem} (passes : selectFor set names target = .ok selected)
    (allRest : ∀ member ∈ selected, Rests directory root lock target tree member) :
    Converged directory root set names lock target selected tree where
  applies disks := by
    obtain ⟨same, settled⟩ := applyEach_of_rests disks allRest
    refine ⟨_, ?_, entriesCode_eq_zero_iff.2 fun entry told => ?_,
      (applyEach_trail directory root lock target disks selected tree).names, settled⟩
    · rw [perform_apply_of_selected tree directory root lock disks passes, same]
    · obtain ⟨report, _, succeeds, _⟩ := settled entry told
      exact ⟨report, succeeds⟩
  checks := by
    have settled := checkEach_of_rests allRest
    refine ⟨_, perform_check_of_selected tree directory root [] passes,
      entriesCode_eq_zero_iff.2 fun entry told => ?_, checkEach_names .., settled⟩
    obtain ⟨index, succeeds⟩ := settled entry told
    exact ⟨_, succeeds⟩

/-- What holds of runs of `apply` with the same arguments, one after the other, given the tree
before each of them, the disks that it meets and what it has told. -/
structure Converges (directory : Location) (root : Path) (set : PatchSet) (names : List Text)
    (lock : Bool) (target : Option Path) (disks : Nat → List FileSystem.Disk)
    (selected : List Member) (trees : Nat → FileSystem) (told : Nat → List (Entry Report)) :
    Prop where
  runs : ∀ run, perform (trees run) directory root set (.apply names lock target) (disks run) =
    (trees (run + 1), .ok (.applied (told run)))
  /-- Over all runs no definition is put in twice. -/
  once : ∀ runs name, ((List.range runs).flatMap told).countP (Entry.injects name) ≤ 1
  /-- No more runs change a target file than there are definitions. -/
  changing : ∀ changing : Finset Nat,
    (∀ run ∈ changing,
      ChangesTarget directory root target selected (trees run) (trees (run + 1))) →
    changing.card ≤ selected.toFinset.card
  /-- After a run that exits with zero nothing is left to do. -/
  settles : ∀ run, (Summary.applied (told run)).code = 0 → ∀ later, run < later →
    trees later = trees (run + 1) ∧
      Converged directory root set names lock target selected (trees later)

/-- However often `apply` is run with the same arguments, and whatever the disk refuses in each run,
it puts each definition in at most once, and no more runs change a target file than there are
definitions. Once a run has exited with zero, every later one finds all definitions applied and
changes nothing, and `check` finds them applied. If the names or the target are refused, they are so
in every run, and none changes anything. -/
theorem reruns_converge (tree : FileSystem) (directory : Location) (root : Path) (set : PatchSet)
    (names : List Text) (lock : Bool) (target : Option Path)
    (disks : Nat → List FileSystem.Disk) :
    (∃ error, SelectionFails set names target error ∧ ∀ before refusals,
      perform before directory root set (.apply names lock target) refusals =
        (before, .error error)) ∨
    ∃ selected trees told, selectFor set names target = .ok selected ∧ trees 0 = tree ∧
      Converges directory root set names lock target disks selected trees told := by
  rcases (selectFor_determines set names target).covers with ⟨selected, selects, single⟩ |
    ⟨error, fails⟩
  · have passes := (selectFor_determines set names target).returns selected ⟨selects, single⟩
    refine Or.inr ⟨selected, treeAfter directory root lock target disks selected tree,
      toldAfter directory root lock target disks selected tree, passes, rfl, ?_⟩
    exact {
      runs := fun run => perform_apply_of_selected _ directory root lock (disks run) passes
      once := countP_injects_runs_le_one fun member chosen => selects.mem chosen
      changing := card_changing_le
      settles := fun run succeeds later order => by
        obtain ⟨same, allRest⟩ := rests_treeAfter succeeds order
        exact ⟨same, converged_of_rests passes allRest⟩ }
  · refine Or.inl ⟨error, fails, fun before refusals => ?_⟩
    rw [perform, (selectFor_determines set names target).fails error fails]

open FileSystem (linked)

/-- The first definition fails in the first run, as its marker comes with the block of the second.
The second run puts it in, and from then on both are applied. -/
theorem reruns_converge_linked :
    ∃ trees : Nat → FileSystem, ∃ told : Nat → List (Entry Report),
      (∀ run, perform (trees run) [] ['.'] .elseBranches
        (.apply ["else-off".toList, "else-on".toList] true none) =
          (trees (run + 1), .ok (.applied (told run)))) ∧
      (Summary.applied (told 0)).code = 3 ∧ (Summary.applied (told 1)).code = 0 ∧
      ∀ later, 1 < later → Converged [] ['.'] .elseBranches ["else-off".toList, "else-on".toList]
        true none [.elseOff, .elseOn] (trees later) := by
  have passes := selectFor_elseBranches (List.cons_ne_nil Member.elseOff [Member.elseOn])
    (by simp [PatchSet.elseBranches])
  rcases reruns_converge linked [] ['.'] .elseBranches ["else-off".toList, "else-on".toList] true
    none (fun _ => []) with ⟨error, fails, _⟩ | ⟨selected, trees, told, chosen, start, converges⟩
  · cases passes.symm.trans ((selectFor_determines ..).fails error fails)
  obtain rfl : [Member.elseOff, Member.elseOn] = selected :=
    Except.ok.inj (passes.symm.trans chosen)
  have performed : ∀ run, (applyEach [] ['.'] true none [] [.elseOff, .elseOn] (trees run)).1 =
        trees (run + 1) ∧
      (applyEach [] ['.'] true none [] [.elseOff, .elseOn] (trees run)).2 = told run :=
      fun run => by
    have ran := converges.runs run
    rw [perform_apply_of_selected _ _ _ _ _ chosen] at ran
    simpa only [Prod.mk.injEq, Except.ok.injEq, Summary.applied.injEq] using ran
  have second : (Summary.applied (told 1)).code = 0 := by
    rw [← (performed 1).2, ← (performed 0).1, start]
    decide +kernel
  refine ⟨trees, told, converges.runs, ?_, second,
    fun later order => (converges.settles 1 second later order).2⟩
  rw [← (performed 0).2, start]
  decide +kernel

end Command

end Inlay
