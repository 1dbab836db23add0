/-
This file proves that the order of independent definitions does not matter to a run of `apply`.

Without the lock an application writes at most one file, the one that its path leads to, and all
that it does is decided by the kinds of entries, by the directories that take new names, and by that
file. So two applications whose paths lead to no common file neither see nor undo each other: each
tells the same in the tree that the other has left, and both orders leave one tree.

A permutation is a chain of exchanges of neighbours. A definition that is named several times may be
its own neighbour, and then there is nothing to exchange. Names of one file that are hard links
count as several files, as the first replacement parts them.
-/
import Inlay.Proofs.Prediction
import Mathlib.Data.List.Perm.Basic

namespace Inlay

namespace FileSystem

/-! ### What decides an application -/

/-- The tree with a file at a place, if one is to be put there. -/
def withFile (tree : FileSystem) : Option (Location × File) → FileSystem
  | none => tree
  | some (place, file) => tree.put place (.file file)

/-- The second tree has the kinds of entries of the first, its directories take new names where
those of the first do, and the same file is at the end of the path. -/
structure Alike (tree other : FileSystem) (directory : Location) (path : Path) : Prop where
  kinds : other.kind? = tree.kind?
  accepts : other.acceptsNames = tree.acceptsNames
  same : ∀ place, tree.fileLocation? directory path = some place →
    other.node? place = tree.node? place

theorem Alike.refl (tree : FileSystem) (directory : Location) (path : Path) :
    Alike tree tree directory path := ⟨rfl, rfl, fun _ _ => rfl⟩

/-- What refuses a new file is the directory for what it is, or the disk. -/
theorem replaceFault?_congr {tree other : FileSystem}
    (accepts : other.acceptsNames = tree.acceptsNames) (directory : Location) (size : Nat)
    (disk : Disk) :
    other.replaceFault? directory size disk = tree.replaceFault? directory size disk := by
  have stages : Stage.fault? other directory size disk = Stage.fault? tree directory size disk := by
    funext stage
    cases stage <;> simp only [Stage.fault?, Stage.obstacle?, accepts]
  rw [replaceFault?, replaceFault?, stages]

theorem withFile_comm {tree : FileSystem} {first second : Option (Location × File)}
    (apart : ∀ place file other otherFile, first = some (place, file) →
      second = some (other, otherFile) → place ≠ other)
    (taken : ∀ place file, second = some (place, file) → (tree.nodes.lookup place).isSome = true) :
    (tree.withFile first).withFile second = (tree.withFile second).withFile first := by
  cases first with
  | none => rfl
  | some one =>
  cases second with
  | none => rfl
  | some two =>
    exact put_comm tree (apart _ _ _ _ rfl rfl) _ _ (taken _ _ rfl)

end FileSystem

open FileSystem (Alike)

namespace Patch

variable {patch first second : Patch} {tree after : FileSystem} {directory : Location}
  {path firstPath secondPath : Path} {options : ApplyOptions}

/-- What an application does at a location and what it tells depend on the file there and on where
new names are taken. What it does is to put one file there, or nothing. -/
theorem applyAt_local (patch : Patch) {tree : FileSystem} {target : Location} {file : File}
    (present : tree.node? target = some (.file file)) (disk : FileSystem.Disk) :
    ∃ change result, (∀ place new, change = some (place, new) → place = target) ∧
      ∀ other : FileSystem, other.node? target = tree.node? target →
        other.acceptsNames = tree.acceptsNames →
        patch.applyAt other target disk = (other.withFile change, result) := by
  have inspects {other : FileSystem} (same : other.node? target = tree.node? target) :
      patch.inspect other target = patch.inspect tree target := inspect_congr same
  cases inspected : patch.inspect tree target with
  | error error =>
    exact ⟨none, .error error, nofun, fun other same _ =>
      applyAt_of_error ((inspects same).trans inspected)⟩
  | ok inspection =>
  obtain ⟨read, text, plan⟩ := inspection
  obtain rfl : file = read := file_of_inspect present inspected
  cases plan with
  | alreadyApplied index =>
    exact ⟨none, _, nofun, fun other same _ =>
      applyAt_of_alreadyApplied ((inspects same).trans inspected)⟩
  | insert index =>
  cases refused : tree.replaceFault? target.parent (Text.encode (patch.splice text index)).size
      disk with
  | some fault =>
    exact ⟨none, _, nofun, fun other same accepts =>
      applyAt_of_unwritten ((inspects same).trans inspected)
        ((FileSystem.replaceFault?_congr accepts ..).trans refused)⟩
  | none =>
    exact ⟨some (target, _), _, fun place _ change => by cases change; rfl,
      fun other same accepts => applyAt_of_written ((inspects same).trans inspected)
        (same.trans present) ((FileSystem.replaceFault?_congr accepts ..).trans refused)⟩

/-- Without the lock an application does and tells the same in all trees that are alike for its
path. What it does is to put one file where the path leads, or nothing. -/
theorem apply_local (patch : Patch) (tree : FileSystem) (directory : Location) (path : Path)
    (unlocked : options.lock = false) :
    ∃ change result,
      (∀ place file, change = some (place, file) →
        tree.fileLocation? directory path = some place) ∧
      ∀ other, Alike tree other directory path →
        patch.apply other directory path options = (other.withFile change, result) := by
  have leadsIn {other : FileSystem} (alike : Alike tree other directory path) :
      other.fileLocation? directory path = tree.fileLocation? directory path :=
    FileSystem.fileLocation?_congr alike.kinds directory path
  cases leads : tree.fileLocation? directory path with
  | none =>
    exact ⟨none, .error (.targetMissing path), nofun, fun other alike =>
      apply_of_lost ((leadsIn alike).trans leads)⟩
  | some target =>
  obtain ⟨file, present⟩ := FileSystem.fileLocation?_isFile leads
  obtain ⟨change, result, atTarget, applies⟩ := patch.applyAt_local present options.toDisk
  refine ⟨change, result, fun place new changed => ?_, fun other alike => ?_⟩
  · rw [atTarget place new changed]
  · rw [apply_of_opened ((leadsIn alike).trans leads) (FileSystem.openedFor_of_unlocked unlocked)]
    exact applies other (alike.same target leads) alike.accepts

/-! ### Two applications -/

section Pairs

variable (unlocked : options.lock = false)
  (apart : ∀ place, tree.fileLocation? directory firstPath = some place →
    tree.fileLocation? directory secondPath ≠ some place)

include unlocked apart

/-- To the second path a tree is as before once the first patch was applied. -/
theorem alike_apply (first : Patch) :
    Alike tree (first.apply tree directory firstPath options).1 directory secondPath := by
  have ending := first.apply_ending tree directory firstPath options
  exact ⟨ending.kind?_eq unlocked, ending.acceptsNames_eq unlocked, fun place leads =>
    ending.node?_elsewhere unlocked fun reached => apart place reached leads⟩

/-- Applications to two files leave one tree in either order. -/
theorem apply_comm :
    (second.apply (first.apply tree directory firstPath options).1 directory secondPath options).1 =
      (first.apply (second.apply tree directory secondPath options).1 directory firstPath
        options).1 := by
  have afterFirst := alike_apply unlocked apart first
  have afterSecond := alike_apply unlocked
    (fun place leads reached => apart place reached leads) second
  obtain ⟨firstChange, firstResult, firstPlace, firstApplies⟩ :=
    first.apply_local tree directory firstPath unlocked
  obtain ⟨secondChange, secondResult, secondPlace, secondApplies⟩ :=
    second.apply_local tree directory secondPath unlocked
  rw [firstApplies tree (.refl _ _ _)] at afterFirst ⊢
  rw [secondApplies tree (.refl _ _ _)] at afterSecond ⊢
  rw [secondApplies _ afterFirst, firstApplies _ afterSecond]
  refine FileSystem.withFile_comm (fun place file other otherFile here there same => ?_)
    fun place file here => ?_
  · exact apart place (firstPlace place file here) (same ▸ secondPlace other otherFile there)
  · obtain ⟨old, present⟩ := FileSystem.fileLocation?_isFile (secondPlace place file here)
    rw [FileSystem.node?, if_neg (FileSystem.ne_nil_of_file present)] at present
    rw [present]
    rfl

/-- After an application to another file the same is told. -/
theorem apply_result_eq :
    (second.apply (first.apply tree directory firstPath options).1 directory secondPath options).2 =
      (second.apply tree directory secondPath options).2 := by
  obtain ⟨change, result, _, applies⟩ := second.apply_local tree directory secondPath unlocked
  rw [applies _ (alike_apply unlocked apart first), applies tree (.refl _ _ _)]

end Pairs

end Patch

/-! ### Whole runs -/

namespace Command

section Runs

variable {directory : Location} {root : Path} {target : Option Path} {set : PatchSet}
  {names others : List Text} {member : Member} {selected reordered : List Member}
  {tree after : FileSystem}

/-- No file is the target of two different definitions. -/
def Independent (tree : FileSystem) (directory : Location) (root : Path) (target : Option Path)
    (selected : List Member) : Prop :=
  ∀ first ∈ selected, ∀ second ∈ selected, first ≠ second →
    Apart tree directory root target first second

theorem Independent.of_subset (independent : Independent tree directory root target selected)
    (subset : reordered ⊆ selected) : Independent tree directory root target reordered :=
  fun first firstChosen second secondChosen =>
    independent first (subset firstChosen) second (subset secondChosen)

theorem Independent.of_kinds (independent : Independent tree directory root target selected)
    (kinds : after.kind? = tree.kind?) : Independent after directory root target selected := by
  intro first firstChosen second secondChosen differ
  simp only [Apart, FileSystem.fileLocation?_congr kinds]
  exact independent first firstChosen second secondChosen differ

theorem Apart.symm {first second : Member} (apart : Apart tree directory root target first second) :
    Apart tree directory root target second first :=
  fun place leads reached => apart place reached leads

theorem Independent.of_apart {first second : Member}
    (apart : Apart tree directory root target first second) :
    Independent tree directory root target [first, second] := by
  simp only [Independent, List.forall_mem_cons, List.not_mem_nil, false_implies, implies_true,
    and_true]
  exact ⟨⟨fun differ => absurd rfl differ, fun _ => apart⟩, fun _ => apart.symm,
    fun differ => absurd rfl differ⟩

/-- Two neighbours may change places, on a disk that refuses nothing. -/
theorem applyEach_swap {first second : Member} {rest : List Member}
    (apart : first ≠ second → Apart tree directory root target first second) :
    (applyEach directory root false target [] (first :: second :: rest) tree).1 =
      (applyEach directory root false target [] (second :: first :: rest) tree).1 ∧
    (applyEach directory root false target [] (first :: second :: rest) tree).2.Perm
      (applyEach directory root false target [] (second :: first :: rest) tree).2 := by
  by_cases same : first = second
  · subst same
    exact ⟨rfl, .refl _⟩
  have firstApart := apart same
  simp only [applyEach, List.headD_nil, List.tail_nil]
  rw [Patch.apply_comm rfl firstApart, Patch.apply_result_eq rfl firstApart,
    Patch.apply_result_eq rfl firstApart.symm]
  exact ⟨rfl, .swap _ _ _⟩

/-- A run over independent definitions leaves one tree in every order, and tells the same. -/
theorem applyEach_perm (permuted : selected.Perm reordered)
    (independent : Independent tree directory root target selected) :
    (applyEach directory root false target [] selected tree).1 =
      (applyEach directory root false target [] reordered tree).1 ∧
    (applyEach directory root false target [] selected tree).2.Perm
      (applyEach directory root false target [] reordered tree).2 := by
  induction permuted generalizing tree with
  | nil => exact ⟨rfl, .refl _⟩
  | cons member permuted inductionHypothesis =>
    have kinds := (member.patch.apply_ending tree directory (targetPath root target member)
      { lock := false }).kind?_eq rfl
    obtain ⟨sameTree, sameEntries⟩ := inductionHypothesis
      ((independent.of_subset (List.subset_cons_self _ _)).of_kinds kinds)
    exact ⟨sameTree, sameEntries.cons _⟩
  | swap first second rest =>
    exact applyEach_swap (independent second List.mem_cons_self first
      (List.mem_cons_of_mem _ List.mem_cons_self))
  | trans front back frontHypothesis backHypothesis =>
    obtain ⟨frontTree, frontEntries⟩ := frontHypothesis independent
    obtain ⟨backTree, backEntries⟩ := backHypothesis (independent.of_subset front.symm.subset)
    exact ⟨frontTree.trans backTree, frontEntries.trans backEntries⟩

/-- Names in another order stand for the same members in another order. -/
theorem selectFor_perm (permuted : names.Perm others)
    (passes : selectFor set names none = .ok selected) :
    ∃ reordered, selectFor set others none = .ok reordered ∧ selected.Perm reordered := by
  obtain ⟨selects, _⟩ := (selectFor_determines set names none).eq_ok_iff.1 passes
  cases selects with
  | all =>
    obtain rfl := permuted.nil_eq
    exact ⟨_, passes, .refl _⟩
  | named given members =>
    have asMembers := permuted.symm
    rw [← congrFun₂ (List.eq_map_comp_perm fun member : Member => member.definition.name)]
      at asMembers
    obtain ⟨reordered, rfl, same⟩ := asMembers
    refine ⟨reordered, selectFor_named ?_ ?_, same.symm⟩
    · exact fun none => given (List.perm_nil.1 (none ▸ same.symm))
    · exact fun member chosen => members member (same.subset chosen)

theorem entriesCode_eq_zero_congr {told otherTold : List (Entry Report)}
    (permuted : told.Perm otherTold) : entriesCode told = 0 ↔ entriesCode otherTold = 0 := by
  simp only [entriesCode_eq_zero_iff, permuted.mem_iff]

end Runs

/-- Where no two different definitions share a file, `apply` without the lock leaves the same tree
for the names in every order, with the same entries in the order of the names, and exits with zero
for all orders or for none. -/
theorem apply_order_irrelevant (tree : FileSystem) (directory : Location) (root : Path)
    (set : PatchSet) (names others : List Text) (selected : List Member)
    (permuted : names.Perm others) (passes : selectFor set names none = .ok selected)
    (independent : Independent tree directory root none selected) :
    ∃ after told otherTold,
      perform tree directory root set (.apply names false none) = (after, .ok (.applied told)) ∧
      perform tree directory root set (.apply others false none) =
        (after, .ok (.applied otherTold)) ∧
      told.Perm otherTold ∧
      ((Summary.applied told).code = 0 ↔ (Summary.applied otherTold).code = 0) := by
  obtain ⟨reordered, otherPasses, same⟩ := selectFor_perm permuted passes
  obtain ⟨sameTree, sameEntries⟩ := applyEach_perm same independent
  refine ⟨_, _, _, perform_apply_of_selected tree directory root false [] passes, ?_, sameEntries,
    entriesCode_eq_zero_congr sameEntries⟩
  rw [perform_apply_of_selected tree directory root false [] otherPasses, sameTree]

open FileSystem (linked) in
/-- The two names of one file are patched in either order, one of them twice. -/
theorem apply_order_irrelevant_linked :
    ∃ after told otherTold,
      perform linked [] ['.'] .elseBranches
        (.apply ["else-on".toList, "copy-on".toList, "else-on".toList] false none) =
          (after, .ok (.applied told)) ∧
      perform linked [] ['.'] .elseBranches
        (.apply ["copy-on".toList, "else-on".toList, "else-on".toList] false none) =
          (after, .ok (.applied otherTold)) ∧
      told.Perm otherTold := by
  have passes := selectFor_elseBranches
    (List.cons_ne_nil Member.elseOn [Member.copyOn, Member.elseOn])
    (by simp [PatchSet.elseBranches])
  have independent : Independent linked [] ['.'] none
      [Member.elseOn, Member.copyOn, Member.elseOn] :=
    (Independent.of_apart apart_linked).of_subset (by simp)
  have permuted : ["else-on".toList, "copy-on".toList, "else-on".toList].Perm
      ["copy-on".toList, "else-on".toList, "else-on".toList] := .swap _ _ _
  obtain ⟨after, told, otherTold, applies, otherApplies, same, _⟩ :=
    apply_order_irrelevant linked [] ['.'] .elseBranches _ _ _ permuted passes independent
  exact ⟨after, told, otherTold, applies, otherApplies, same⟩

end Command

end Inlay
