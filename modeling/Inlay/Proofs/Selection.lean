/-
This file says what names select from a set.

A name stands for the one member that bears it, and names stand for their members in order, however
often one of them comes. The first name that no member bears is the failure. A target is given for
exactly one definition: for any other number it is refused, but only once all names are known.
-/
import Inlay.Command.Run
import Inlay.Proofs.Collection

namespace Inlay

namespace PatchSet

variable {set : PatchSet} {name : Text} {member : Member}

theorem get?_eq_some_iff :
    set.get? name = some member ↔ member ∈ set.members ∧ member.definition.name = name := by
  have named {found : Member} (here : set.get? name = some found) :
      found ∈ set.members ∧ found.definition.name = name :=
    ⟨List.mem_of_find?_eq_some here, by simpa using List.find?_some here⟩
  refine ⟨named, fun ⟨present, same⟩ => ?_⟩
  cases found : set.get? name with
  | none => exact absurd (decide_eq_true same) (List.find?_eq_none.1 found member present)
  | some other =>
    obtain ⟨otherPresent, otherSame⟩ := named found
    rw [List.inj_on_of_nodup_map set.distinct otherPresent present (otherSame.trans same.symm)]

theorem get?_eq_none_iff : set.get? name = none ↔ name ∉ set.names := by
  rw [get?, List.find?_eq_none, names, List.mem_map]
  simp only [decide_eq_true_eq, not_exists, not_and]

end PatchSet

namespace Command

variable {set : PatchSet} {names : List Text} {name : Text} {selected : List Member}
  {member : Member}

/-- The members that names stand for, in order; without names all members. -/
inductive Selects (set : PatchSet) : List Text → List Member → Prop
  | all : Selects set [] set.members
  | named {selected : List Member} (given : selected ≠ [])
      (members : ∀ member ∈ selected, member ∈ set.members) :
      Selects set (selected.map fun member => member.definition.name) selected

/-- The name is the first among the names that no member bears. -/
def FirstUnknown (set : PatchSet) (names : List Text) (name : Text) : Prop :=
  ∃ known later, names = known ++ name :: later ∧ (∀ other ∈ known, other ∈ set.names) ∧
    name ∉ set.names

/-- Why names and a target select nothing. -/
inductive SelectionFails (set : PatchSet) (names : List Text) (target : Option Path) :
    RunError → Prop
  | unknownPatch {name : Text} (unknown : FirstUnknown set names name) :
      SelectionFails set names target (.unknownPatch name)
  | targetForMany {selected : List Member} (selects : Selects set names selected)
      (given : target.isSome = true) (many : selected.length ≠ 1) :
      SelectionFails set names target (.targetForMany selected.length)

theorem Selects.mem (selects : Selects set names selected) (chosen : member ∈ selected) :
    member ∈ set.members := by
  cases selects with
  | all => exact chosen
  | named given members => exact members member chosen

/-! ### Names -/

theorem findNamed_of_mem (present : member ∈ set.members) :
    findNamed set member.definition.name = .ok member := by
  rw [findNamed, PatchSet.get?_eq_some_iff.2 ⟨present, rfl⟩]

theorem findNamed_of_not_mem (unknown : name ∉ set.names) :
    findNamed set name = .error (.unknownPatch name) := by
  rw [findNamed, PatchSet.get?_eq_none_iff.2 unknown]

theorem mapM_findNamed_of_mem (members : ∀ member ∈ selected, member ∈ set.members) :
    (selected.map fun member => member.definition.name).mapM (findNamed set) = .ok selected := by
  induction selected with
  | nil => rfl
  | cons member rest inductionHypothesis =>
    obtain ⟨first, others⟩ := List.forall_mem_cons.1 members
    rw [List.map_cons, List.mapM_cons, findNamed_of_mem first, inductionHypothesis others]
    rfl

theorem mapM_findNamed_of_firstUnknown (unknown : FirstUnknown set names name) :
    names.mapM (findNamed set) = .error (.unknownPatch name) := by
  obtain ⟨known, later, rfl, allKnown, lacking⟩ := unknown
  induction known with
  | nil =>
    rw [List.nil_append, List.mapM_cons, findNamed_of_not_mem lacking]
    rfl
  | cons first known inductionHypothesis =>
    obtain ⟨firstKnown, othersKnown⟩ := List.forall_mem_cons.1 allKnown
    obtain ⟨member, present, rfl⟩ := List.mem_map.1 firstKnown
    rw [List.cons_append, List.mapM_cons, findNamed_of_mem present,
      inductionHypothesis othersKnown]
    rfl

theorem all_known_or_firstUnknown (set : PatchSet) (names : List Text) :
    (∃ selected : List Member, (∀ member ∈ selected, member ∈ set.members) ∧
      names = selected.map fun member => member.definition.name) ∨
    ∃ name, FirstUnknown set names name := by
  induction names with
  | nil => exact Or.inl ⟨[], fun _ chosen => absurd chosen List.not_mem_nil, rfl⟩
  | cons name rest inductionHypothesis =>
    by_cases known : name ∈ set.names
    · rcases inductionHypothesis with ⟨selected, members, rfl⟩ |
        ⟨unknown, before, later, rfl, allKnown, lacking⟩
      · obtain ⟨member, present, rfl⟩ := List.mem_map.1 known
        exact Or.inl ⟨member :: selected, List.forall_mem_cons.2 ⟨present, members⟩, rfl⟩
      · exact Or.inr ⟨unknown, name :: before, later, rfl,
          List.forall_mem_cons.2 ⟨known, allKnown⟩, lacking⟩
    · exact Or.inr ⟨name, [], rest, rfl, fun _ earlier => absurd earlier List.not_mem_nil, known⟩

/-! ### Selections -/

theorem select_of_selects (selects : Selects set names selected) :
    select set names = .ok selected := by
  cases selects with
  | all => rfl
  | named given members =>
    rw [select, if_neg (List.map_eq_nil_iff.not.2 given), mapM_findNamed_of_mem members]

theorem select_of_firstUnknown (unknown : FirstUnknown set names name) :
    select set names = .error (.unknownPatch name) := by
  have given : names ≠ [] := by
    obtain ⟨known, later, rfl, _⟩ := unknown
    exact List.append_ne_nil_of_right_ne_nil known (List.cons_ne_nil name later)
  rw [select, if_neg given, mapM_findNamed_of_firstUnknown unknown]

theorem selects_or_firstUnknown (set : PatchSet) (names : List Text) :
    (∃ selected, Selects set names selected) ∨ ∃ name, FirstUnknown set names name := by
  rcases all_known_or_firstUnknown set names with ⟨selected, members, rfl⟩ | unknown
  · by_cases given : selected = []
    · exact Or.inl ⟨set.members, given ▸ .all⟩
    · exact Or.inl ⟨selected, .named given members⟩
  · exact Or.inr unknown

theorem selectFor_determines (set : PatchSet) (names : List Text) (target : Option Path) :
    Determines (selectFor set names target)
      (fun selected => Selects set names selected ∧ (target.isSome = true → selected.length = 1))
      (SelectionFails set names target) where
  returns selected passes := by
    obtain ⟨selects, single⟩ := passes
    rw [selectFor, select_of_selects selects]
    exact if_neg fun refused => refused.2 (single refused.1)
  fails error fails := by
    cases fails with
    | unknownPatch unknown => rw [selectFor, select_of_firstUnknown unknown]
    | targetForMany selects given many =>
      rw [selectFor, select_of_selects selects]
      exact if_pos ⟨given, many⟩
  covers := by
    rcases selects_or_firstUnknown set names with ⟨selected, selects⟩ | ⟨name, unknown⟩
    · by_cases refused : target.isSome = true ∧ selected.length ≠ 1
      · exact Or.inr ⟨_, .targetForMany selects refused.1 refused.2⟩
      · exact Or.inl ⟨selected, selects, fun given => not_not.1 fun many => refused ⟨given, many⟩⟩
    · exact Or.inr ⟨_, .unknownPatch unknown⟩

/-- The names of some members select these members. -/
theorem selectFor_named (given : selected ≠ [])
    (members : ∀ member ∈ selected, member ∈ set.members) :
    selectFor set (selected.map fun member => member.definition.name) none = .ok selected :=
  (selectFor_determines _ _ _).returns _ ⟨.named given members, fun given => by cases given⟩

end Command

end Inlay
