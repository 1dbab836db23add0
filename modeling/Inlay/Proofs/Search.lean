/-
This file says what the search for markers and sentinels finds.

`positions` is the question in the words of core: at which places of a list does a line stand that
contains the needle. The search returns the least of them, and a plan is known from the positions of
the sentinel and of the marker alone. Behind lines without the needle the positions only move, which
is what tells where a needle is found once lines were put in front of it.
-/
import Inlay.Patch.Plan
import Mathlib.Order.Bounds.Defs

namespace Inlay

namespace Text

/-- The positions of the lines that contain the needle. -/
def positions (needle : Text) (lines : List Text) : Set Nat :=
  {position | ∃ line, lines[position]? = some line ∧ needle <:+: line}

theorem occurs_eq_false_iff {needle text : Text} :
    occurs needle text = false ↔ ¬ needle <:+: text := by
  rw [← occurs_iff, Bool.not_eq_true]

/-! ### The first line with a needle -/

theorem findIdx?_occurs_eq_some_iff {needle : Text} {lines : List Text} {index : Nat} :
    lines.findIdx? (occurs needle) = some index ↔ IsLeast (positions needle lines) index := by
  rw [List.findIdx?_eq_some_iff_getElem]
  constructor
  · rintro ⟨inside, found, first⟩
    refine ⟨⟨lines[index], List.getElem?_eq_getElem inside, occurs_iff.1 found⟩, ?_⟩
    rintro other ⟨line, place, contains⟩
    obtain ⟨otherInside, same⟩ := List.getElem?_eq_some_iff.1 place
    refine Nat.le_of_not_lt fun earlier => first other earlier ?_
    rw [same]
    exact occurs_iff.2 contains
  · rintro ⟨⟨line, place, contains⟩, least⟩
    obtain ⟨inside, same⟩ := List.getElem?_eq_some_iff.1 place
    refine ⟨inside, same ▸ occurs_iff.2 contains, fun other earlier found => ?_⟩
    have member : other ∈ positions needle lines :=
      ⟨_, List.getElem?_eq_getElem (Nat.lt_trans earlier inside), occurs_iff.1 found⟩
    exact Nat.not_lt_of_le (least member) earlier

theorem findIdx?_occurs_eq_none_iff {needle : Text} {lines : List Text} :
    lines.findIdx? (occurs needle) = none ↔ ∀ line ∈ lines, ¬ needle <:+: line := by
  simp only [List.findIdx?_eq_none_iff, occurs_eq_false_iff]

/-- A needle is found among lines as soon as one of them contains it. -/
theorem exists_isLeast_positions {needle line : Text} {lines : List Text} (member : line ∈ lines)
    (contains : needle <:+: line) : ∃ index, IsLeast (positions needle lines) index := by
  cases found : lines.findIdx? (occurs needle) with
  | none => exact absurd contains (findIdx?_occurs_eq_none_iff.1 found line member)
  | some index => exact ⟨index, findIdx?_occurs_eq_some_iff.1 found⟩

theorem lt_length_of_isLeast_positions {needle : Text} {lines : List Text} {index : Nat}
    (least : IsLeast (positions needle lines) index) : index < lines.length := by
  obtain ⟨⟨_, place, _⟩, _⟩ := least
  exact (List.getElem?_eq_some_iff.1 place).1

/-- What shares no character with the end of a text is only found before that end. -/
theorem isInfix_append_iff_of_disjoint {needle front behind : Text}
    (disjoint : ∀ character ∈ needle, character ∉ behind) :
    needle <:+: front ++ behind ↔ needle <:+: front := by
  have lacking {part : Text} (inNeedle : part ⊆ needle) (inBehind : part ⊆ behind) : part = [] :=
    List.eq_nil_iff_forall_not_mem.2 fun character member =>
      disjoint character (inNeedle member) (inBehind member)
  rw [List.infix_append_iff]
  refine ⟨?_, Or.inl⟩
  rintro (found | later | ⟨head, tail, rfl, ends, begins⟩)
  · exact found
  · rw [lacking (List.Subset.refl needle) later.subset]
    exact List.nil_infix
  · rw [lacking (List.subset_append_right head tail) begins.subset, List.append_nil]
    exact ends.isInfix

theorem isInfix_append_newline_iff {needle front : Text} (single : '\n' ∉ needle) :
    needle <:+: front ++ ['\n'] ↔ needle <:+: front :=
  isInfix_append_iff_of_disjoint fun character member newline =>
    single (by rwa [List.mem_singleton.1 newline] at member)

/-! ### Lines in front of others -/

/-- What is found among lines is found in those in front, or behind them if they lack it. -/
theorem isLeast_positions_append_iff {needle : Text} {front rest : List Text} {index : Nat} :
    IsLeast (positions needle (front ++ rest)) index ↔
      IsLeast (positions needle front) index ∨
        (∀ line ∈ front, ¬ needle <:+: line) ∧
          ∃ later, IsLeast (positions needle rest) later ∧ front.length + later = index := by
  simp only [← findIdx?_occurs_eq_some_iff, ← findIdx?_occurs_eq_none_iff, List.findIdx?_append]
  cases front.findIdx? (occurs needle) with
  | some position => simp only [Option.some_or, reduceCtorEq, false_and, or_false]
  | none =>
    simp only [Option.none_or, Option.map_eq_some_iff, Nat.add_comm, reduceCtorEq, false_or,
      true_and]

/-- What is found in the lines in front is found first. -/
theorem isLeast_positions_append_left {needle : Text} {front : List Text} {index : Nat}
    (least : IsLeast (positions needle front) index) (rest : List Text) :
    IsLeast (positions needle (front ++ rest)) index :=
  isLeast_positions_append_iff.2 (Or.inl least)

/-- Lines without the needle move what is found behind them. -/
theorem isLeast_positions_append_right {needle : Text} {front rest : List Text} {index : Nat}
    (unmarked : ∀ line ∈ front, ¬ needle <:+: line)
    (least : IsLeast (positions needle rest) index) :
    IsLeast (positions needle (front ++ rest)) (front.length + index) :=
  isLeast_positions_append_iff.2 (Or.inr ⟨unmarked, index, least, rfl⟩)

end Text

/-! ### Plans -/

namespace Insertion

variable {insertion : Insertion} {text : Text} {index : Nat}

/-- A text counts as done exactly from the first line with the sentinel. -/
theorem plan?_eq_alreadyApplied_iff :
    insertion.plan? text = some (.alreadyApplied index) ↔
      IsLeast (Text.positions insertion.sentinel (Text.lines text)) index := by
  rw [← Text.findIdx?_occurs_eq_some_iff, ← Text.findLine?, plan?]
  cases found : Text.findLine? insertion.sentinel text with
  | some position => rw [Option.some_inj, Plan.alreadyApplied.injEq, Option.some_inj]
  | none =>
    simp only [Option.map_eq_some_iff, reduceCtorEq, and_false, exists_false]

/-- The block goes before the first line with the marker, if no line has the sentinel. -/
theorem plan?_eq_insert_iff :
    insertion.plan? text = some (.insert index) ↔
      (∀ line ∈ Text.lines text, ¬ insertion.sentinel <:+: line) ∧
        IsLeast (Text.positions insertion.marker (Text.lines text)) index := by
  rw [← Text.findIdx?_occurs_eq_none_iff, ← Text.findIdx?_occurs_eq_some_iff, ← Text.findLine?,
    ← Text.findLine?, plan?]
  cases Text.findLine? insertion.sentinel text with
  | some position => simp only [Option.some_inj, reduceCtorEq, false_and]
  | none =>
    simp only [Option.map_eq_some_iff, Plan.insert.injEq, exists_eq_right, true_and]

theorem exists_line_of_alreadyApplied
    (planned : insertion.plan? text = some (.alreadyApplied index)) :
    ∃ line ∈ Text.lines text, insertion.sentinel <:+: line := by
  obtain ⟨⟨line, place, contains⟩, _⟩ := plan?_eq_alreadyApplied_iff.1 planned
  exact ⟨line, List.mem_of_getElem? place, contains⟩

theorem plan?_of_line
    (shown : ∃ line ∈ Text.lines text, insertion.sentinel <:+: line) :
    ∃ index, insertion.plan? text = some (.alreadyApplied index) := by
  obtain ⟨line, member, contains⟩ := shown
  obtain ⟨index, first⟩ := Text.exists_isLeast_positions member contains
  exact ⟨index, plan?_eq_alreadyApplied_iff.2 first⟩

end Insertion

end Inlay
