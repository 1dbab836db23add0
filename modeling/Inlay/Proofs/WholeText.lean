/-
This file proves that looking through the lines is looking through the text.

The search for a marker or a sentinel goes line by line and counts lines. What it asks can be asked
of the text as a whole: a needle without a newline cannot lie across the end of a line, so it occurs
in the text exactly if it occurs in a line, and the line is the one after as many newlines as stand
before the occurrence. The first occurrence lies in the first such line, since whatever comes later
has no fewer newlines before it.

Both sides are followed character by character. One more character in front of a text begins a new
line or lengthens the first one, and it either begins an occurrence or stands before the others.
-/
import Inlay.Proofs.Idempotence

namespace Inlay

namespace Text

/-- The needle stands in the text right behind these characters, and nowhere nearer to the start. -/
structure FirstAfter (needle text before : Text) : Prop where
  here : before ++ needle <+: text
  earliest : ∀ other, other ++ needle <+: text → before.length ≤ other.length

section Occurrences

variable {needle text before line : Text} {rest : List Text} {character : Char} {index : Nat}

/-! ### The first occurrence -/

theorem FirstAfter.isInfix (first : FirstAfter needle text before) : needle <:+: text := by
  obtain ⟨after, whole⟩ := first.here
  exact ⟨before, after, whole⟩

/-- What occurs in a text occurs there for a first time. -/
theorem exists_firstAfter (occurs : needle <:+: text) :
    ∃ before, FirstAfter needle text before := by
  induction text with
  | nil =>
    refine ⟨[], ?_, fun other _ => Nat.zero_le _⟩
    rw [List.infix_nil.1 occurs]
    exact List.prefix_rfl
  | cons character text inductionHypothesis =>
    by_cases atStart : needle <+: character :: text
    · exact ⟨[], atStart, fun other _ => Nat.zero_le _⟩
    · obtain ⟨before, first⟩ :=
        inductionHypothesis ((List.infix_cons_iff.1 occurs).resolve_left atStart)
      refine ⟨character :: before, List.cons_prefix_cons.2 ⟨rfl, first.here⟩,
        fun other found => ?_⟩
      cases other with
      | nil => exact absurd found atStart
      | cons head other =>
        exact Nat.succ_le_succ (first.earliest other (List.cons_prefix_cons.1 found).2)

/-- No other occurrence has fewer newlines before it than the first. -/
theorem FirstAfter.count_le (first : FirstAfter needle text before) {other : Text}
    (found : other ++ needle <+: text) : before.count '\n' ≤ other.count '\n' := by
  have inText : before <+: text := (List.prefix_append before needle).trans first.here
  have otherInText : other <+: text := (List.prefix_append other needle).trans found
  have inOther : before <+: other :=
    List.prefix_of_prefix_length_le inText otherInText (first.earliest other found)
  exact inOther.sublist.count_le '\n'

/-! ### One more character -/

/-- An occurrence behind one more character is at the start, or behind that character. -/
theorem exists_before_cons_iff :
    (∃ before, before ++ needle <+: character :: text ∧ before.count '\n' = index) ↔
      (needle <+: character :: text ∧ index = 0) ∨
        ∃ before, before ++ needle <+: text ∧
          [character].count '\n' + before.count '\n' = index := by
  constructor
  · rintro ⟨before, found, counted⟩
    cases before with
    | nil => exact Or.inl ⟨found, counted.symm⟩
    | cons head before =>
      obtain ⟨rfl, later⟩ := List.cons_prefix_cons.1 found
      refine Or.inr ⟨before, later, ?_⟩
      rw [← List.count_append, List.singleton_append, counted]
  · rintro (⟨found, rfl⟩ | ⟨before, found, counted⟩)
    · exact ⟨[], found, rfl⟩
    · refine ⟨character :: before, List.cons_prefix_cons.2 ⟨rfl, found⟩, ?_⟩
      rw [← counted, ← List.count_append, List.singleton_append]

theorem mem_positions_iff {lines : List Text} :
    index ∈ positions needle lines ↔ ∃ line, lines[index]? = some line ∧ needle <:+: line :=
  Iff.rfl

theorem mem_positions_cons_iff :
    index ∈ positions needle (line :: rest) ↔
      (needle <:+: line ∧ index = 0) ∨ ∃ earlier ∈ positions needle rest, earlier + 1 = index := by
  cases index with
  | zero =>
    simp only [mem_positions_iff, List.getElem?_cons_zero, Option.some.injEq, exists_eq_left',
      Nat.add_eq_zero_iff, Nat.one_ne_zero, and_false, exists_false, or_false, and_true]
  | succ index =>
    simp only [mem_positions_iff, List.getElem?_cons_succ, Nat.add_right_cancel_iff,
      Nat.add_one_ne_zero, and_false, false_or, exists_eq_right]

/-- What is in a cut but not across the end of its first line begins in that line. -/
theorem IsCut.prefix_of_prefix_flatten (cut : IsCut (line :: rest)) (single : '\n' ∉ needle)
    (found : needle <+: line ++ rest.flatten) : needle <+: line := by
  rcases List.prefix_or_prefix_of_prefix found (List.prefix_append line _) with within | across
  · exact within
  · cases cut with
    | unfinished nonempty single =>
      rwa [List.flatten_nil, List.append_nil] at found
    | cons finished cut =>
      obtain ⟨body, _, rfl⟩ := finished
      exact absurd (across.subset (List.mem_append_right body List.mem_cons_self)) single

/-- A newline in front of a text is a line without the needle. -/
theorem mem_positions_lines_newline_iff (nonempty : needle ≠ []) (single : '\n' ∉ needle) :
    index ∈ positions needle (lines ('\n' :: text)) ↔
      ∃ earlier ∈ positions needle (lines text), earlier + 1 = index := by
  have lacking : ¬ needle <:+: ['\n'] := fun found => by
    obtain ⟨character, inNeedle⟩ := List.exists_mem_of_ne_nil needle nonempty
    rw [List.mem_singleton.1 (found.subset inNeedle)] at inNeedle
    exact single inNeedle
  rw [lines_cons, consLine_newline, mem_positions_cons_iff]
  exact or_iff_right fun found => lacking found.1

/-- Any other character in front of a text lengthens the first line, in which the needle may then
begin. -/
theorem mem_positions_lines_other_iff (nonempty : needle ≠ []) (single : '\n' ∉ needle)
    (other : character ≠ '\n') :
    index ∈ positions needle (lines (character :: text)) ↔
      (needle <+: character :: text ∧ index = 0) ∨ index ∈ positions needle (lines text) := by
  have cut : IsCut (lines (character :: text)) := isCut_lines _
  have whole : (lines (character :: text)).flatten = character :: text := flatten_lines _
  have before : (lines text).flatten = text := flatten_lines text
  rw [lines_cons, consLine_of_ne other] at cut whole ⊢
  cases found : lines text with
  | nil =>
    rw [found] at before
    subst before
    rw [mem_positions_cons_iff, List.infix_cons_iff, List.infix_nil]
    simp [nonempty, mem_positions_iff]
  | cons line rest =>
    rw [found] at cut whole
    have begins : needle <+: character :: line ↔ needle <+: character :: text := by
      rw [← whole]
      exact ⟨fun within => within.trans (List.prefix_append _ _),
        fun found => cut.prefix_of_prefix_flatten single found⟩
    rw [mem_positions_cons_iff, mem_positions_cons_iff, List.infix_cons_iff, begins, or_and_right,
      or_assoc]

/-! ### Occurrences and lines -/

/-- A line has the needle exactly if the needle occurs behind as many newlines as there are lines
before that line. -/
theorem mem_positions_lines_iff (nonempty : needle ≠ []) (single : '\n' ∉ needle) :
    index ∈ positions needle (lines text) ↔
      ∃ before, before ++ needle <+: text ∧ before.count '\n' = index := by
  induction text generalizing index with
  | nil =>
    simp [mem_positions_iff, lines_nil, nonempty]
  | cons character text inductionHypothesis =>
    rw [exists_before_cons_iff]
    by_cases newline : character = '\n'
    · subst newline
      have never : ¬ needle <+: '\n' :: text := fun found => by
        obtain ⟨head, tail, rfl⟩ := List.exists_cons_of_ne_nil nonempty
        rw [(List.cons_prefix_cons.1 found).1] at single
        exact single List.mem_cons_self
      rw [mem_positions_lines_newline_iff nonempty single]
      simp only [inductionHypothesis, never, false_and, false_or]
      constructor
      · rintro ⟨_, ⟨before, found, rfl⟩, rfl⟩
        exact ⟨before, found, Nat.add_comm 1 _⟩
      · rintro ⟨before, found, rfl⟩
        exact ⟨_, ⟨before, found, rfl⟩, Nat.add_comm _ 1⟩
    · have uncounted : [character].count '\n' = 0 :=
        List.count_eq_zero.2 fun member => newline (List.mem_singleton.1 member).symm
      simp only [mem_positions_lines_other_iff nonempty single newline, inductionHypothesis,
        uncounted, Nat.zero_add]

/-- The first line with the needle is the one in which the needle occurs first. -/
theorem isLeast_positions_lines_iff (nonempty : needle ≠ []) (single : '\n' ∉ needle) :
    IsLeast (positions needle (lines text)) index ↔
      ∃ before, FirstAfter needle text before ∧ before.count '\n' = index := by
  constructor
  · rintro ⟨found, least⟩
    obtain ⟨other, otherHere, rfl⟩ := (mem_positions_lines_iff nonempty single).1 found
    obtain ⟨after, whole⟩ := otherHere
    have occurs : needle <:+: text := ⟨other, after, whole⟩
    obtain ⟨before, first⟩ := exists_firstAfter occurs
    refine ⟨before, first, Nat.le_antisymm (first.count_le ⟨after, whole⟩) ?_⟩
    exact least ((mem_positions_lines_iff nonempty single).2 ⟨before, first.here, rfl⟩)
  · rintro ⟨before, first, rfl⟩
    refine ⟨(mem_positions_lines_iff nonempty single).2 ⟨before, first.here, rfl⟩,
      fun position found => ?_⟩
    obtain ⟨other, otherHere, rfl⟩ := (mem_positions_lines_iff nonempty single).1 found
    exact first.count_le otherHere

/-- The needle occurs in a text exactly if some line has it. -/
theorem isInfix_iff_exists_line (nonempty : needle ≠ []) (single : '\n' ∉ needle) :
    needle <:+: text ↔ ∃ line ∈ lines text, needle <:+: line := by
  constructor
  · rintro ⟨before, after, whole⟩
    obtain ⟨line, place, contains⟩ :=
      (mem_positions_lines_iff nonempty single).2 ⟨before, ⟨after, whole⟩, rfl⟩
    exact ⟨line, List.mem_of_getElem? place, contains⟩
  · rintro ⟨line, member, contains⟩
    rw [← flatten_lines text]
    exact contains.trans (List.infix_of_mem_flatten member)

end Occurrences

end Text

open Text (FirstAfter lines)

/-! ### Plans -/

namespace Patch

variable {patch : Patch} {text : Text} {index : Nat}

theorem plan?_eq_alreadyApplied_iff_firstAfter :
    patch.plan? text = some (.alreadyApplied index) ↔
      ∃ before, FirstAfter patch.sentinel text before ∧ before.count '\n' = index := by
  rw [Insertion.plan?_eq_alreadyApplied_iff,
    Text.isLeast_positions_lines_iff patch.isSound.sentinel_ne_nil patch.isSound.sentinel_single]

theorem plan?_eq_insert_iff_firstAfter :
    patch.plan? text = some (.insert index) ↔ ¬ patch.sentinel <:+: text ∧
      ∃ before, FirstAfter patch.marker text before ∧ before.count '\n' = index := by
  have absent : (∀ line ∈ lines text, ¬ patch.sentinel <:+: line) ↔
      ¬ patch.sentinel <:+: text := by
    rw [Text.isInfix_iff_exists_line patch.isSound.sentinel_ne_nil
      patch.isSound.sentinel_single]
    simp only [not_exists, not_and]
  rw [Insertion.plan?_eq_insert_iff, absent,
    Text.isLeast_positions_lines_iff patch.isSound.marker_ne_nil patch.isSound.marker_single]

theorem exists_alreadyApplied_iff_isInfix :
    (∃ index, patch.plan? text = some (.alreadyApplied index)) ↔ patch.sentinel <:+: text := by
  simp only [plan?_eq_alreadyApplied_iff_firstAfter]
  constructor
  · rintro ⟨_, before, first, _⟩
    exact first.isInfix
  · intro occurs
    obtain ⟨before, first⟩ := Text.exists_firstAfter occurs
    exact ⟨_, before, first, rfl⟩

theorem exists_insert_iff_isInfix :
    (∃ index, patch.plan? text = some (.insert index)) ↔
      ¬ patch.sentinel <:+: text ∧ patch.marker <:+: text := by
  simp only [plan?_eq_insert_iff_firstAfter]
  constructor
  · rintro ⟨_, unmarked, before, first, _⟩
    exact ⟨unmarked, first.isInfix⟩
  · rintro ⟨unmarked, occurs⟩
    obtain ⟨before, first⟩ := Text.exists_firstAfter occurs
    exact ⟨_, unmarked, before, first, rfl⟩

theorem plan?_eq_none_iff_isInfix :
    patch.plan? text = none ↔ ¬ patch.sentinel <:+: text ∧ ¬ patch.marker <:+: text := by
  constructor
  · intro placeless
    have unmarked : ¬ patch.sentinel <:+: text := fun occurs => by
      obtain ⟨index, planned⟩ := exists_alreadyApplied_iff_isInfix.2 occurs
      rw [placeless] at planned
      cases planned
    refine ⟨unmarked, fun occurs => ?_⟩
    obtain ⟨index, planned⟩ := exists_insert_iff_isInfix.2 ⟨unmarked, occurs⟩
    rw [placeless] at planned
    cases planned
  · rintro ⟨unmarked, lacking⟩
    cases planned : patch.plan? text with
    | none => rfl
    | some plan =>
      cases plan with
      | alreadyApplied index =>
        exact absurd (exists_alreadyApplied_iff_isInfix.1 ⟨index, planned⟩) unmarked
      | insert index => exact absurd (exists_insert_iff_isInfix.1 ⟨index, planned⟩).2 lacking

theorem lt_length_of_insert (planned : patch.plan? text = some (.insert index)) :
    index < (lines text).length :=
  Text.lt_length_of_isLeast_positions (Insertion.plan?_eq_insert_iff.1 planned).2

/-- A plan is decided by what occurs in the text as a whole. The text is done exactly if the
sentinel occurs in it, and otherwise has a place for the block exactly if the marker does. The line
is told by the newlines before the first occurrence, and a block goes before a line that is there.
-/
theorem plan?_of_occurrences (patch : Patch) (text : Text) :
    ((∃ index, patch.plan? text = some (.alreadyApplied index)) ↔ patch.sentinel <:+: text) ∧
    (∀ index, patch.plan? text = some (.alreadyApplied index) ↔
      ∃ before, FirstAfter patch.sentinel text before ∧ before.count '\n' = index) ∧
    ((∃ index, patch.plan? text = some (.insert index)) ↔
      ¬ patch.sentinel <:+: text ∧ patch.marker <:+: text) ∧
    (∀ index, patch.plan? text = some (.insert index) ↔ ¬ patch.sentinel <:+: text ∧
      ∃ before, FirstAfter patch.marker text before ∧ before.count '\n' = index) ∧
    (∀ index, patch.plan? text = some (.insert index) → index < (lines text).length) ∧
    (patch.plan? text = none ↔ ¬ patch.sentinel <:+: text ∧ ¬ patch.marker <:+: text) :=
  ⟨exists_alreadyApplied_iff_isInfix, fun _ => plan?_eq_alreadyApplied_iff_firstAfter,
    exists_insert_iff_isInfix, fun _ => plan?_eq_insert_iff_firstAfter,
    fun _ => lt_length_of_insert, plan?_eq_none_iff_isInfix⟩

/-- The marker is first seen in the second line, behind one newline and two spaces. -/
theorem plan?_of_occurrences_elseTwice :
    elseOn.plan? elseTwice = some (.insert 1) ∧ 1 < (lines elseTwice).length ∧
      ¬ elseOn.sentinel <:+: elseTwice ∧
      ∃ before, FirstAfter elseOn.marker elseTwice before ∧ before.count '\n' = 1 := by
  obtain ⟨_, _, _, inserts, inside, _⟩ := plan?_of_occurrences elseOn elseTwice
  have planned : elseOn.plan? elseTwice = some (.insert 1) := by decide
  exact ⟨planned, inside 1 planned, (inserts 1).1 planned⟩

end Patch

end Inlay
