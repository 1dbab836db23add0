/-
This file proves that the two checks on the sentinel reject exactly what a rerun would spoil.

An insertion that passes all other checks can go into some text exactly if its marker does not
contain the sentinel: the line with the marker would look done otherwise, and the bare marker is a
text that it goes into. Wherever it goes in, it is seen to be there afterwards exactly if a line of
its block contains the sentinel. For the converse the bare marker serves again. It has no newline,
so the block before it ends in newlines alone. The marker as a finished line would not do: it may
end in a carriage return, the block would then do so too, and that may complete the sentinel.

Without the sentinel in the block the block can go in any number of times. A cycle finds a text
without the sentinel, with the marker and with no line that ends in a carriage return and a newline,
and it leaves such a text, as long as no line of the block ends in a carriage return.
-/
import Inlay.Proofs.Idempotence

namespace Inlay

open Text (lines positions terminatorOf)

namespace Text

variable {line : Text}

theorem terminatorOf_of_single (single : '\n' ∉ line) : terminatorOf line = .lf :=
  if_neg fun ends => single <|
    (List.isSuffixOf_iff_suffix.1 ends).subset (List.mem_cons_of_mem _ List.mem_cons_self)

theorem terminatorOf_append_newline (plain : ¬ ['\r'] <:+ line) :
    terminatorOf (line ++ ['\n']) = .lf := by
  refine if_neg fun ends => plain ?_
  obtain ⟨body, same⟩ := List.isSuffixOf_iff_suffix.1 ends
  rw [← List.singleton_append, ← List.append_assoc] at same
  exact ⟨body, List.append_cancel_right same⟩

end Text

namespace Insertion

variable {insertion : Insertion} {text line : Text}

/-! ### The other checks -/

/-- The conditions on an insertion, but for the two on the sentinel in the other parts. -/
structure WellFormed (insertion : Insertion) : Prop where
  marker_ne_nil : insertion.marker ≠ []
  sentinel_ne_nil : insertion.sentinel ≠ []
  marker_single : '\n' ∉ insertion.marker
  sentinel_single : '\n' ∉ insertion.sentinel
  block_ne_nil : insertion.block ≠ []
  block_single : ∀ line ∈ insertion.block, '\n' ∉ line

/-- The insertion goes into some text. -/
def IsUsable (insertion : Insertion) : Prop :=
  ∃ text index, insertion.plan? text = some (.insert index)

/-- Wherever the insertion goes in, it is seen to be there afterwards. -/
def Settles (insertion : Insertion) : Prop :=
  ∀ text index, insertion.plan? text = some (.insert index) →
    ∃ seen, insertion.plan? (insertion.splice text index) = some (.alreadyApplied seen)

/-- Each of any number of cycles inserts the block once more. -/
def Repeats (insertion : Insertion) (text : Text) : Prop :=
  ∀ count, (∃ index, insertion.plan? (insertion.cycled^[count] text) = some (.insert index)) ∧
    (lines (insertion.cycled^[count] text)).Perm
      ((List.replicate count (insertion.insertedLines .lf)).flatten ++ lines text)

theorem sound_iff :
    insertion.Sound ↔ insertion.WellFormed ∧ ¬ insertion.sentinel <:+: insertion.marker ∧
      ∃ line ∈ insertion.block, insertion.sentinel <:+: line := by
  constructor
  · intro sound
    obtain ⟨line, member, marked⟩ := sound.block_marked
    exact ⟨{ sound with }, Text.occurs_eq_false_iff.1 sound.marker_unmarked, line, member,
      Text.occurs_iff.1 marked⟩
  · rintro ⟨formed, unmarked, line, member, contains⟩
    exact { formed with
      marker_unmarked := Text.occurs_eq_false_iff.2 unmarked
      block_marked := ⟨line, member, Text.occurs_iff.2 contains⟩ }

/-! ### Texts that the block goes into -/

section BareMarker

variable (formed : insertion.WellFormed)

include formed

theorem lines_marker : lines insertion.marker = [insertion.marker] :=
  Text.lines_of_single _ formed.marker_single formed.marker_ne_nil

theorem plan?_marker (unmarked : ¬ insertion.sentinel <:+: insertion.marker) :
    insertion.plan? insertion.marker = some (.insert 0) := by
  rw [plan?_eq_insert_iff, lines_marker formed]
  refine ⟨fun line member => ?_, ⟨insertion.marker, rfl, List.infix_rfl⟩, fun _ _ => Nat.zero_le _⟩
  rw [List.mem_singleton.1 member]
  exact unmarked

theorem isUsable_iff : insertion.IsUsable ↔ ¬ insertion.sentinel <:+: insertion.marker := by
  constructor
  · rintro ⟨text, index, planned⟩ within
    obtain ⟨unmarked, ⟨line, found, contains⟩, _⟩ := plan?_eq_insert_iff.1 planned
    exact unmarked line (List.mem_of_getElem? found) (within.trans contains)
  · exact fun unmarked => ⟨insertion.marker, 0, plan?_marker formed unmarked⟩

/-- Before the bare marker the block ends in newlines alone. -/
theorem lines_splice_marker :
    lines (insertion.splice insertion.marker 0) =
      insertion.insertedLines .lf ++ [insertion.marker] := by
  have found : (lines insertion.marker)[0]? = some insertion.marker := by
    rw [lines_marker formed]
    rfl
  rw [lines_splice formed.block_single found, Text.terminatorOf_of_single formed.marker_single,
    lines_marker formed]
  rfl

end BareMarker

/-! ### A block without the sentinel -/

section Unmarked

variable (formed : insertion.WellFormed)
  (lacking : ∀ line ∈ insertion.block, ¬ insertion.sentinel <:+: line)

include formed lacking

/-- Ending in newlines alone the inserted lines lack the sentinel if the block does. -/
theorem not_isInfix_of_mem_insertedLines (member : line ∈ insertion.insertedLines .lf) :
    ¬ insertion.sentinel <:+: line := by
  obtain ⟨bare, bareMember, rfl⟩ := mem_insertedLines_iff.1 member
  intro contains
  have inBare := (Text.isInfix_append_newline_iff formed.sentinel_single).1 contains
  rcases List.mem_append.1 bareMember with inBlock | empty
  · exact lacking bare inBlock inBare
  · rw [List.mem_singleton.1 empty] at inBare
    exact formed.sentinel_ne_nil (List.infix_nil.1 inBare)

/-- A block without the sentinel goes unseen behind its insertion before the bare marker. -/
theorem plan?_splice_marker_ne_alreadyApplied
    (unmarked : ¬ insertion.sentinel <:+: insertion.marker) (seen : Nat) :
    insertion.plan? (insertion.splice insertion.marker 0) ≠ some (.alreadyApplied seen) := by
  intro done
  obtain ⟨line, member, contains⟩ := exists_line_of_alreadyApplied done
  rw [lines_splice_marker formed] at member
  rcases List.mem_append.1 member with inserted | last
  · exact not_isInfix_of_mem_insertedLines formed lacking inserted contains
  · exact unmarked (List.mem_singleton.1 last ▸ contains)

end Unmarked

/-- A sound insertion is seen wherever it goes in. -/
theorem Sound.settles (sound : insertion.Sound) : insertion.Settles := by
  obtain ⟨patch, rfl⟩ : ∃ patch : Patch, patch.toInsertion = insertion :=
    ⟨⟨insertion, defect?_eq_none_iff.2 sound⟩, rfl⟩
  intro text index planned
  obtain ⟨⟨line, found, _⟩, _⟩ := (plan?_eq_insert_iff.1 planned).2
  obtain ⟨offset, first⟩ := patch.exists_isLeast_positions_block (terminatorOf line)
  exact ⟨index + offset, patch.plan?_splice planned found first⟩

/-- An insertion that can go in is seen afterwards exactly if its block shows the sentinel. -/
theorem settles_iff (formed : insertion.WellFormed)
    (unmarked : ¬ insertion.sentinel <:+: insertion.marker) :
    insertion.Settles ↔ ∃ line ∈ insertion.block, insertion.sentinel <:+: line := by
  constructor
  · intro settles
    by_contra lacking
    obtain ⟨seen, done⟩ := settles insertion.marker 0 (plan?_marker formed unmarked)
    exact plan?_splice_marker_ne_alreadyApplied formed
      (fun line member contains => lacking ⟨line, member, contains⟩) unmarked seen done
  · exact fun marked => (sound_iff.2 ⟨formed, unmarked, marked⟩).settles

/-! ### Insertion without end -/

/-- A text that the block goes into, and that ends no line in a carriage return and a newline. -/
structure IsOpen (insertion : Insertion) (text : Text) : Prop where
  unmarked : ∀ line ∈ lines text, ¬ insertion.sentinel <:+: line
  marked : ∃ line ∈ lines text, insertion.marker <:+: line
  newlines : ∀ line ∈ lines text, terminatorOf line = .lf

theorem isOpen_marker (formed : insertion.WellFormed)
    (unmarked : ¬ insertion.sentinel <:+: insertion.marker) :
    insertion.IsOpen insertion.marker where
  unmarked line member := by
    rw [lines_marker formed] at member
    rw [List.mem_singleton.1 member]
    exact unmarked
  marked := ⟨insertion.marker, by rw [lines_marker formed]; exact List.mem_cons_self,
    List.infix_rfl⟩
  newlines line member := by
    rw [lines_marker formed] at member
    rw [List.mem_singleton.1 member]
    exact Text.terminatorOf_of_single formed.marker_single

theorem IsOpen.exists_insert (isOpen : insertion.IsOpen text) :
    ∃ index, insertion.plan? text = some (.insert index) := by
  obtain ⟨line, member, contains⟩ := isOpen.marked
  obtain ⟨index, first⟩ := Text.exists_isLeast_positions member contains
  exact ⟨index, plan?_eq_insert_iff.2 ⟨isOpen.unmarked, first⟩⟩

/-- A cycle adds the inserted lines to an open text, each with a newline alone. -/
theorem IsOpen.lines_cycled_perm (isOpen : insertion.IsOpen text)
    (single : ∀ line ∈ insertion.block, '\n' ∉ line) :
    (lines (insertion.cycled text)).Perm (insertion.insertedLines .lf ++ lines text) := by
  obtain ⟨index, planned⟩ := isOpen.exists_insert
  obtain ⟨⟨line, found, _⟩, _⟩ := (plan?_eq_insert_iff.1 planned).2
  rw [cycled_of_insert planned, lines_splice single found,
    isOpen.newlines line (List.mem_of_getElem? found)]
  have toFront : ((lines text).take index ++ insertion.insertedLines .lf).Perm
      (insertion.insertedLines .lf ++ (lines text).take index) := List.perm_append_comm
  have whole := toFront.append_right ((lines text).drop index)
  rwa [List.append_assoc (insertion.insertedLines .lf), List.take_append_drop] at whole

section Unending

variable (formed : insertion.WellFormed)
  (lacking : ∀ line ∈ insertion.block, ¬ insertion.sentinel <:+: line)
  (plain : ∀ line ∈ insertion.block, ¬ ['\r'] <:+ line)

include formed lacking plain

/-- A cycle leaves an open text open. -/
theorem IsOpen.cycled (isOpen : insertion.IsOpen text) :
    insertion.IsOpen (insertion.cycled text) := by
  have old_or_new (line : Text) (member : line ∈ lines (insertion.cycled text)) :
      line ∈ insertion.insertedLines .lf ∨ line ∈ lines text :=
    List.mem_append.1 ((isOpen.lines_cycled_perm formed.block_single).mem_iff.1 member)
  refine ⟨fun line member => ?_, ?_, fun line member => ?_⟩
  · rcases old_or_new line member with new | old
    · exact not_isInfix_of_mem_insertedLines formed lacking new
    · exact isOpen.unmarked line old
  · obtain ⟨line, old, contains⟩ := isOpen.marked
    exact ⟨line, (isOpen.lines_cycled_perm formed.block_single).mem_iff.2
      (List.mem_append_right _ old), contains⟩
  · rcases old_or_new line member with new | old
    · obtain ⟨bare, bareMember, rfl⟩ := mem_insertedLines_iff.1 new
      refine Text.terminatorOf_append_newline ?_
      rcases List.mem_append.1 bareMember with inBlock | empty
      · exact plain bare inBlock
      · rw [List.mem_singleton.1 empty]
        decide
    · exact isOpen.newlines line old

theorem IsOpen.iterate_cycled (isOpen : insertion.IsOpen text) (count : Nat) :
    insertion.IsOpen (insertion.cycled^[count] text) := by
  induction count with
  | zero => exact isOpen
  | succ count inductionHypothesis =>
    rw [Function.iterate_succ_apply']
    exact inductionHypothesis.cycled formed lacking plain

/-- Into an open text the block goes again and again. -/
theorem IsOpen.repeats (isOpen : insertion.IsOpen text) : insertion.Repeats text := by
  intro count
  refine ⟨(isOpen.iterate_cycled formed lacking plain count).exists_insert, ?_⟩
  induction count with
  | zero => exact .refl _
  | succ count inductionHypothesis =>
    have step := (isOpen.iterate_cycled formed lacking plain count).lines_cycled_perm
      formed.block_single
    rw [Function.iterate_succ_apply', List.replicate_succ, List.flatten_cons, List.append_assoc]
    exact step.trans (inductionHypothesis.append_left _)

end Unending

/-! ### The two checks -/

/-- The two checks on the sentinel are exact. An insertion that passes the others can go in exactly
if the marker does not contain the sentinel, and it is then seen afterwards exactly if a line of the
block does. If none does and none ends in a carriage return, there is a text that the block goes
into without end. So what passes all checks is what can go in and goes in once. -/
theorem sentinel_checks_exact (insertion : Insertion) (formed : insertion.WellFormed) :
    (insertion.IsUsable ↔ ¬ insertion.sentinel <:+: insertion.marker) ∧
    (¬ insertion.sentinel <:+: insertion.marker →
      (insertion.Settles ↔ ∃ line ∈ insertion.block, insertion.sentinel <:+: line) ∧
      ((∀ line ∈ insertion.block, ¬ insertion.sentinel <:+: line) →
        (∀ line ∈ insertion.block, ¬ ['\r'] <:+ line) → ∃ text, insertion.Repeats text)) ∧
    (insertion.defect? = none ↔ insertion.IsUsable ∧ insertion.Settles) := by
  refine ⟨isUsable_iff formed, fun unmarked => ⟨settles_iff formed unmarked,
    fun lacking plain => ⟨insertion.marker, (isOpen_marker formed unmarked).repeats formed lacking
      plain⟩⟩, ?_⟩
  rw [defect?_eq_none_iff, sound_iff, isUsable_iff formed]
  constructor
  · rintro ⟨_, unmarked, marked⟩
    exact ⟨unmarked, (settles_iff formed unmarked).2 marked⟩
  · rintro ⟨unmarked, settles⟩
    exact ⟨formed, unmarked, (settles_iff formed unmarked).1 settles⟩

/-- An insertion whose block shows the sentinel with the help of a carriage return alone. -/
def elseUnmarked : Insertion :=
  { marker := "#else\r".toList
    sentinel := "ON\r".toList
    block := ["#elif ON".toList, "#else\r // again".toList] }

/-- The marker as a finished line hides that the block goes in without end. -/
theorem sentinel_checks_exact_elseUnmarked :
    elseUnmarked.IsUsable ∧ ¬ elseUnmarked.Settles ∧ (∃ text, elseUnmarked.Repeats text) ∧
      elseUnmarked.defect? ≠ none ∧
      elseUnmarked.plan? (elseUnmarked.splice "#else\r\n".toList 0) =
        some (.alreadyApplied 0) := by
  obtain ⟨usable, settles, accepted⟩ := sentinel_checks_exact elseUnmarked {
    marker_ne_nil := by decide
    sentinel_ne_nil := by decide
    marker_single := by decide
    sentinel_single := by decide
    block_ne_nil := by decide
    block_single := by decide }
  have unmarked : ¬ elseUnmarked.sentinel <:+: elseUnmarked.marker := by decide +kernel
  have lacking : ∀ line ∈ elseUnmarked.block, ¬ elseUnmarked.sentinel <:+: line := by
    decide +kernel
  obtain ⟨settled, repeats⟩ := settles unmarked
  have unsettled : ¬ elseUnmarked.Settles := fun settling => by
    obtain ⟨line, member, contains⟩ := settled.1 settling
    exact lacking line member contains
  exact ⟨usable.2 unmarked, unsettled, repeats lacking (by decide),
    fun sound => unsettled (accepted.1 sound).2, by decide +kernel⟩

end Insertion

end Inlay
