/-
This file proves that a patch is put into a text at most once.

A plan to insert says that no line has the sentinel. After the insertion the lines before the block
are those of before, so the first line with the sentinel is the first such line of the block: there
is one, since a sound block shows its sentinel, and the separator and the marker line come after it.
The position is exact. A block line is looked at with its terminator, because a sentinel may end in
a carriage return and then be completed by the end of a line.

One cycle therefore leaves a text that is done, and a text that is done is left as it is.
-/
import Inlay.Proofs.Splice
import Mathlib.Logic.Function.Iterate

namespace Inlay

open Text (lines positions terminatorOf)

/-! ### The plan for a spliced text -/

/-- Some line of a sound block shows the sentinel, also with a terminator behind it. -/
theorem Patch.exists_isLeast_positions_block (patch : Patch) (terminator : Terminator) :
    ∃ offset,
      IsLeast (positions patch.sentinel (patch.block.map (· ++ terminator.text))) offset := by
  obtain ⟨line, member, marked⟩ := patch.isSound.block_marked
  have contains : patch.sentinel <:+: line ++ terminator.text :=
    (Text.occurs_iff.1 marked).trans (List.prefix_append _ _).isInfix
  exact Text.exists_isLeast_positions (List.mem_map.2 ⟨line, member, rfl⟩) contains

/-- A spliced text is done from the first line of the block that shows the sentinel. -/
theorem Patch.plan?_splice (patch : Patch) {text line : Text} {index offset : Nat}
    (planned : patch.plan? text = some (.insert index))
    (found : (lines text)[index]? = some line)
    (first : IsLeast
      (positions patch.sentinel (patch.block.map (· ++ (terminatorOf line).text))) offset) :
    patch.plan? (patch.splice text index) = some (.alreadyApplied (index + offset)) := by
  obtain ⟨unmarked, _⟩ := Insertion.plan?_eq_insert_iff.1 planned
  have inside : index < (lines text).length := (List.getElem?_eq_some_iff.1 found).1
  have before : ∀ other ∈ (lines text).take index, ¬ patch.sentinel <:+: other :=
    fun other member => unmarked other (List.mem_of_mem_take member)
  have atBlock := Text.isLeast_positions_append_left first
    ([(terminatorOf line).text] ++ (lines text).drop index)
  have behind := Text.isLeast_positions_append_right before atBlock
  rw [List.length_take, Nat.min_eq_left (Nat.le_of_lt inside)] at behind
  rw [Insertion.plan?_eq_alreadyApplied_iff,
    Insertion.lines_splice patch.isSound.block_single found, Insertion.insertedLines,
    List.append_assoc, List.append_assoc]
  exact behind

/-! ### Cycles -/

/-- The text after one cycle. -/
def Insertion.cycled (insertion : Insertion) (text : Text) : Text := (insertion.cycle text).2

theorem Insertion.cycled_of_insert {insertion : Insertion} {text : Text} {index : Nat}
    (planned : insertion.plan? text = some (.insert index)) :
    insertion.cycled text = insertion.splice text index := by
  rw [cycled, cycle, planned]

theorem Insertion.cycled_of_not_insert {insertion : Insertion} {text : Text}
    (idle : ∀ index, insertion.plan? text ≠ some (.insert index)) :
    insertion.cycled text = text := by
  rw [cycled, cycle]
  split
  · next index planned => exact absurd planned (idle index)
  · rfl

/-- After one cycle nothing is left to insert. -/
theorem Patch.plan?_cycled_ne_insert (patch : Patch) (text : Text) (index : Nat) :
    patch.plan? (patch.cycled text) ≠ some (.insert index) := by
  by_cases due : ∃ position, patch.plan? text = some (.insert position)
  · obtain ⟨position, planned⟩ := due
    obtain ⟨⟨line, found, _⟩, _⟩ := (Insertion.plan?_eq_insert_iff.1 planned).2
    obtain ⟨offset, first⟩ := patch.exists_isLeast_positions_block (terminatorOf line)
    rw [Insertion.cycled_of_insert planned, patch.plan?_splice planned found first]
    exact fun same => by cases same
  · have idle := not_exists.1 due
    rw [Insertion.cycled_of_not_insert idle]
    exact idle index

/-- A text in which nothing is due is left as it is by any number of cycles. -/
theorem Insertion.iterate_cycled_of_not_insert {insertion : Insertion} {text : Text}
    (idle : ∀ index, insertion.plan? text ≠ some (.insert index)) (count : Nat) :
    insertion.cycled^[count] text = text :=
  Function.iterate_fixed (Insertion.cycled_of_not_insert idle) count

/-- Inserting makes a text done, at the first line of the block that shows the sentinel once the
terminator of the insertion follows it. So any number of cycles does what one does, and a text that
is done or has no place for the block stays as it is. -/
theorem Patch.cycle_idempotent (patch : Patch) (text : Text) :
    (∀ index, patch.plan? text = some (.insert index) →
      ∃ line offset, (lines text)[index]? = some line ∧
        IsLeast (positions patch.sentinel (patch.block.map (· ++ (terminatorOf line).text)))
          offset ∧
        offset < patch.block.length ∧
        patch.plan? (patch.splice text index) = some (.alreadyApplied (index + offset))) ∧
    (∀ count, 1 ≤ count → patch.cycled^[count] text = patch.cycled text) ∧
    ((patch.plan? text = none ∨ ∃ index, patch.plan? text = some (.alreadyApplied index)) →
      ∀ count, patch.cycled^[count] text = text) := by
  refine ⟨fun index planned => ?_, fun count positive => ?_, fun settled count => ?_⟩
  · obtain ⟨⟨line, found, _⟩, _⟩ := (Insertion.plan?_eq_insert_iff.1 planned).2
    obtain ⟨offset, first⟩ := patch.exists_isLeast_positions_block (terminatorOf line)
    have inside := Text.lt_length_of_isLeast_positions first
    rw [List.length_map] at inside
    exact ⟨line, offset, found, first, inside, patch.plan?_splice planned found first⟩
  · obtain ⟨more, rfl⟩ := Nat.exists_eq_add_of_le' positive
    rw [Function.iterate_succ_apply]
    exact Insertion.iterate_cycled_of_not_insert (patch.plan?_cycled_ne_insert text) more
  · refine Insertion.iterate_cycled_of_not_insert (fun index planned => ?_) count
    rcases settled with lacking | ⟨position, done⟩
    · rw [lacking] at planned; cases planned
    · rw [done] at planned; cases planned

/-- A patch whose sentinel may be completed by the end of a line. -/
def Patch.elseOn : Patch :=
  { toInsertion :=
      { marker := "#else".toList
        sentinel := "ON\r".toList
        block := ["#elif ON".toList, "// ON\r before #else".toList] }
    sound := by decide }

/-- A text with two marker lines, of which the last is unfinished. -/
def elseTwice : Text := "top\r\n  #else // first\r\n#else".toList

/-- With carriage returns already the first line of the block shows the sentinel. -/
theorem Patch.cycle_idempotent_elseOn :
    Patch.elseOn.plan? elseTwice = some (.insert 1) ∧
      Patch.elseOn.plan? (Patch.elseOn.splice elseTwice 1) = some (.alreadyApplied 1) ∧
      Patch.elseOn.plan? (Patch.elseOn.cycled^[3] elseTwice) = some (.alreadyApplied 1) := by
  have due : Patch.elseOn.plan? elseTwice = some (.insert 1) := by decide
  obtain ⟨inserts, cycles, _⟩ := Patch.elseOn.cycle_idempotent elseTwice
  obtain ⟨line, offset, found, first, _, done⟩ := inserts 1 due
  have shown : line = "  #else // first\r\n".toList :=
    Option.some.inj (found.symm.trans (by decide))
  subst shown
  obtain rfl : offset = 0 :=
    Nat.le_zero.1 (first.2 ⟨"#elif ON\r\n".toList, by decide, Text.occurs_iff.1 (by decide)⟩)
  refine ⟨due, done, ?_⟩
  rw [cycles 3 (by decide), Insertion.cycled_of_insert due]
  exact done

end Inlay
