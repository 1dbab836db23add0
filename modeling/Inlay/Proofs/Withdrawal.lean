/-
This file proves that putting a patch into a text loses nothing of the text.

The patched text tells by itself where the block is. Its first line with the sentinel lies in the
block, and the block tells how many of its own lines come before that one. There is one such number
for each terminator, because a sentinel may end in a carriage return and then be completed by the
end of an earlier line, and so there are two lines on which the block may begin. A block that ends in
carriage returns is only found on its own. Ending in newlines alone a block shows its sentinel no
earlier, so it would have to begin no later than the other, and its empty line would be one of the
lines of the other. But a bare newline is none of them.

So the old text and the position are computed from the patched text alone, by trying newlines first.
Two texts that are patched to the same text are the same.
-/
import Inlay.Proofs.Recovery
import Mathlib.Order.Bounds.Basic

namespace Inlay

open Text (lines positions terminatorOf)

namespace Insertion

variable {insertion : Insertion} {terminator : Terminator} {text : Text} {index : Nat}

/-! ### Taking a block out again -/

/-- The line of a text on which the block begins, if the first sentinel is that of a block with this
terminator. -/
def blockStart? (insertion : Insertion) (terminator : Terminator) (text : Text) : Option Nat := do
  let seen ← Text.findLine? insertion.sentinel text
  let offset ←
    (insertion.block.map (· ++ terminator.text)).findIdx? (Text.occurs insertion.sentinel)
  let start := seen - offset
  if insertion.insertedLines terminator <+: (lines text).drop start then some start else none

/-- The text without the lines from the position on, as many as the insertion adds. -/
def deleted (insertion : Insertion) (text : Text) (index : Nat) : Text :=
  ((lines text).take index ++ (lines text).drop (index + insertion.insertedLineCount)).flatten

/-- The text that was there before the block, and the line that the block was put before. -/
def withdrawn? (insertion : Insertion) (text : Text) : Option (Text × Nat) :=
  (insertion.blockStart? .lf text <|> insertion.blockStart? .crlf text).map fun start =>
    (insertion.deleted text start, start)

theorem blockStart?_eq_some_iff :
    insertion.blockStart? terminator text = some index ↔
      ∃ seen offset, IsLeast (positions insertion.sentinel (lines text)) seen ∧
        IsLeast (positions insertion.sentinel (insertion.block.map (· ++ terminator.text)))
          offset ∧
        insertion.insertedLines terminator <+: (lines text).drop (seen - offset) ∧
        seen - offset = index := by
  simp only [blockStart?, Text.findLine?, bind, Option.bind_eq_some_iff,
    Text.findIdx?_occurs_eq_some_iff, Option.ite_none_right_eq_some, Option.some_inj,
    exists_and_left]

/-! ### The two terminators -/

/-- No line that is inserted with carriage returns is a bare newline. -/
theorem newline_not_mem_insertedLines : ['\n'] ∉ insertion.insertedLines .crlf := by
  intro member
  obtain ⟨bare, _, same⟩ := mem_insertedLines_iff.1 member
  have ends : ['\r', '\n'] <:+ ['\n'] := ⟨bare, same⟩
  exact absurd ends (by decide)

/-- A block with carriage returns does not meet one with newlines alone that begins no later: the
empty line of that one would be among its lines. -/
theorem not_insertedLines_prefix_of_crlf {line : Text} {start : Nat}
    (single : ∀ line ∈ insertion.block, '\n' ∉ line) (found : (lines text)[index]? = some line)
    (returns : terminatorOf line = .crlf) (notLater : start ≤ index)
    (reaches : index ≤ start + insertion.block.length) :
    ¬ insertion.insertedLines .lf <+: (lines (insertion.splice text index)).drop start := by
  rintro ⟨rest, there⟩
  have separator :
      (lines (insertion.splice text index))[start + insertion.block.length]? = some ['\n'] := by
    have size := insertion.length_insertedLines .lf
    rw [← List.getElem?_drop, ← there, List.getElem?_append_left
      (size ▸ Nat.lt_succ_self insertion.block.length), getElem?_insertedLines_length]
    rfl
  obtain ⟨offset, place⟩ := Nat.exists_eq_add_of_le reaches
  have within : offset < insertion.insertedLineCount := by
    rw [insertedLineCount]
    omega
  rw [place, getElem?_lines_splice single found within, returns] at separator
  exact newline_not_mem_insertedLines (List.mem_of_getElem? separator)

/-- With carriage returns a block shows its sentinel no later than with newlines alone. -/
theorem mem_positions_crlf_of_lf (single : '\n' ∉ insertion.sentinel)
    (shown : index ∈ positions insertion.sentinel (insertion.block.map (· ++ Terminator.lf.text))) :
    index ∈ positions insertion.sentinel (insertion.block.map (· ++ Terminator.crlf.text)) := by
  obtain ⟨line, place, contains⟩ := shown
  rw [List.getElem?_map, Option.map_eq_some_iff] at place
  obtain ⟨bare, barePlace, rfl⟩ := place
  have inBare : insertion.sentinel <:+: bare :=
    (Text.isInfix_append_newline_iff single).1 contains
  refine ⟨bare ++ Terminator.crlf.text, ?_, inBare.trans (List.prefix_append _ _).isInfix⟩
  rw [List.getElem?_map, barePlace, Option.map_some]

end Insertion

namespace Patch

variable {patch : Patch} {text line : Text} {index : Nat}

/-! ### Where the block begins -/

/-- With the terminator of the insertion the block is found where it was put. -/
theorem blockStart?_splice (planned : patch.plan? text = some (.insert index))
    (found : (lines text)[index]? = some line) :
    patch.blockStart? (terminatorOf line) (patch.splice text index) = some index := by
  obtain ⟨offset, first⟩ := patch.exists_isLeast_positions_block (terminatorOf line)
  have seen := Insertion.plan?_eq_alreadyApplied_iff.1 (patch.plan?_splice planned found first)
  have inside : index < (lines text).length := (List.getElem?_eq_some_iff.1 found).1
  refine Insertion.blockStart?_eq_some_iff.2
    ⟨index + offset, offset, seen, first, ?_, Nat.add_sub_cancel index offset⟩
  rw [Nat.add_sub_cancel, Insertion.lines_splice patch.isSound.block_single found,
    List.append_assoc, List.drop_left' (List.length_take_of_le (Nat.le_of_lt inside))]
  exact List.prefix_append _ _

/-- A block with carriage returns is not taken for one with newlines alone. -/
theorem blockStart?_splice_of_crlf (planned : patch.plan? text = some (.insert index))
    (found : (lines text)[index]? = some line) (returns : terminatorOf line = .crlf) :
    patch.blockStart? .lf (patch.splice text index) = none := by
  refine Option.eq_none_iff_forall_ne_some.2 fun start begins => ?_
  obtain ⟨seen, lateOffset, seenFirst, lateFirst, there, rfl⟩ :=
    Insertion.blockStart?_eq_some_iff.1 begins
  obtain ⟨offset, first⟩ := patch.exists_isLeast_positions_block (terminatorOf line)
  have same : seen = index + offset := seenFirst.unique
    (Insertion.plan?_eq_alreadyApplied_iff.1 (patch.plan?_splice planned found first))
  have earlier : offset ≤ lateOffset := by
    rw [returns] at first
    exact first.2 (Insertion.mem_positions_crlf_of_lf patch.isSound.sentinel_single lateFirst.1)
  have short : lateOffset < patch.block.length := by
    have inBlock := Text.lt_length_of_isLeast_positions lateFirst
    rwa [List.length_map] at inBlock
  exact Insertion.not_insertedLines_prefix_of_crlf patch.isSound.block_single found returns
    (by omega) (by omega) there

/-! ### Nothing is lost -/

/-- What was patched is given back from the patched text alone. -/
theorem withdrawn?_splice (planned : patch.plan? text = some (.insert index)) :
    patch.withdrawn? (patch.splice text index) = some (text, index) := by
  obtain ⟨⟨line, found, _⟩, _⟩ := (Insertion.plan?_eq_insert_iff.1 planned).2
  have begins := blockStart?_splice planned found
  have start : (patch.blockStart? .lf (patch.splice text index) <|>
      patch.blockStart? .crlf (patch.splice text index)) = some index := by
    cases ending : terminatorOf line with
    | lf =>
      rw [ending] at begins
      rw [begins]
      rfl
    | crlf =>
      rw [ending] at begins
      rw [blockStart?_splice_of_crlf planned found ending, begins]
      rfl
  have restored : patch.deleted (patch.splice text index) index = text :=
    Insertion.flatten_deleted_splice patch.isSound.block_single
      (List.getElem?_eq_some_iff.1 found).1
  rw [Insertion.withdrawn?, start, Option.map_some, restored]

/-- Different texts are patched to different texts, and the same text is never reached by insertions
before different lines: the old text and the line can be computed from the patched text. -/
theorem splice_injective (patch : Patch) :
    (∀ first second firstIndex secondIndex,
      patch.plan? first = some (.insert firstIndex) →
      patch.plan? second = some (.insert secondIndex) →
      patch.splice first firstIndex = patch.splice second secondIndex →
      first = second ∧ firstIndex = secondIndex) ∧
    ∀ text index, patch.plan? text = some (.insert index) →
      patch.withdrawn? (patch.splice text index) = some (text, index) := by
  refine ⟨fun first second firstIndex secondIndex firstPlanned secondPlanned same => ?_,
    fun text index planned => withdrawn?_splice planned⟩
  have restored : some (first, firstIndex) = some (second, secondIndex) := by
    rw [← withdrawn?_splice firstPlanned, ← withdrawn?_splice secondPlanned, same]
  exact Prod.mk.inj (Option.some.inj restored)

/-- The carriage return of the first block line completes the sentinel. With newlines alone the
second line would be the first to show it, and the block would begin a line too early. -/
theorem splice_injective_elseOn :
    elseOn.plan? elseTwice = some (.insert 1) ∧
      elseOn.splice elseTwice 1 =
        ("top\r\n#elif ON\r\n// ON\r before #else\r\n\r\n" ++
          "  #else // first\r\n#else").toList ∧
      elseOn.withdrawn? (elseOn.splice elseTwice 1) = some (elseTwice, 1) ∧
      ∀ text index, elseOn.plan? text = some (.insert index) →
        elseOn.splice text index = elseOn.splice elseTwice 1 → text = elseTwice ∧ index = 1 := by
  obtain ⟨injective, gives⟩ := splice_injective elseOn
  have planned : elseOn.plan? elseTwice = some (.insert 1) := by decide
  exact ⟨planned, by decide +kernel, gives elseTwice 1 planned,
    fun text index due same => injective text elseTwice index 1 due planned same⟩

end Patch

end Inlay
