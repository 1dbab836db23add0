/-
This file says what the lines of a text are once a block was put into it.

The lines before the position are finished, because a line follows each of them, and so are the
inserted ones, because no line of a block holds a newline. The pieces that a splice joins are
therefore a cut, and the lines of the result are those pieces. No old line is lost, altered or moved
past another one.
-/
import Inlay.Patch.Splice
import Inlay.Proofs.Cut
import Inlay.Proofs.Search

namespace Inlay

theorem isFinished_append_terminator {line : Text} (single : '\n' ∉ line)
    (terminator : Terminator) : Text.IsFinished (line ++ terminator.text) := by
  cases terminator with
  | lf => exact Text.isFinished_append_newline single
  | crlf =>
    refine ⟨line ++ ['\r'], fun member => ?_, (List.append_assoc line ['\r'] ['\n']).symm⟩
    rcases List.mem_append.1 member with inLine | last
    · exact single inLine
    · exact absurd (List.mem_singleton.1 last) (by decide)

namespace Insertion

variable {insertion : Insertion} {text line : Text} {index : Nat}

/-- An inserted line is a line of the block, or the empty line behind it, with the terminator. -/
theorem mem_insertedLines_iff {terminator : Terminator} :
    line ∈ insertion.insertedLines terminator ↔
      ∃ bare ∈ insertion.block ++ [[]], bare ++ terminator.text = line := by
  have asMap : insertion.insertedLines terminator =
      (insertion.block ++ [[]]).map (· ++ terminator.text) := by
    rw [insertedLines, List.map_append]
    rfl
  rw [asMap, List.mem_map]

theorem isFinished_of_mem_insertedLines (single : ∀ line ∈ insertion.block, '\n' ∉ line)
    {terminator : Terminator} (member : line ∈ insertion.insertedLines terminator) :
    Text.IsFinished line := by
  obtain ⟨bare, bareMember, rfl⟩ := mem_insertedLines_iff.1 member
  refine isFinished_append_terminator ?_ terminator
  rcases List.mem_append.1 bareMember with inBlock | empty
  · exact single bare inBlock
  · rw [List.mem_singleton.1 empty]
    exact List.not_mem_nil

/-- Behind the block comes the terminator alone. -/
theorem getElem?_insertedLines_length {terminator : Terminator} :
    (insertion.insertedLines terminator)[insertion.block.length]? = some terminator.text := by
  rw [insertedLines, List.getElem?_append_right (Nat.le_of_eq (List.length_map _)), List.length_map,
    Nat.sub_self, List.getElem?_cons_zero]

/-- Inside a text the block goes between two of its lines. -/
theorem splice_of_found (found : (Text.lines text)[index]? = some line) :
    insertion.splice text index =
      ((Text.lines text).take index ++ insertion.insertedLines (Text.terminatorOf line) ++
        (Text.lines text).drop index).flatten := by
  rw [splice, found]

/-- The lines of a spliced text: the old ones, with the inserted ones before the position. -/
theorem lines_splice (single : ∀ line ∈ insertion.block, '\n' ∉ line)
    (found : (Text.lines text)[index]? = some line) :
    Text.lines (insertion.splice text index) =
      (Text.lines text).take index ++ insertion.insertedLines (Text.terminatorOf line) ++
        (Text.lines text).drop index := by
  have cut : Text.IsCut (Text.lines text) := Text.isCut_lines text
  have inside : index < (Text.lines text).length := (List.getElem?_eq_some_iff.1 found).1
  rw [splice_of_found found]
  refine Text.IsCut.lines_flatten (.append (fun other member => ?_) (cut.drop index))
  rcases List.mem_append.1 member with before | inserted
  · exact cut.isFinished_of_mem_take inside before
  · exact isFinished_of_mem_insertedLines single inserted

/-- The inserted lines are found from the position on. -/
theorem getElem?_lines_splice (single : ∀ line ∈ insertion.block, '\n' ∉ line)
    (found : (Text.lines text)[index]? = some line) {offset : Nat}
    (within : offset < insertion.insertedLineCount) :
    (Text.lines (insertion.splice text index))[index + offset]? =
      (insertion.insertedLines (Text.terminatorOf line))[offset]? := by
  have front : ((Text.lines text).take index).length = index :=
    List.length_take_of_le (Nat.le_of_lt (List.getElem?_eq_some_iff.1 found).1)
  rw [← length_insertedLines insertion (Text.terminatorOf line)] at within
  rw [lines_splice single found, List.append_assoc,
    List.getElem?_append_right (front.symm ▸ Nat.le_add_right index offset), front,
    Nat.add_sub_cancel_left, List.getElem?_append_left within]

/-- Every old line is a line of the spliced text, and the order is kept. -/
theorem lines_sublist_lines_splice (single : ∀ line ∈ insertion.block, '\n' ∉ line)
    (found : (Text.lines text)[index]? = some line) :
    (Text.lines text).Sublist (Text.lines (insertion.splice text index)) := by
  rw [lines_splice single found]
  have kept := (List.sublist_append_left ((Text.lines text).take index)
    (insertion.insertedLines (Text.terminatorOf line))).append
      (List.Sublist.refl ((Text.lines text).drop index))
  rwa [List.take_append_drop] at kept

end Insertion

/-- Splicing where a plan says loses no line. -/
theorem Patch.mem_lines_splice {patch : Patch} {text line : Text} {index : Nat}
    (planned : patch.plan? text = some (.insert index)) (member : line ∈ Text.lines text) :
    line ∈ Text.lines (patch.splice text index) := by
  obtain ⟨⟨marked, found, _⟩, _⟩ := (Insertion.plan?_eq_insert_iff.1 planned).2
  exact (Insertion.lines_sublist_lines_splice patch.isSound.block_single found).mem member

end Inlay
