/-
This file says what an insertion does at every position, and how it is taken out again.

Inside a text the inserted lines come between two old ones and end as the line behind them does.
Past the last line they come after all old ones and end in newlines alone, and the last old line is
finished if it was not. Either way the lines of the result are known one by one, because no inserted
line joins an old one and none is cut in two. So whoever knows the position takes the insertion out
by deleting as many lines as were put in, and has the old text back to the last character.
-/
import Inlay.Proofs.Idempotence
import Mathlib.Data.List.Basic
import Mathlib.Data.List.ModifyLast

namespace Inlay

namespace Text

variable {text line front last : Text} {pieces : List Text}

/-! ### Ends of lines -/

/-- What a line ends with that is put in front of this one. -/
def endingBefore (line : Text) : Text :=
  if ['\r', '\n'] <:+ line then ['\r', '\n'] else ['\n']

/-- The line with a newline at its end, be it there already or not. -/
def withNewline (line : Text) : Text := if ['\n'] <:+ line then line else line ++ ['\n']

theorem text_terminatorOf (line : Text) : (terminatorOf line).text = endingBefore line := by
  unfold terminatorOf endingBefore
  simp only [List.isSuffixOf_iff_suffix]
  split <;> rfl

theorem withNewline_of_single (single : '\n' ∉ line) : withNewline line = line ++ ['\n'] :=
  if_neg fun ends => single (ends.subset List.mem_cons_self)

/-! ### Finishing the last line -/

theorem IsCut.isFinished_withNewline (cut : IsCut [line]) : IsFinished (withNewline line) := by
  cases cut with
  | unfinished nonempty single =>
    rw [withNewline_of_single single]
    exact isFinished_append_newline single
  | cons finished none =>
    obtain ⟨body, single, rfl⟩ := finished
    rw [withNewline, if_pos (List.suffix_append body ['\n'])]
    exact isFinished_append_newline single

/-- All lines of a cut are finished once the last one is. -/
theorem IsCut.isFinished_of_mem_modifyLast (cut : IsCut pieces)
    (member : line ∈ pieces.modifyLast withNewline) : IsFinished line := by
  rcases List.eq_nil_or_concat' pieces with rfl | ⟨front, last, rfl⟩
  · cases member
  rw [List.modifyLast_concat] at member
  rcases List.mem_append.1 member with before | atEnd
  · have inside : front.length < (front ++ [last]).length := by
      rw [List.length_append]
      exact Nat.lt_succ_self _
    exact cut.isFinished_of_mem_take inside (by rwa [List.take_left])
  · rw [List.mem_singleton.1 atEnd]
    have alone : IsCut ((front ++ [last]).drop front.length) := cut.drop _
    rw [List.drop_left] at alone
    exact alone.isFinished_withNewline

theorem finished_append (nonempty : last ≠ []) :
    finished (front ++ last) = front ++ withNewline last := by
  have ends : (front ++ last).getLast? = some '\n' ↔ ['\n'] <:+ last := by
    rw [List.getLast?_append_of_ne_nil front nonempty, List.getLast?_eq_some_iff]
    exact ⟨fun ⟨body, same⟩ => ⟨body, same.symm⟩, fun ⟨body, same⟩ => ⟨body, same.symm⟩⟩
  have full : front ++ last ≠ [] := List.append_ne_nil_of_right_ne_nil front nonempty
  rw [finished, withNewline]
  simp only [full, false_or, ends]
  split
  · rfl
  · rw [List.append_assoc]

theorem flatten_modifyLast_withNewline (full : ∀ line ∈ pieces, line ≠ []) :
    (pieces.modifyLast withNewline).flatten = finished pieces.flatten := by
  rcases List.eq_nil_or_concat' pieces with rfl | ⟨front, last, rfl⟩
  · rfl
  · have nonempty : last ≠ [] := full last (List.mem_append_right front List.mem_cons_self)
    rw [List.modifyLast_concat, List.flatten_append, List.flatten_append, List.flatten_singleton,
      List.flatten_singleton, finished_append nonempty]

/-- Finishing a text finishes its last line and leaves the others as they are. -/
theorem lines_finished (text : Text) :
    lines (finished text) = (lines text).modifyLast withNewline := by
  have cut : IsCut ((lines text).modifyLast withNewline ++ []) :=
    .append (fun line member => (isCut_lines text).isFinished_of_mem_modifyLast member) .nil
  rw [List.append_nil] at cut
  rw [← cut.lines_flatten, flatten_modifyLast_withNewline fun line => ne_nil_of_mem_lines,
    flatten_lines]

end Text

open Text (lines endingBefore withNewline)

namespace Insertion

variable {insertion : Insertion} {text line : Text} {index : Nat}

/-! ### Inside the text and past its end -/

theorem insertedLines_terminatorOf (insertion : Insertion) (line : Text) :
    insertion.insertedLines (Text.terminatorOf line) =
      insertion.block.map (· ++ endingBefore line) ++ [endingBefore line] := by
  rw [insertedLines, Text.text_terminatorOf]

/-- Past its end a text is finished and the inserted lines follow, ending in newlines alone. -/
theorem lines_splice_of_outside (single : ∀ line ∈ insertion.block, '\n' ∉ line)
    (outside : (lines text).length ≤ index) :
    lines (insertion.splice text index) =
      (lines text).modifyLast withNewline ++ insertion.insertedLines .lf := by
  have cut : Text.IsCut ((lines text).modifyLast withNewline ++
      (insertion.insertedLines .lf ++ [])) :=
    .append (fun line member => (Text.isCut_lines text).isFinished_of_mem_modifyLast member)
      (.append (fun line member => isFinished_of_mem_insertedLines single member) .nil)
  rw [List.append_nil] at cut
  rw [splice, List.getElem?_eq_none outside]
  simp only
  rw [← cut.lines_flatten, List.flatten_append, ← Text.lines_finished, Text.flatten_lines]

/-- Deleting as many lines as were put in gives the old text back. -/
theorem flatten_deleted_splice (single : ∀ line ∈ insertion.block, '\n' ∉ line)
    (inside : index < (lines text).length) :
    ((lines (insertion.splice text index)).take index ++
      (lines (insertion.splice text index)).drop (index + insertion.insertedLineCount)).flatten =
        text := by
  have found : (lines text)[index]? = some (lines text)[index] := List.getElem?_eq_getElem inside
  have front : ((lines text).take index).length = index :=
    List.length_take_of_le (Nat.le_of_lt inside)
  rw [lines_splice single found, ← length_insertedLines insertion (Text.terminatorOf _),
    List.append_assoc, List.take_left' front, ← List.append_assoc, List.drop_left',
    List.take_append_drop, Text.flatten_lines]
  rw [List.length_append, front]

end Insertion

/-- What an insertion does at each position. Inside a text the block and an empty line come before
the line at the position and end as that line does, and deleting as many lines gives the old text
back. From the end of the text on they come after its last line, which is finished if it was not,
and end in newlines alone. -/
theorem Patch.lines_splice_everywhere (patch : Patch) (text : Text) (index : Nat) :
    (∀ line, (lines text)[index]? = some line →
      lines (patch.splice text index) =
        (lines text).take index ++
          (patch.block.map (· ++ endingBefore line) ++ [endingBefore line]) ++
            (lines text).drop index) ∧
    (index < (lines text).length →
      ((lines (patch.splice text index)).take index ++
        (lines (patch.splice text index)).drop (index + patch.insertedLineCount)).flatten =
          text) ∧
    ((lines text).length ≤ index →
      lines (patch.splice text index) =
        (lines text).modifyLast withNewline ++
          (patch.block.map (· ++ ['\n']) ++ [['\n']])) := by
  have single := patch.isSound.block_single
  refine ⟨fun line found => ?_, fun inside => ?_, fun outside => ?_⟩
  · rw [Insertion.lines_splice single found, Insertion.insertedLines_terminatorOf]
  · exact Insertion.flatten_deleted_splice single inside
  · exact Insertion.lines_splice_of_outside single outside

/-- Before an unfinished last line the block ends in newlines alone, though the others end in
carriage returns too, and it can be deleted again. Past the end the last line is finished. -/
theorem Patch.lines_splice_everywhere_elseTwice :
    lines (Patch.elseOn.splice elseTwice 2) =
        ["top\r\n".toList, "  #else // first\r\n".toList, "#elif ON\n".toList,
          "// ON\r before #else\n".toList, "\n".toList, "#else".toList] ∧
      ((lines (Patch.elseOn.splice elseTwice 2)).take 2 ++
        (lines (Patch.elseOn.splice elseTwice 2)).drop 5).flatten = elseTwice ∧
      lines (Patch.elseOn.splice elseTwice 3) =
        ["top\r\n".toList, "  #else // first\r\n".toList, "#else\n".toList,
          "#elif ON\n".toList, "// ON\r before #else\n".toList, "\n".toList] := by
  obtain ⟨inserts, deletes, _⟩ := Patch.elseOn.lines_splice_everywhere elseTwice 2
  obtain ⟨_, _, appends⟩ := Patch.elseOn.lines_splice_everywhere elseTwice 3
  exact ⟨(inserts "#else".toList (by decide)).trans (by decide +kernel), deletes (by decide),
    (appends (by decide)).trans (by decide +kernel)⟩

end Inlay
