/-
This file puts a block of lines into a text.

The block goes in front of a line, followed by one empty line. Inserted lines end as that line ends,
so a text with carriage returns keeps them throughout. A position past the last line appends: the
last line is finished first and the inserted lines end in newlines alone.
-/
import Inlay.Patch.Plan

namespace Inlay.Insertion

/-- The lines that an insertion adds: the block, then an empty line, each with the terminator. -/
def insertedLines (insertion : Insertion) (terminator : Terminator) : List Text :=
  insertion.block.map (· ++ terminator.text) ++ [terminator.text]

theorem length_insertedLines (insertion : Insertion) (terminator : Terminator) :
    (insertion.insertedLines terminator).length = insertion.insertedLineCount := by
  rw [insertedLines, List.length_append, List.length_map, List.length_singleton,
    insertedLineCount]

/-- The text with the block in front of the line at the position. -/
def splice (insertion : Insertion) (text : Text) (index : Nat) : Text :=
  let lines := Text.lines text
  match lines[index]? with
  | some line =>
    (lines.take index ++ insertion.insertedLines (Text.terminatorOf line) ++
      lines.drop index).flatten
  | none => Text.finished text ++ (insertion.insertedLines .lf).flatten

/-- One run over a text: the plan, and the text after it. Only a plan to insert changes the text. -/
def cycle (insertion : Insertion) (text : Text) : Option Plan × Text :=
  match insertion.plan? text with
  | some (.insert index) => (some (.insert index), insertion.splice text index)
  | plan => (plan, text)

end Inlay.Insertion
