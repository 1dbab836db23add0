/-
This file cuts a text into lines and says how lines end.

Insertion works on whole lines, so a line keeps the newline that ends it and joining the lines gives
the text back. A text that ends in a newline has no empty line after it. The two equations
`lines_cons` and `lines_append` (a finished line in front of anything is the first line) say all
that later proofs need about the cut.

A block of lines may itself be given as one text. Its lines are then taken without what ends them:
a newline, together with a carriage return that stands right before it. A carriage return anywhere
else, also at the very end of the text, belongs to the line.
-/
import Inlay.Text.Basic

namespace Inlay

/-- What ends an inserted line: a newline alone, or a carriage return and a newline. -/
inductive Terminator
  | lf
  | crlf
  deriving DecidableEq, Repr

/-- The characters of a terminator. -/
def Terminator.text : Terminator → Text
  | .lf => ['\n']
  | .crlf => ['\r', '\n']

namespace Text

/-! ### Lines with their terminators -/

/-- One more character in front of a text that is already cut: a newline is a line of its own, any
other character joins the first line. -/
def consLine (character : Char) (lines : List Text) : List Text :=
  if character = '\n' then ['\n'] :: lines
  else
    match lines with
    | [] => [[character]]
    | line :: rest => (character :: line) :: rest

/-- The lines of a text, each with the newline that ends it. -/
def lines (text : Text) : List Text := text.foldr consLine []

theorem lines_nil : lines [] = [] := rfl

theorem lines_cons (character : Char) (text : Text) :
    lines (character :: text) = consLine character (lines text) := rfl

theorem consLine_newline (lines : List Text) : consLine '\n' lines = ['\n'] :: lines := rfl

theorem consLine_of_ne {character : Char} (other : character ≠ '\n') (lines : List Text) :
    consLine character lines =
      match lines with
      | [] => [[character]]
      | line :: rest => (character :: line) :: rest := by
  unfold consLine
  rw [if_neg other]

theorem flatten_consLine (character : Char) (lines : List Text) :
    (consLine character lines).flatten = character :: lines.flatten := by
  unfold consLine
  split
  · next same => rw [same]; rfl
  · split <;> rfl

/-- Joining the lines gives the text back. -/
theorem flatten_lines (text : Text) : (lines text).flatten = text := by
  induction text with
  | nil => rfl
  | cons character text inductionHypothesis =>
    rw [lines_cons, flatten_consLine, inductionHypothesis]

/-- No line is empty. -/
theorem ne_nil_of_mem_lines {text line : Text} (member : line ∈ lines text) : line ≠ [] := by
  induction text generalizing line with
  | nil => cases member
  | cons character text inductionHypothesis =>
    rw [lines_cons] at member
    unfold consLine at member
    split at member
    · rcases List.mem_cons.1 member with same | later
      · rw [same]; exact List.cons_ne_nil _ _
      · exact inductionHypothesis later
    · split at member
      · rw [List.mem_singleton.1 member]; exact List.cons_ne_nil _ _
      · next first rest cut =>
        rcases List.mem_cons.1 member with same | later
        · rw [same]; exact List.cons_ne_nil _ _
        · exact inductionHypothesis (cut ▸ List.mem_cons_of_mem _ later)

/-- A finished line in front of any text is its first line. -/
theorem lines_append (body rest : Text) (single : '\n' ∉ body) :
    lines (body ++ '\n' :: rest) = (body ++ ['\n']) :: lines rest := by
  induction body with
  | nil => rfl
  | cons character body inductionHypothesis =>
    have other : character ≠ '\n' := fun same => single (same ▸ List.mem_cons_self)
    have tail : '\n' ∉ body := fun member => single (List.mem_cons_of_mem _ member)
    rw [List.cons_append, lines_cons, inductionHypothesis tail, consLine_of_ne other]
    rfl

/-- A text without a newline is one line, unless it is empty. -/
theorem lines_of_single (body : Text) (single : '\n' ∉ body) (nonempty : body ≠ []) :
    lines body = [body] := by
  induction body with
  | nil => exact absurd rfl nonempty
  | cons character body inductionHypothesis =>
    have other : character ≠ '\n' := fun same => single (same ▸ List.mem_cons_self)
    have tail : '\n' ∉ body := fun member => single (List.mem_cons_of_mem _ member)
    rw [lines_cons, consLine_of_ne other]
    cases body with
    | nil => rfl
    | cons next body => rw [inductionHypothesis tail (List.cons_ne_nil _ _)]

/-- The terminator to use beside a line: that of the line, and a newline for an unfinished one. -/
def terminatorOf (line : Text) : Terminator :=
  if ['\r', '\n'].isSuffixOf line then .crlf else .lf

/-- The text with its last line finished; an empty text has no line to finish. -/
def finished (text : Text) : Text :=
  if text = [] ∨ text.getLast? = some '\n' then text else text ++ ['\n']

/-! ### The lines of a block text -/

/-- The line without what ends it. -/
def withoutTerminator (line : Text) : Text :=
  if ['\r', '\n'].isSuffixOf line then line.dropLast.dropLast
  else if ['\n'].isSuffixOf line then line.dropLast
  else line

/-- The lines that a block text stands for, without their terminators. -/
def blockLines (text : Text) : List Text := (lines text).map withoutTerminator

end Text

end Inlay
