/-
This file characterises the cut of a text into lines.

A list of lines is a cut when every line but perhaps the last is finished, that is, ends in a
newline and holds no other. The lines of a text are a cut, and a cut is what the text that joins it
is cut into. So a text is known by its lines, and what was put together from finished lines is cut
again at the same places. Every statement about where an inserted line comes to lie rests on that.

A line that has another one after it is finished. That holds of all lines in front of a position
inside the text, which is why inserting there never joins two lines.
-/
import Inlay.Text.Occurrence

namespace Inlay.Text

/-- A line with the newline that ends it, and no other. -/
def IsFinished (line : Text) : Prop := ∃ body, '\n' ∉ body ∧ line = body ++ ['\n']

/-- Lines as a text is cut into them: all are finished, but the last may lack its newline. -/
inductive IsCut : List Text → Prop
  | nil : IsCut []
  | unfinished {line : Text} (nonempty : line ≠ []) (single : '\n' ∉ line) : IsCut [line]
  | cons {line : Text} {rest : List Text} (finished : IsFinished line) (cut : IsCut rest) :
      IsCut (line :: rest)

/-! ### Lines are a cut -/

theorem isFinished_append_newline {body : Text} (single : '\n' ∉ body) :
    IsFinished (body ++ ['\n']) :=
  ⟨body, single, rfl⟩

theorem IsFinished.cons {character : Char} {line : Text} (other : character ≠ '\n')
    (finished : IsFinished line) : IsFinished (character :: line) := by
  obtain ⟨body, single, rfl⟩ := finished
  refine ⟨character :: body, fun member => ?_, rfl⟩
  rcases List.mem_cons.1 member with same | later
  · exact other same.symm
  · exact single later

theorem IsCut.consLine {lines : List Text} (cut : IsCut lines) (character : Char) :
    IsCut (consLine character lines) := by
  by_cases newline : character = '\n'
  · subst newline
    rw [consLine_newline]
    exact .cons (isFinished_append_newline List.not_mem_nil) cut
  · rw [consLine_of_ne newline]
    cases cut with
    | nil =>
      exact .unfinished (List.cons_ne_nil _ _) fun member =>
        newline (List.mem_singleton.1 member).symm
    | unfinished nonempty single =>
      refine .unfinished (List.cons_ne_nil _ _) fun member => ?_
      rcases List.mem_cons.1 member with same | later
      · exact newline same.symm
      · exact single later
    | cons finished rest => exact .cons (finished.cons newline) rest

theorem isCut_lines (text : Text) : IsCut (lines text) := by
  induction text with
  | nil => exact .nil
  | cons character text inductionHypothesis =>
    rw [lines_cons]
    exact inductionHypothesis.consLine character

/-! ### A cut is the lines of its text -/

/-- A text is cut at the places where a cut of it was joined. -/
theorem IsCut.lines_flatten {pieces : List Text} (cut : IsCut pieces) :
    lines pieces.flatten = pieces := by
  induction cut with
  | nil => rfl
  | unfinished nonempty single =>
    rw [List.flatten_cons, List.flatten_nil, List.append_nil]
    exact lines_of_single _ single nonempty
  | cons finished cut inductionHypothesis =>
    obtain ⟨body, single, rfl⟩ := finished
    rw [List.flatten_cons, List.append_assoc, List.singleton_append, lines_append _ _ single,
      inductionHypothesis]

/-! ### Parts of a cut -/

/-- Finished lines may stand in front of any cut. -/
theorem IsCut.append {front rest : List Text} (finished : ∀ line ∈ front, IsFinished line)
    (cut : IsCut rest) : IsCut (front ++ rest) := by
  induction front with
  | nil => exact cut
  | cons line front inductionHypothesis =>
    exact .cons (finished line List.mem_cons_self)
      (inductionHypothesis fun other member => finished other (List.mem_cons_of_mem _ member))

theorem IsCut.drop {pieces : List Text} (cut : IsCut pieces) (count : Nat) :
    IsCut (pieces.drop count) := by
  induction cut generalizing count with
  | nil => rw [List.drop_nil]; exact .nil
  | unfinished nonempty single =>
    cases count with
    | zero => exact .unfinished nonempty single
    | succ count => rw [List.drop_succ_cons, List.drop_nil]; exact .nil
  | cons finished cut inductionHypothesis =>
    cases count with
    | zero => exact .cons finished cut
    | succ count => rw [List.drop_succ_cons]; exact inductionHypothesis count

theorem IsCut.finished_or_single {pieces : List Text} {line : Text} (cut : IsCut pieces)
    (member : line ∈ pieces) : IsFinished line ∨ '\n' ∉ line := by
  induction cut with
  | nil => cases member
  | unfinished nonempty single => exact Or.inr (List.mem_singleton.1 member ▸ single)
  | cons finished cut inductionHypothesis =>
    rcases List.mem_cons.1 member with rfl | later
    · exact Or.inl finished
    · exact inductionHypothesis later

/-- The lines before a position inside the cut are finished: each has a line after it. -/
theorem IsCut.isFinished_of_mem_take {pieces : List Text} (cut : IsCut pieces) {count : Nat}
    (inside : count < pieces.length) {line : Text} (member : line ∈ pieces.take count) :
    IsFinished line := by
  induction cut generalizing count with
  | nil => exact absurd inside (Nat.not_lt_zero _)
  | unfinished nonempty single =>
    obtain rfl : count = 0 := Nat.lt_one_iff.1 inside
    cases member
  | cons finished cut inductionHypothesis =>
    cases count with
    | zero => cases member
    | succ count =>
      rw [List.take_succ_cons] at member
      rcases List.mem_cons.1 member with same | later
      · rw [same]; exact finished
      · exact inductionHypothesis (Nat.lt_of_succ_lt_succ inside) later

end Inlay.Text
