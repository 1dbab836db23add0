/-
This file says where one text occurs in another.

Markers and sentinels are looked for as they are, character by character: no pattern, no case
folding. `occurs` is the test, and `occurs_iff` ties it to core's relation "is a contiguous part
of". `findLine?` is the question that insertion asks: the first line that a needle occurs in.
-/
import Inlay.Text.Lines

namespace Inlay.Text

/-- Whether the needle is a contiguous part of the text. -/
def occurs (needle : Text) : Text → Bool
  | [] => needle.isEmpty
  | character :: text => needle.isPrefixOf (character :: text) || occurs needle text

theorem occurs_iff {needle text : Text} : occurs needle text = true ↔ needle <:+: text := by
  induction text with
  | nil => rw [occurs, List.isEmpty_iff, List.infix_nil]
  | cons character text inductionHypothesis =>
    rw [occurs, Bool.or_eq_true, inductionHypothesis, List.isPrefixOf_iff_prefix,
      List.infix_cons_iff]

/-- The position of the first line that the needle occurs in, counted from zero. -/
def findLine? (needle text : Text) : Option Nat := (lines text).findIdx? (occurs needle)

end Inlay.Text
