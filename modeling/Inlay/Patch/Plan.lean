/-
This file decides what applying an insertion to a text would do.

The sentinel is looked for first and in the whole text, so a patched text is known as such even
when its marker has since gone. Only without it does the first line with the marker count.
-/
import Inlay.Patch.Basic

namespace Inlay

/-- Where an insertion stands against a text, by line positions counted from zero. -/
inductive Plan
  /-- The block goes in before this line, the first with the marker. -/
  | insert (index : Nat)
  /-- The sentinel is first seen on this line. -/
  | alreadyApplied (index : Nat)
  deriving DecidableEq, Repr

/-- The plan for an insertion and a text; none when the text has neither sentinel nor marker. -/
def Insertion.plan? (insertion : Insertion) (text : Text) : Option Plan :=
  match Text.findLine? insertion.sentinel text with
  | some index => some (.alreadyApplied index)
  | none => (Text.findLine? insertion.marker text).map .insert

namespace Plan

/-- The position that a plan names. -/
def index : Plan → Nat
  | .insert index => index
  | .alreadyApplied index => index

/-- How a plan is told, with lines counted from one. -/
def describe : Plan → String
  | .insert index => "pending (insert before line " ++ toString (index + 1) ++ ")"
  | .alreadyApplied index => "applied (sentinel at line " ++ toString (index + 1) ++ ")"

end Plan

end Inlay
