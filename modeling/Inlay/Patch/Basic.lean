/-
This file describes one insertion and says which insertions are patches.

An insertion names three things: a marker, a block of lines that goes right before the first line
with the marker, and a sentinel by which a text shows that the block is there already. Not every
such triple can be applied cleanly. `Insertion.defect?` names the first thing wrong with one, and a
patch is an insertion without a defect, so whoever holds a patch need not check again.

Two of the checks are what makes a second run harmless. The marker must not contain the sentinel,
or the line to insert before would itself look patched; and some line of the block must contain the
sentinel, or the block would go unseen and be inserted again.
-/
import Inlay.Text.Occurrence

namespace Inlay

/-- A block of lines to insert, the marker of the place and the sentinel of its presence. -/
structure Insertion where
  marker : Text
  sentinel : Text
  block : List Text
  deriving DecidableEq, Repr

/-- What can be wrong with an insertion. -/
inductive Defect
  | emptyMarker
  | emptySentinel
  | brokenNeedle
  | sentinelInMarker
  | emptyBlock
  | brokenBlockLine
  | sentinelNotInBlock
  deriving DecidableEq, Repr

namespace Insertion

/-- The insertion of a block that is given as one text. -/
def ofBlockText (marker sentinel block : Text) : Insertion :=
  { marker, sentinel, block := Text.blockLines block }

/-- The first defect of an insertion. -/
def defect? (insertion : Insertion) : Option Defect :=
  if insertion.marker = [] then some .emptyMarker
  else if insertion.sentinel = [] then some .emptySentinel
  else if '\n' ∈ insertion.marker ∨ '\n' ∈ insertion.sentinel then some .brokenNeedle
  else if Text.occurs insertion.sentinel insertion.marker then some .sentinelInMarker
  else if insertion.block = [] then some .emptyBlock
  else if ∃ line ∈ insertion.block, '\n' ∈ line then some .brokenBlockLine
  else if insertion.block.any (Text.occurs insertion.sentinel) then none
  else some .sentinelNotInBlock

/-- The number of lines that an insertion adds, the empty line after the block included. -/
def insertedLineCount (insertion : Insertion) : Nat := insertion.block.length + 1

end Insertion

/-- The reason that a defect gives. -/
def Defect.reason : Defect → String
  | .emptyMarker => "marker is empty"
  | .emptySentinel => "sentinel is empty"
  | .brokenNeedle => "marker and sentinel must be single lines"
  | .sentinelInMarker => "marker must not contain the sentinel"
  | .emptyBlock => "block is empty"
  | .brokenBlockLine => "block lines must not contain newlines"
  | .sentinelNotInBlock => "block does not contain the sentinel"

/-- The message for a defect. -/
def Defect.message (defect : Defect) : String := "invalid patch: " ++ defect.reason

/-- An insertion that can be applied cleanly. -/
structure Patch extends Insertion where
  sound : toInsertion.defect? = none
  deriving DecidableEq, Repr

namespace Patch

/-- The patch that an insertion is, or its first defect. -/
def ofInsertion (insertion : Insertion) : Except Defect Patch :=
  match found : insertion.defect? with
  | none => .ok { toInsertion := insertion, sound := found }
  | some defect => .error defect

/-- The patch with these three parts, or the first defect. -/
def new (marker sentinel : Text) (block : List Text) : Except Defect Patch :=
  ofInsertion { marker, sentinel, block }

/-- The patch whose block is given as one text, or the first defect. -/
def ofBlockText (marker sentinel block : Text) : Except Defect Patch :=
  ofInsertion (Insertion.ofBlockText marker sentinel block)

/-! ### What a patch may rely on -/

theorem ofInsertion_toInsertion (patch : Patch) : ofInsertion patch.toInsertion = .ok patch := by
  unfold ofInsertion
  split
  · rfl
  · next found => rw [patch.sound] at found; cases found

theorem toInsertion_of_ofInsertion {insertion : Insertion} {patch : Patch}
    (accepted : ofInsertion insertion = .ok patch) : patch.toInsertion = insertion := by
  unfold ofInsertion at accepted
  split at accepted
  · cases accepted; rfl
  · cases accepted

end Patch

/-- The seven conditions on an insertion, one by one. -/
structure Insertion.Sound (insertion : Insertion) : Prop where
  marker_ne_nil : insertion.marker ≠ []
  sentinel_ne_nil : insertion.sentinel ≠ []
  marker_single : '\n' ∉ insertion.marker
  sentinel_single : '\n' ∉ insertion.sentinel
  marker_unmarked : Text.occurs insertion.sentinel insertion.marker = false
  block_ne_nil : insertion.block ≠ []
  block_single : ∀ line ∈ insertion.block, '\n' ∉ line
  block_marked : ∃ line ∈ insertion.block, Text.occurs insertion.sentinel line = true

/-- An insertion has no defect exactly when it meets the seven conditions. -/
theorem Insertion.defect?_eq_none_iff {insertion : Insertion} :
    insertion.defect? = none ↔ insertion.Sound := by
  unfold Insertion.defect?
  constructor
  · intro found
    split at found
    · cases found
    next markerFull =>
    split at found
    · cases found
    next sentinelFull =>
    split at found
    · cases found
    next single =>
    split at found
    · cases found
    next unmarked =>
    split at found
    · cases found
    next blockFull =>
    split at found
    · cases found
    next blockSingle =>
    split at found
    · next marked =>
      exact {
        marker_ne_nil := markerFull
        sentinel_ne_nil := sentinelFull
        marker_single := fun member => single (Or.inl member)
        sentinel_single := fun member => single (Or.inr member)
        marker_unmarked := Bool.eq_false_iff.2 unmarked
        block_ne_nil := blockFull
        block_single := fun line member broken => blockSingle ⟨line, member, broken⟩
        block_marked := List.any_eq_true.1 marked }
    · cases found
  · intro sound
    rw [if_neg sound.marker_ne_nil, if_neg sound.sentinel_ne_nil,
      if_neg (not_or.2 ⟨sound.marker_single, sound.sentinel_single⟩),
      if_neg (Bool.eq_false_iff.1 sound.marker_unmarked), if_neg sound.block_ne_nil,
      if_neg (fun ⟨line, member, broken⟩ => sound.block_single line member broken),
      if_pos (List.any_eq_true.2 sound.block_marked)]

theorem Patch.isSound (patch : Patch) : patch.toInsertion.Sound :=
  Insertion.defect?_eq_none_iff.1 patch.sound

end Inlay
