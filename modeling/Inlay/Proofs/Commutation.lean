/-
This file proves that two patches that do not see each other may be put into a text in either order.

A patch sees another one if a line that the other adds shows its marker or its sentinel. If it sees
none, then the lines added do not make the text look done and offer no new place, and they only move
the line that it goes before: by their number if they come before that line or right at it, and not
at all if they come behind. The line itself stays what it was, and with it the terminator.

Put before different lines the two blocks therefore end up between the same lines in either order.
Put before the same line they lie side by side, the one that was applied last right before the line.
-/
import Inlay.Proofs.Idempotence

namespace Inlay

open Text (lines positions terminatorOf)

namespace Text

/-- Lines without the needle that are put among others move what is found from there on. -/
theorem isLeast_positions_insert {needle : Text} {front added rest : List Text} {index : Nat}
    (unmarked : ∀ line ∈ added, ¬ needle <:+: line)
    (least : IsLeast (positions needle (front ++ rest)) index) :
    IsLeast (positions needle (front ++ added ++ rest))
      (if front.length ≤ index then index + added.length else index) := by
  rw [List.append_assoc]
  rcases isLeast_positions_append_iff.1 least with inFront | ⟨frontUnmarked, later, inRest, rfl⟩
  · rw [if_neg (Nat.not_le_of_lt (lt_length_of_isLeast_positions inFront))]
    exact isLeast_positions_append_left inFront _
  · rw [if_pos (Nat.le_add_right _ _), Nat.add_assoc, Nat.add_comm later]
    exact isLeast_positions_append_right frontUnmarked
      (isLeast_positions_append_right unmarked inRest)

/-- A text is known by its lines. -/
theorem eq_of_lines_eq {text other : Text} (same : lines text = lines other) : text = other := by
  rw [← flatten_lines text, same, flatten_lines]

theorem exists_split {pieces : List Text} {index : Nat} (inside : index < pieces.length) :
    ∃ front line rest, pieces = front ++ line :: rest ∧ front.length = index :=
  ⟨pieces.take index, pieces[index], pieces.drop (index + 1),
    by rw [List.getElem_cons_drop, List.take_append_drop],
    List.length_take_of_le (Nat.le_of_lt inside)⟩

theorem getElem?_of_split {pieces front rest : List Text} {line : Text} {index : Nat}
    (split : pieces = front ++ line :: rest) (place : front.length = index) :
    pieces[index]? = some line := by
  rw [split, ← place, List.getElem?_append_right (Nat.le_refl _), Nat.sub_self,
    List.getElem?_cons_zero]

end Text

namespace Insertion

variable {insertion first second : Insertion} {text line : Text} {front rest : List Text}
  {index position : Nat}

/-! ### What one insertion is to another -/

/-- The lines that an insertion adds before the line at the position. -/
def addedLines (insertion : Insertion) (text : Text) (index : Nat) : List Text :=
  insertion.insertedLines (((lines text)[index]?.map terminatorOf).getD .lf)

/-- No line that the insertion adds at the position shows the other's marker or sentinel. -/
def IsUnseenBy (insertion other : Insertion) (text : Text) (index : Nat) : Prop :=
  ∀ line ∈ insertion.addedLines text index,
    ¬ other.marker <:+: line ∧ ¬ other.sentinel <:+: line

instance (insertion other : Insertion) (text : Text) (index : Nat) :
    Decidable (insertion.IsUnseenBy other text index) :=
  inferInstanceAs (Decidable (∀ line ∈ insertion.addedLines text index,
    ¬ other.marker <:+: line ∧ ¬ other.sentinel <:+: line))

/-- The position of a line once the insertion has gone in before the line at the index. -/
def moved (insertion : Insertion) (index position : Nat) : Nat :=
  if index ≤ position then position + insertion.insertedLineCount else position

theorem addedLines_of_found (found : (lines text)[index]? = some line) :
    insertion.addedLines text index = insertion.insertedLines (terminatorOf line) := by
  rw [addedLines, found, Option.map_some, Option.getD_some]

theorem length_addedLines (insertion : Insertion) (text : Text) (index : Nat) :
    (insertion.addedLines text index).length = insertion.insertedLineCount :=
  length_insertedLines insertion _

theorem lines_splice_of_inside (single : ∀ line ∈ insertion.block, '\n' ∉ line)
    (inside : index < (lines text).length) :
    lines (insertion.splice text index) =
      (lines text).take index ++ insertion.addedLines text index ++ (lines text).drop index := by
  have found := List.getElem?_eq_getElem inside
  rw [lines_splice single found, addedLines_of_found found]

/-- An insertion that another one does not see moves its place and changes nothing else about its
plan. -/
theorem plan?_splice_of_isUnseenBy (single : ∀ line ∈ first.block, '\n' ∉ line)
    (inside : index < (lines text).length) (unseen : first.IsUnseenBy second text index)
    (planned : second.plan? text = some (.insert position)) :
    second.plan? (first.splice text index) = some (.insert (first.moved index position)) := by
  obtain ⟨unmarked, least⟩ := plan?_eq_insert_iff.1 planned
  rw [plan?_eq_insert_iff, lines_splice_of_inside single inside]
  constructor
  · intro line member
    rcases List.mem_append.1 member with before | behind
    · rcases List.mem_append.1 before with old | added
      · exact unmarked line (List.mem_of_mem_take old)
      · exact (unseen line added).2
    · exact unmarked line (List.mem_of_mem_drop behind)
  · rw [← List.take_append_drop index (lines text)] at least
    have least := Text.isLeast_positions_insert (fun line added => (unseen line added).1) least
    rwa [length_addedLines, List.length_take_of_le (Nat.le_of_lt inside), ← moved] at least

/-! ### Two blocks in one text -/

/-- The lines of a spliced text, told by the line that the block was put before. -/
theorem lines_splice_of_split (single : ∀ line ∈ insertion.block, '\n' ∉ line)
    (split : lines text = front ++ line :: rest) (place : front.length = index) :
    lines (insertion.splice text index) =
      front ++ insertion.insertedLines (terminatorOf line) ++ line :: rest := by
  rw [lines_splice single (Text.getElem?_of_split split place), split, List.take_left' place,
    List.drop_left' place]

section Pairs

variable (firstSingle : ∀ line ∈ first.block, '\n' ∉ line)
  (secondSingle : ∀ line ∈ second.block, '\n' ∉ line)

include firstSingle secondSingle

/-- Two blocks that go before different lines lie between the same lines in either order. -/
theorem splice_splice_comm (earlier : index < position) (inside : position < (lines text).length) :
    second.splice (first.splice text index) (position + first.insertedLineCount) =
      first.splice (second.splice text position) index := by
  obtain ⟨before, other, rest, split, otherPlace⟩ := Text.exists_split inside
  obtain ⟨front, line, between, rfl, place⟩ := Text.exists_split (otherPlace ▸ earlier)
  have firstSplit : lines text = front ++ line :: (between ++ other :: rest) := by
    rw [split, List.append_assoc, List.cons_append]
  have firstLines := lines_splice_of_split firstSingle firstSplit place
  have secondLines := lines_splice_of_split secondSingle split otherPlace
  have firstAgain : lines (second.splice text position) =
      front ++ line :: (between ++ second.insertedLines (terminatorOf other) ++ other :: rest) := by
    rw [secondLines, List.append_assoc, List.append_assoc, List.cons_append, List.append_assoc]
  have secondAgain : lines (first.splice text index) =
      (front ++ first.insertedLines (terminatorOf line) ++ line :: between) ++ other :: rest := by
    rw [firstLines, List.append_assoc _ (line :: between), List.cons_append]
  have otherAgain : (front ++ first.insertedLines (terminatorOf line) ++ line :: between).length =
      position + first.insertedLineCount := by
    rw [← otherPlace, List.length_append, List.length_append, List.length_append,
      length_insertedLines, Nat.add_right_comm]
  refine Text.eq_of_lines_eq ?_
  rw [lines_splice_of_split secondSingle secondAgain otherAgain,
    lines_splice_of_split firstSingle firstAgain place]
  simp only [List.append_assoc, List.cons_append]

/-- Two blocks that go before the same line lie side by side before it, the first one first. -/
theorem lines_splice_splice (inside : index < (lines text).length) :
    lines (second.splice (first.splice text index) (index + first.insertedLineCount)) =
      (lines text).take index ++ first.addedLines text index ++ second.addedLines text index ++
        (lines text).drop index := by
  obtain ⟨front, line, rest, split, place⟩ := Text.exists_split inside
  have found := Text.getElem?_of_split split place
  have again := lines_splice_of_split firstSingle split place
  have placeAgain : (front ++ first.insertedLines (terminatorOf line)).length =
      index + first.insertedLineCount := by
    rw [List.length_append, place, length_insertedLines]
  rw [lines_splice_of_split secondSingle again placeAgain, addedLines_of_found found,
    addedLines_of_found found, split, List.take_left' place, List.drop_left' place]

end Pairs

end Insertion

namespace Patch

/-- Two patches that do not see each other both still go into the text once the other is in it, each
at its old place, moved by the lines that came before it. Before different lines they give one text
in either order, and before the same line they lie there in the order in which they were applied. -/
theorem splice_comm_of_unseen (first second : Patch) (text : Text) (firstIndex secondIndex : Nat)
    (firstPlanned : first.plan? text = some (.insert firstIndex))
    (secondPlanned : second.plan? text = some (.insert secondIndex))
    (firstUnseen : first.IsUnseenBy second.toInsertion text firstIndex)
    (secondUnseen : second.IsUnseenBy first.toInsertion text secondIndex) :
    second.plan? (first.splice text firstIndex) =
      some (.insert (first.moved firstIndex secondIndex)) ∧
    first.plan? (second.splice text secondIndex) =
      some (.insert (second.moved secondIndex firstIndex)) ∧
    (firstIndex ≠ secondIndex →
      second.cycled (first.cycled text) = first.cycled (second.cycled text)) ∧
    (firstIndex = secondIndex →
      lines (second.cycled (first.cycled text)) =
        (lines text).take firstIndex ++ first.addedLines text firstIndex ++
          second.addedLines text firstIndex ++ (lines text).drop firstIndex ∧
      lines (first.cycled (second.cycled text)) =
        (lines text).take firstIndex ++ second.addedLines text firstIndex ++
          first.addedLines text firstIndex ++ (lines text).drop firstIndex) := by
  have firstSingle := first.isSound.block_single
  have secondSingle := second.isSound.block_single
  have firstInside := Text.lt_length_of_isLeast_positions
    (Insertion.plan?_eq_insert_iff.1 firstPlanned).2
  have secondInside := Text.lt_length_of_isLeast_positions
    (Insertion.plan?_eq_insert_iff.1 secondPlanned).2
  have secondLater := Insertion.plan?_splice_of_isUnseenBy firstSingle firstInside firstUnseen
    secondPlanned
  have firstLater := Insertion.plan?_splice_of_isUnseenBy secondSingle secondInside secondUnseen
    firstPlanned
  refine ⟨secondLater, firstLater, fun apart => ?_, ?_⟩
  · rw [Insertion.cycled_of_insert firstPlanned, Insertion.cycled_of_insert secondPlanned,
      Insertion.cycled_of_insert secondLater, Insertion.cycled_of_insert firstLater]
    rcases Nat.lt_or_gt_of_ne apart with earlier | later
    · rw [Insertion.moved, if_pos (Nat.le_of_lt earlier), Insertion.moved,
        if_neg (Nat.not_le_of_lt earlier)]
      exact Insertion.splice_splice_comm firstSingle secondSingle earlier secondInside
    · rw [Insertion.moved, if_neg (Nat.not_le_of_lt later), Insertion.moved,
        if_pos (Nat.le_of_lt later)]
      exact (Insertion.splice_splice_comm secondSingle firstSingle later firstInside).symm
  · rintro rfl
    rw [Insertion.cycled_of_insert firstPlanned, Insertion.cycled_of_insert secondPlanned,
      Insertion.cycled_of_insert secondLater, Insertion.cycled_of_insert firstLater,
      Insertion.moved, if_pos (Nat.le_refl _), Insertion.moved, if_pos (Nat.le_refl _)]
    exact ⟨Insertion.lines_splice_splice firstSingle secondSingle firstInside,
      Insertion.lines_splice_splice secondSingle firstSingle firstInside⟩

/-- A patch for the first line of a header. -/
def topOff : Patch :=
  { toInsertion :=
      { marker := "top".toList
        sentinel := "OFF".toList
        block := ["#define OFF".toList] }
    sound := by decide }

/-- In one text the two blocks go before different lines, in the other before the same line. -/
theorem splice_comm_of_unseen_topOff :
    elseOn.plan? elseTwice = some (.insert 1) ∧
      elseOn.plan? (topOff.splice elseTwice 0) = some (.insert 3) ∧
      topOff.cycled (elseOn.cycled elseTwice) = elseOn.cycled (topOff.cycled elseTwice) ∧
      lines (topOff.cycled (elseOn.cycled "top #else".toList)) =
        ["#elif ON\n".toList, "// ON\r before #else\n".toList, "\n".toList,
          "#define OFF\n".toList, "\n".toList, "top #else".toList] ∧
      lines (elseOn.cycled (topOff.cycled "top #else".toList)) =
        ["#define OFF\n".toList, "\n".toList, "#elif ON\n".toList,
          "// ON\r before #else\n".toList, "\n".toList, "top #else".toList] := by
  have planned : elseOn.plan? elseTwice = some (.insert 1) := by decide
  obtain ⟨_, later, comm, _⟩ := splice_comm_of_unseen elseOn topOff elseTwice 1 0 planned
    (by decide) (by decide +kernel) (by decide +kernel)
  obtain ⟨_, _, _, beside⟩ := splice_comm_of_unseen elseOn topOff "top #else".toList 0 0
    (by decide) (by decide) (by decide +kernel) (by decide +kernel)
  obtain ⟨elseFirst, topFirst⟩ := beside rfl
  exact ⟨planned, later, comm (by decide), elseFirst.trans (by decide +kernel),
    topFirst.trans (by decide +kernel)⟩

end Patch

end Inlay
