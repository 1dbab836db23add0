/-
This file says which lines a block text stands for, however its line ends are written.

A line of a block may end in a newline alone or in a carriage return and a newline, this way in one
place and that way in another, and a last line that is not empty may have no end at all: the block
is the same. A line with its end is one line of the block, whatever follows, so a text is read line
by line. The lines must not end in a carriage return themselves, as that would be taken for a part
of the line end.

For the same reason a newline behind a text is not always ignored. Behind a carriage return it turns
that into a part of a line end, and the last line of the block loses it. Where the block is accepted
that makes another patch of it, or none; everywhere else the newline changes nothing.
-/
import Inlay.Proofs.Recovery

namespace Inlay

namespace Text

variable {text line rest : Text} {block : List Text}

/-! ### One line -/

/-- The line without a carriage return at its end. -/
def withoutReturn (line : Text) : Text :=
  if line.getLast? = some '\r' then line.dropLast else line

theorem withoutReturn_of_ne (unreturned : line.getLast? ≠ some '\r') : withoutReturn line = line :=
  if_neg unreturned

theorem withoutReturn_append_return (line : Text) : withoutReturn (line ++ ['\r']) = line := by
  rw [withoutReturn, if_pos List.getLast?_concat, List.dropLast_concat]

theorem isPrefix_withoutReturn (line : Text) : withoutReturn line <+: line := by
  unfold withoutReturn
  split
  · exact List.dropLast_prefix line
  · exact List.prefix_rfl

theorem withoutTerminator_append_newline (line : Text) :
    withoutTerminator (line ++ ['\n']) = withoutReturn line := by
  have returned : ['\r', '\n'] <:+ line ++ ['\n'] ↔ line.getLast? = some '\r' := by
    rw [List.getLast?_eq_some_iff]
    constructor
    · rintro ⟨body, same⟩
      rw [show ['\r', '\n'] = ['\r'] ++ ['\n'] from rfl, ← List.append_assoc] at same
      exact ⟨body, (List.append_cancel_right same).symm⟩
    · rintro ⟨body, rfl⟩
      exact ⟨body, by simp⟩
  have ended : ['\n'] <:+ line ++ ['\n'] := List.suffix_append line ['\n']
  simp only [withoutTerminator, withoutReturn, List.isSuffixOf_iff_suffix, returned, ended, if_true,
    List.dropLast_concat]

theorem withoutTerminator_of_single (single : '\n' ∉ line) : withoutTerminator line = line := by
  have open_end (ending : Text) (has : '\n' ∈ ending) : ¬ ending <:+ line :=
    fun ends => single (ends.subset has)
  simp only [withoutTerminator, List.isSuffixOf_iff_suffix]
  rw [if_neg (open_end _ (by decide)), if_neg (open_end _ (by decide))]

/-! ### Lines with their ends -/

theorem blockLines_append (single : '\n' ∉ line) (rest : Text) :
    blockLines (line ++ '\n' :: rest) = withoutReturn line :: blockLines rest := by
  rw [blockLines, lines_append line rest single, List.map_cons, withoutTerminator_append_newline]
  rfl

theorem blockLines_of_single (single : '\n' ∉ line) (nonempty : line ≠ []) :
    blockLines line = [line] := by
  rw [blockLines, lines_of_single line single nonempty, List.map_singleton,
    withoutTerminator_of_single single]

/-- A line with its end is one line of the block, whatever follows. -/
theorem blockLines_terminated (single : '\n' ∉ line) (unreturned : line.getLast? ≠ some '\r')
    (ending : Terminator) (rest : Text) :
    blockLines (line ++ ending.text ++ rest) = line :: blockLines rest := by
  cases ending with
  | lf =>
    rw [Terminator.text, List.append_assoc, List.singleton_append, blockLines_append single,
      withoutReturn_of_ne unreturned]
  | crlf =>
    have returnedSingle : '\n' ∉ line ++ ['\r'] := by
      simpa using single
    rw [show line ++ Terminator.crlf.text ++ rest = (line ++ ['\r']) ++ '\n' :: rest by
        simp [Terminator.text],
      blockLines_append returnedSingle, withoutReturn_append_return]

/-- Lines one after the other, each with the end that is given for it. -/
def spelled (block : List Text) (endings : List Terminator) : Text :=
  (List.zipWith (fun line ending => line ++ ending.text) block endings).flatten

/-- Lines with their ends are lines of the block, whatever follows. -/
theorem blockLines_spelled_append (single : ∀ line ∈ block, '\n' ∉ line)
    (unreturned : ∀ line ∈ block, line.getLast? ≠ some '\r') (endings : List Terminator)
    (enough : block.length ≤ endings.length) (rest : Text) :
    blockLines (spelled block endings ++ rest) = block ++ blockLines rest := by
  induction block generalizing endings with
  | nil => simp [spelled]
  | cons line block inductionHypothesis =>
    obtain ⟨lineSingle, laterSingle⟩ := List.forall_mem_cons.1 single
    obtain ⟨lineUnreturned, laterUnreturned⟩ := List.forall_mem_cons.1 unreturned
    cases endings with
    | nil => exact absurd enough (Nat.not_succ_le_zero _)
    | cons ending endings =>
      have step : spelled (line :: block) (ending :: endings) ++ rest =
          line ++ ending.text ++ (spelled block endings ++ rest) := by
        simp [spelled]
      rw [step, blockLines_terminated lineSingle lineUnreturned, inductionHypothesis laterSingle
        laterUnreturned endings (Nat.le_of_succ_le_succ enough), List.cons_append]

theorem blockLines_spelled (single : ∀ line ∈ block, '\n' ∉ line)
    (unreturned : ∀ line ∈ block, line.getLast? ≠ some '\r') (endings : List Terminator)
    (each : endings.length = block.length) : blockLines (spelled block endings) = block := by
  have read := blockLines_spelled_append single unreturned endings (Nat.le_of_eq each.symm) []
  rwa [List.append_nil, show blockLines [] = [] from rfl, List.append_nil] at read

/-- No line of a block text has a newline in it. -/
theorem newline_not_mem_of_mem_blockLines (member : line ∈ blockLines text) : '\n' ∉ line := by
  obtain ⟨whole, isLine, rfl⟩ := List.mem_map.1 member
  rcases (isCut_lines text).finished_or_single isLine with ⟨body, single, rfl⟩ | single
  · rw [withoutTerminator_append_newline]
    exact fun within => single ((isPrefix_withoutReturn body).subset within)
  · rwa [withoutTerminator_of_single single]

/-! ### A newline behind the text -/

theorem exists_lines_concat (nonempty : text ≠ []) (unended : text.getLast? ≠ some '\n') :
    ∃ front last, lines text = front ++ [last] ∧ '\n' ∉ last ∧ text.getLast? = last.getLast? := by
  rcases List.eq_nil_or_concat' (lines text) with none | ⟨front, last, cut⟩
  · rw [← flatten_lines text, none] at nonempty
    exact absurd rfl nonempty
  have isLine : last ∈ lines text := cut ▸ List.mem_append_right front List.mem_cons_self
  have atEnd : text.getLast? = last.getLast? := by
    rw [← flatten_lines text, cut, List.flatten_append, List.flatten_singleton,
      List.getLast?_append_of_ne_nil _ (ne_nil_of_mem_lines isLine)]
  refine ⟨front, last, cut, ?_, atEnd⟩
  rcases (isCut_lines text).finished_or_single isLine with ⟨body, _, rfl⟩ | single
  · rw [atEnd, List.getLast?_concat] at unended
    exact absurd rfl unended
  · exact single

/-- A newline behind a text takes a carriage return from the end of the last line, and changes
nothing else. -/
theorem blockLines_append_newline (nonempty : text ≠ []) (unended : text.getLast? ≠ some '\n') :
    blockLines (text ++ ['\n']) = (blockLines text).modifyLast withoutReturn := by
  have asFinished : text ++ ['\n'] = finished text := by
    rw [finished, if_neg (not_or.2 ⟨nonempty, unended⟩)]
  obtain ⟨front, last, cut, single, _⟩ := exists_lines_concat nonempty unended
  rw [asFinished, blockLines, lines_finished, blockLines, cut, List.modifyLast_concat,
    List.map_append, List.map_append, List.map_singleton, List.map_singleton,
    List.modifyLast_concat, withNewline_of_single single, withoutTerminator_append_newline,
    withoutTerminator_of_single single]

theorem blockLines_ne_nil (nonempty : text ≠ []) : blockLines text ≠ [] := by
  intro none
  rw [blockLines, List.map_eq_nil_iff] at none
  rw [← flatten_lines text, none] at nonempty
  exact nonempty rfl

theorem getLast?_blockLines (nonempty : text ≠ []) (unended : text.getLast? ≠ some '\n') :
    ∃ front last, blockLines text = front ++ [last] ∧ text.getLast? = last.getLast? := by
  obtain ⟨front, last, cut, single, atEnd⟩ := exists_lines_concat nonempty unended
  refine ⟨front.map withoutTerminator, last, ?_, atEnd⟩
  rw [blockLines, cut, List.map_append, List.map_singleton, withoutTerminator_of_single single]

/-- Taking the carriage return away does so only where one is. -/
theorem modifyLast_withoutReturn_eq_iff (nonempty : text ≠ [])
    (unended : text.getLast? ≠ some '\n') :
    (blockLines text).modifyLast withoutReturn = blockLines text ↔
      text.getLast? ≠ some '\r' := by
  obtain ⟨front, last, block, atEnd⟩ := getLast?_blockLines nonempty unended
  rw [block, List.modifyLast_concat, List.append_right_inj, List.singleton_inj, atEnd]
  refine ⟨fun same returned => ?_, withoutReturn_of_ne⟩
  obtain ⟨body, rfl⟩ := List.getLast?_eq_some_iff.1 returned
  rw [withoutReturn_append_return] at same
  simpa using congrArg List.length same

/-- What a line shows without its carriage return it shows with it. -/
theorem any_occurs_of_modifyLast {needle : Text}
    (shown : (block.modifyLast withoutReturn).any (occurs needle) = true) :
    block.any (occurs needle) = true := by
  rcases List.eq_nil_or_concat' block with rfl | ⟨front, last, rfl⟩
  · exact shown
  rw [List.modifyLast_concat, List.any_append, Bool.or_eq_true] at shown
  rw [List.any_append, Bool.or_eq_true]
  refine shown.imp_right fun inLast => ?_
  simp only [List.any_cons, List.any_nil, Bool.or_false, occurs_iff] at inLast ⊢
  exact inLast.trans (isPrefix_withoutReturn last).isInfix

end Text

open Text (blockLines spelled withoutReturn)

/-! ### What a block text is refused for -/

namespace Insertion

variable {text : Text}

theorem unbroken_blockLines (text : Text) : ¬ ∃ line ∈ blockLines text, '\n' ∈ line :=
  fun ⟨_, member, broken⟩ => Text.newline_not_mem_of_mem_blockLines member broken

/-- A text of at least one line is refused for its needles or because no line has the sentinel. -/
theorem defect?_ofBlockText (marker sentinel : Text) (nonempty : text ≠ []) :
    (ofBlockText marker sentinel text).defect? =
      if marker = [] then some .emptyMarker
      else if sentinel = [] then some .emptySentinel
      else if '\n' ∈ marker ∨ '\n' ∈ sentinel then some .brokenNeedle
      else if Text.occurs sentinel marker then some .sentinelInMarker
      else if (blockLines text).any (Text.occurs sentinel) then none
      else some .sentinelNotInBlock := by
  rw [defect?, ofBlockText, if_neg (Text.blockLines_ne_nil nonempty),
    if_neg (unbroken_blockLines text)]

theorem defect?_ofBlockText_ne_brokenBlockLine (marker sentinel text : Text) :
    (ofBlockText marker sentinel text).defect? ≠ some .brokenBlockLine := by
  simp only [defect?, ofBlockText, unbroken_blockLines, if_false]
  split_ifs <;> simp

/-- Where the text is refused it is so with a newline behind it, and for the same reason. -/
theorem defect?_append_newline {marker sentinel : Text} {defect : Defect} (nonempty : text ≠ [])
    (unended : text.getLast? ≠ some '\n')
    (refused : (ofBlockText marker sentinel text).defect? = some defect) :
    (ofBlockText marker sentinel (text ++ ['\n'])).defect? = some defect := by
  have longer : text ++ ['\n'] ≠ [] := List.append_ne_nil_of_left_ne_nil nonempty _
  rw [defect?_ofBlockText _ _ nonempty] at refused
  rw [defect?_ofBlockText _ _ longer, Text.blockLines_append_newline nonempty unended, ← refused]
  have unshown : (blockLines text).any (Text.occurs sentinel) = false →
      ((blockLines text).modifyLast withoutReturn).any (Text.occurs sentinel) = false :=
    fun absent => Bool.eq_false_iff.2 fun shown =>
      Bool.eq_false_iff.1 absent (Text.any_occurs_of_modifyLast shown)
  cases shown : (blockLines text).any (Text.occurs sentinel) with
  | false => rw [unshown shown]
  | true =>
    rw [shown, if_pos rfl] at refused
    split_ifs at refused ⊢ <;> simp_all

end Insertion

namespace Patch

/-! ### One patch from every spelling -/

theorem ofInsertion_eq_error_iff {insertion : Insertion} {defect : Defect} :
    ofInsertion insertion = .error defect ↔ insertion.defect? = some defect := by
  unfold ofInsertion
  split
  · next sound => simp [sound]
  · next other found => simp [found]

theorem block_of_ofBlockText {marker sentinel text : Text} {patch : Patch}
    (accepted : ofBlockText marker sentinel text = .ok patch) : patch.block = blockLines text :=
  congrArg Insertion.block (toInsertion_of_ofInsertion accepted)

theorem ofBlockText_of_blockLines {marker sentinel text : Text} {block : List Text}
    (read : blockLines text = block) :
    ofBlockText marker sentinel text = new marker sentinel block := by
  rw [ofBlockText, Insertion.ofBlockText, read, new]

/-- Lines that hold no newline and end in no carriage return give the patch that they give as a
list, each ended one way or the other, and the last one, unless it is empty, also without an end. A
text is never refused for a newline within a line, as no line of it has one. -/
theorem ofBlockText_spelled (marker sentinel : Text) (block : List Text)
    (single : ∀ line ∈ block, '\n' ∉ line)
    (unreturned : ∀ line ∈ block, line.getLast? ≠ some '\r') :
    (∀ endings : List Terminator, endings.length = block.length →
      ofBlockText marker sentinel (spelled block endings) = new marker sentinel block ∧
      ∀ front last, block = front ++ [last] → last ≠ [] →
        ofBlockText marker sentinel (spelled front endings ++ last) =
          new marker sentinel block) ∧
    ∀ text, (∀ line ∈ blockLines text, '\n' ∉ line) ∧
      (∀ patch, ofBlockText marker sentinel text = .ok patch →
        patch.block = blockLines text) ∧
      ofBlockText marker sentinel text ≠ .error .brokenBlockLine := by
  refine ⟨fun endings each => ⟨?_, ?_⟩, fun text => ⟨?_, ?_, ?_⟩⟩
  · exact ofBlockText_of_blockLines (Text.blockLines_spelled single unreturned endings each)
  · rintro front last rfl nonempty
    have enough : front.length ≤ endings.length := by
      rw [each, List.length_append]
      exact Nat.le_add_right _ _
    have read := Text.blockLines_spelled_append (fun line member => single line (by simp [member]))
      (fun line member => unreturned line (by simp [member])) endings enough last
    rw [Text.blockLines_of_single (single last (by simp)) nonempty] at read
    exact ofBlockText_of_blockLines read
  · exact fun line => Text.newline_not_mem_of_mem_blockLines
  · exact fun patch => block_of_ofBlockText
  · intro refused
    exact Insertion.defect?_ofBlockText_ne_brokenBlockLine marker sentinel text
      (ofInsertion_eq_error_iff.1 refused)

/-- Line ends of both kinds, an empty line, and a carriage return that belongs to its line. -/
theorem ofBlockText_spelled_mixed :
    ofBlockText "#else".toList "ON".toList "#elif ON\r\n\n#define A\rB".toList =
        new "#else".toList "ON".toList ["#elif ON".toList, [], "#define A\rB".toList] ∧
      ofBlockText "#else".toList "ON".toList "#elif ON\r\n\n#define A\rB\n".toList =
        new "#else".toList "ON".toList ["#elif ON".toList, [], "#define A\rB".toList] := by
  obtain ⟨spellings, _⟩ := ofBlockText_spelled "#else".toList "ON".toList
    ["#elif ON".toList, [], "#define A\rB".toList] (by decide) (by decide)
  obtain ⟨ended, unended⟩ := spellings [.crlf, .lf, .lf] rfl
  exact ⟨unended ["#elif ON".toList, []] "#define A\rB".toList rfl (by decide), ended⟩

/-! ### A newline behind the text -/

/-- A newline behind a block text is ignored, unless the text ends in a carriage return and makes a
patch. There it takes the carriage return with it, from the last line of the block. -/
theorem ofBlockText_append_newline (marker sentinel text : Text) (nonempty : text ≠ [])
    (unended : text.getLast? ≠ some '\n') :
    blockLines (text ++ ['\n']) = (blockLines text).modifyLast withoutReturn ∧
    (ofBlockText marker sentinel (text ++ ['\n']) = ofBlockText marker sentinel text ↔
      text.getLast? ≠ some '\r' ∨ ∃ defect, ofBlockText marker sentinel text = .error defect) := by
  have read := Text.blockLines_append_newline nonempty unended
  have kept := Text.modifyLast_withoutReturn_eq_iff nonempty unended
  refine ⟨read, fun same => ?_, ?_⟩
  · cases accepted : ofBlockText marker sentinel text with
    | error defect => exact Or.inr ⟨defect, rfl⟩
    | ok patch =>
      have sameBlock := (block_of_ofBlockText (same.trans accepted)).symm.trans
        (block_of_ofBlockText accepted)
      exact Or.inl (kept.1 (read ▸ sameBlock))
  · rintro (unreturned | ⟨defect, refused⟩)
    · rw [ofBlockText_of_blockLines (read.trans (kept.2 unreturned)),
        ofBlockText_of_blockLines rfl]
    · rw [refused]
      exact ofInsertion_eq_error_iff.2 (Insertion.defect?_append_newline nonempty unended
        (ofInsertion_eq_error_iff.1 refused))

/-- A sentinel that ends in a carriage return goes with it, and the block is refused. Without one the
newline is ignored. -/
theorem ofBlockText_append_newline_returnedSentinel :
    ofBlockText "#else".toList "ON\r".toList "#elif ON\r\n".toList ≠
        ofBlockText "#else".toList "ON\r".toList "#elif ON\r".toList ∧
      ofBlockText "#else".toList "ON".toList "#elif ON\n".toList =
        ofBlockText "#else".toList "ON".toList "#elif ON".toList := by
  have accepted : (ofBlockText "#else".toList "ON\r".toList "#elif ON\r".toList).isOk = true := by
    decide
  constructor
  · intro same
    rcases (ofBlockText_append_newline "#else".toList "ON\r".toList "#elif ON\r".toList
      (by decide) (by decide)).2.1 same with unreturned | ⟨defect, refused⟩
    · exact unreturned (by decide)
    · rw [refused] at accepted
      cases accepted
  · exact (ofBlockText_append_newline "#else".toList "ON".toList "#elif ON".toList (by decide)
      (by decide)).2.2 (Or.inl (by decide))

/-- A newline is not ignored behind a block whose last line has but the first half of its end: the
line loses its carriage return. -/
theorem ofBlockText_halfEnded :
    ofBlockText "#else".toList "ON".toList "#elif ON\r\n#define A\r\n".toList ≠
      ofBlockText "#else".toList "ON".toList "#elif ON\r\n#define A\r".toList := by
  decide

end Patch

end Inlay
