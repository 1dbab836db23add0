/-
This file proves that a text written between quotes reads back as itself.

A grammar stands between the writer and the reader. `Shows` says how one character may be shown in a
form, after so many quotes in a row, and how many quotes stand in a row after it; `Spelled` says the
same of a whole text. The reader takes every spelling back to its text, by induction on the
spelling: the quotes that it has only counted so far are those that the spelling has counted. The
writer spells every text, the basic forms with escapes and the literal forms as it is.

The choice of a form matters for the literal forms alone. They have no escapes, so what cannot stand
in them must not be in the text.
-/
import Inlay.Toml.StringForm.Reader
import Inlay.Toml.StringForm.Writer

namespace Inlay.Toml.StringForm

/-! ### How a text may be shown -/

/-- How a character may be shown in a form after so many quotes in a row, and how many quotes stand
in a row after that. -/
inductive Shows (form : StringForm) (quotes : Nat) : Char → Text → Nat → Prop
  | quote (room : quotes < form.quoteRun) : Shows form quotes form.quote [form.quote] (quotes + 1)
  | plain {character : Char} (apart : character ≠ form.quote)
      (unescaped : form.hasEscapes = true → character ≠ '\\')
      (stands : mayStand character = true ∨ character = '\n' ∧ form.isMultiline = true) :
      Shows form quotes character [character] 0
  | letter {character letter : Char} (escapes : form.hasEscapes = true)
      (means : escaped? letter = some character) : Shows form quotes character ['\\', letter] 0
  | code {character : Char} (escapes : form.hasEscapes = true)
      (small : character.toNat < 0x10000) :
      Shows form quotes character (['\\', 'u'] ++ codePoint character.toNat) 0

/-- How a text may be shown in a form after so many quotes in a row. -/
inductive Spelled (form : StringForm) : Nat → Text → Text → Prop
  | nil {quotes : Nat} (few : quotes ≤ form.quoteRun) : Spelled form quotes [] []
  | cons {quotes after : Nat} {character : Char} {text shown body : Text}
      (shows : form.Shows quotes character shown after) (spelled : Spelled form after text body) :
      Spelled form quotes (character :: text) (shown ++ body)

/-! ### What the reader makes of a spelling -/

section Reading

variable {form : StringForm} {quotes after : Nat} {character : Char} {read text body rest : Text}

theorem readFrom_of_continue {state next : State} (moves : form.move state character =
    .continue next) : form.readFrom state (character :: rest) = form.readFrom next rest := by
  rw [readFrom, moves]

theorem quoteRun_le_two (form : StringForm) : form.quoteRun ≤ 2 := by
  cases form <;> decide

theorem isMultiline_of_quoteRun (room : 0 < form.quoteRun) : form.isMultiline = true := by
  cases form with
  | basic => cases room
  | literal => cases room
  | multilineBasic => rfl
  | multilineLiteral => rfl

theorem quote_of_hasEscapes (escapes : form.hasEscapes = true) : form.quote = '"' := by
  cases form with
  | basic => rfl
  | literal => cases escapes
  | multilineBasic => rfl
  | multilineLiteral => cases escapes

theorem quote_ne_backslash (form : StringForm) : form.quote ≠ '\\' := by
  cases form <;> decide

/-- A quote that may be text is only counted. -/
theorem move_quote (multiline : form.isMultiline = true) (few : quotes < 4) :
    form.move { mode := .plain quotes, read } form.quote =
      .continue { mode := .plain (quotes + 1), read } := by
  have notLast : quotes ≠ 4 := by omega
  simp only [move, textMove, multiline, Bool.not_true, Bool.false_eq_true, if_true, if_false,
    if_neg notLast]

/-- Behind fewer than three quotes another character continues the text, with those quotes. -/
theorem move_other (apart : character ≠ form.quote) (few : quotes ≤ form.quoteRun) :
    form.move { mode := .plain quotes, read } character =
      form.plainMove (form.withQuotes quotes read) character := by
  have stillOpen : ¬ 3 ≤ quotes := by
    have := quoteRun_le_two form
    omega
  simp only [move, textMove, if_neg apart, if_neg stillOpen]

theorem move_backslash (escapes : form.hasEscapes = true) (few : quotes ≤ form.quoteRun) :
    form.move { mode := .plain quotes, read } '\\' =
      .continue { mode := .escape, read := form.withQuotes quotes read } := by
  rw [move_other (quote_ne_backslash form).symm few, plainMove, if_pos ⟨rfl, escapes⟩]

theorem hexValue?_digitChar {digit : Nat} (small : digit < 16) :
    hexValue? (Nat.digitChar digit).toUpper = some digit := by
  decide +revert

/-- A digit adds to the number, if it is not the last. -/
theorem move_digit {digit left value : Nat} (small : digit < 16) :
    form.move { mode := .digits (left + 1) value, read } (Nat.digitChar digit).toUpper =
      .continue { mode := .digits left (16 * value + digit), read } := by
  simp only [move, digitMove, hexValue?_digitChar small]

theorem move_lastDigit {digit value : Nat} (small : digit < 16)
    (number : 16 * value + digit = character.toNat) :
    form.move { mode := .digits 0 value, read } (Nat.digitChar digit).toUpper =
      .continue { mode := .plain 0, read := character :: read } := by
  have valid : character.toNat.isValidChar := character.valid
  simp only [move, digitMove, hexValue?_digitChar small, number, if_pos valid, Char.ofNat_toNat]

/-- The four digits of a code point stand for the character. -/
theorem readFrom_codePoint (small : character.toNat < 0x10000) :
    form.readFrom { mode := .digits 3 0, read } (codePoint character.toNat ++ rest) =
      form.readFrom { mode := .plain 0, read := character :: read } rest := by
  have digit : ∀ value, value % 16 < 16 := fun value => Nat.mod_lt _ (by decide)
  have number : 16 * (16 * (16 * (16 * 0 + character.toNat / 4096 % 16) +
      character.toNat / 256 % 16) + character.toNat / 16 % 16) + character.toNat % 16 =
      character.toNat := by
    omega
  rw [codePoint, List.cons_append, List.cons_append, List.cons_append, List.cons_append,
    List.nil_append, readFrom_of_continue (move_digit (digit _)),
    readFrom_of_continue (move_digit (digit _)), readFrom_of_continue (move_digit (digit _)),
    readFrom_of_continue (move_lastDigit (digit _) number)]

theorem Shows.few {shown : Text} (shows : form.Shows quotes character shown after) :
    after ≤ form.quoteRun := by
  cases shows with
  | quote room => exact room
  | plain apart unescaped stands => exact Nat.zero_le _
  | letter escapes means => exact Nat.zero_le _
  | code escapes small => exact Nat.zero_le _

/-- A character that is shown is read, and the quotes in a row are counted alike. -/
theorem Shows.readFrom {shown : Text} (shows : form.Shows quotes character shown after)
    (few : quotes ≤ form.quoteRun) (read rest : Text) :
    ∃ next, form.readFrom { mode := .plain quotes, read } (shown ++ rest) =
        form.readFrom { mode := .plain after, read := next } rest ∧
      form.withQuotes after next = character :: form.withQuotes quotes read := by
  cases shows with
  | quote room =>
    have multiline := isMultiline_of_quoteRun (Nat.zero_lt_of_lt room)
    have below : quotes < 4 := by
      have := quoteRun_le_two form
      omega
    exact ⟨read, readFrom_of_continue (move_quote multiline below), rfl⟩
  | plain apart unescaped stands =>
    refine ⟨character :: form.withQuotes quotes read, readFrom_of_continue ?_, rfl⟩
    rw [move_other apart few, plainMove, if_neg fun both => unescaped both.2 both.1,
      if_pos stands]
  | letter escapes means =>
    refine ⟨character :: form.withQuotes quotes read, ?_, rfl⟩
    rw [List.cons_append, readFrom_of_continue (move_backslash escapes few)]
    refine readFrom_of_continue ?_
    simp only [move, escapeMove, means]
  | code escapes small =>
    refine ⟨character :: form.withQuotes quotes read, ?_, rfl⟩
    have digits : form.move { mode := .escape, read := form.withQuotes quotes read } 'u' =
        .continue { mode := .digits 3 0, read := form.withQuotes quotes read } := rfl
    rw [List.append_assoc, List.cons_append,
      readFrom_of_continue (move_backslash escapes few), List.cons_append,
      readFrom_of_continue digits, List.nil_append, readFrom_codePoint small]

/-- Three quotes and more, with something else behind them, end the text. -/
theorem readFrom_of_ended (ended : 3 ≤ quotes) (apart : rest.head? ≠ some form.quote) :
    form.readFrom { mode := .plain quotes, read } rest =
      some ((form.withQuotes (quotes - 3) read).reverse, rest) := by
  cases rest with
  | nil => rw [readFrom]; simp only [if_pos ended]
  | cons character rest =>
    have other : character ≠ form.quote := fun same => apart (same ▸ rfl)
    rw [readFrom]
    simp only [move, textMove, if_neg other, if_pos ended]

/-- The closing delimiter ends the text, and the quotes right before it belong to the text. -/
theorem readFrom_delimiter (few : quotes ≤ form.quoteRun) (apart : rest.head? ≠ some form.quote) :
    form.readFrom { mode := .plain quotes, read } (form.delimiter ++ rest) =
      some ((form.withQuotes quotes read).reverse, rest) := by
  have limit := quoteRun_le_two form
  by_cases multiline : form.isMultiline = true
  · rw [delimiter, if_pos multiline, List.cons_append, List.cons_append, List.cons_append,
      List.nil_append, readFrom_of_continue (move_quote multiline (by omega)),
      readFrom_of_continue (move_quote multiline (by omega))]
    by_cases most : quotes = 2
    · subst most
      have closes : form.move { mode := .plain 4, read } form.quote =
          .close (form.withQuotes 2 read).reverse := by
        simp only [move, textMove, multiline, Bool.not_true, Bool.false_eq_true, if_true, if_false]
      rw [readFrom, closes]
    · rw [readFrom_of_continue (move_quote multiline (by omega)),
        readFrom_of_ended (by omega) apart]
      rfl
  · have noQuotes : quotes = 0 := by
      rw [quoteRun, if_neg multiline] at few
      exact Nat.le_zero.1 few
    subst noQuotes
    have closes : form.move { mode := .plain 0, read } form.quote = .close read.reverse := by
      simp only [move, textMove, Bool.eq_false_iff.2 multiline, Bool.not_false, if_true]
    rw [delimiter, if_neg multiline, List.singleton_append, readFrom, closes]
    rfl

/-- The reader takes a spelling back to its text. -/
theorem Spelled.readFrom (spelled : form.Spelled quotes text body) (few : quotes ≤ form.quoteRun)
    (apart : rest.head? ≠ some form.quote) (read : Text) :
    form.readFrom { mode := .plain quotes, read } (body ++ (form.delimiter ++ rest)) =
      some ((form.withQuotes quotes read).reverse ++ text, rest) := by
  induction spelled generalizing read with
  | nil few => rw [List.nil_append, readFrom_delimiter few apart, List.append_nil]
  | cons shows spelled inductionHypothesis =>
    obtain ⟨next, reads, counts⟩ := shows.readFrom few read _
    rw [List.append_assoc, reads, inductionHypothesis shows.few, counts, List.reverse_cons,
      List.append_assoc, List.singleton_append]

end Reading

/-! ### The writer spells the text -/

section Writing

variable {form : StringForm} {quotes : Nat} {text : Text}

/-- What has no escape of its own stands as it is. -/
theorem stands_of_escape?_eq_none {character : Char} (bare : form.escape? character = none) :
    character ≠ '\\' ∧
      (mayStand character = true ∨ character = '\n' ∧ form.isMultiline = true) := by
  unfold escape? at bare
  split at bare
  all_goals try cases bare
  · split at bare
    · next multiline => exact ⟨by decide, Or.inr ⟨rfl, multiline⟩⟩
    · cases bare
  · next notBackslash _ =>
    split at bare
    · next stands => exact ⟨notBackslash, Or.inl stands⟩
    · cases bare

/-- An escape shows its character. -/
theorem shows_of_escape? (escapes : form.hasEscapes = true) {character : Char} {shown : Text}
    (escaped : form.escape? character = some shown) : form.Shows quotes character shown 0 := by
  have letter : ∀ {letter : Char}, escaped? letter = some character →
      form.Shows quotes character ['\\', letter] 0 := fun means => .letter escapes means
  unfold escape? at escaped
  split at escaped
  · cases escaped; exact letter rfl
  · cases escaped; exact letter rfl
  · cases escaped; exact letter rfl
  · cases escaped; exact letter rfl
  · cases escaped; exact letter rfl
  · split at escaped
    · cases escaped
    · cases escaped; exact letter rfl
  · split at escaped
    · cases escaped
    · next control =>
      cases escaped
      refine .code escapes ?_
      simp only [mayStand, Bool.or_eq_true, Bool.and_eq_true, decide_eq_true_eq] at control
      omega

theorem shows_writeCharacter (escapes : form.hasEscapes = true) (quotes : Nat)
    (character : Char) :
    form.Shows quotes character (form.writeCharacter quotes character).1
      (form.writeCharacter quotes character).2 := by
  have quote := quote_of_hasEscapes escapes
  unfold writeCharacter
  split
  · next same =>
    subst same
    split
    · next room => exact quote ▸ .quote room
    · exact .letter escapes rfl
  · next apart =>
    split
    · next escape escaped => exact shows_of_escape? escapes escaped
    · next bare =>
      obtain ⟨notBackslash, stands⟩ := stands_of_escape?_eq_none bare
      exact .plain (quote ▸ apart) (fun _ => notBackslash) stands

theorem writeEscaped_cons (written : Text) (character : Char) (text : Text) :
    form.writeEscaped written quotes (character :: text) =
      form.writeEscaped ((form.writeCharacter quotes character).1.reverse ++ written)
        (form.writeCharacter quotes character).2 text := rfl

/-- What is written so far stands in front. -/
theorem writeEscaped_eq_append (written : Text) :
    form.writeEscaped written quotes text =
      written.reverse ++ form.writeEscaped [] quotes text := by
  induction text generalizing written quotes with
  | nil => exact (List.append_nil _).symm
  | cons character text inductionHypothesis =>
    rw [writeEscaped_cons, writeEscaped_cons, inductionHypothesis, List.append_nil,
      inductionHypothesis (List.reverse _), List.reverse_append, List.append_assoc]

theorem spelled_writeEscaped (escapes : form.hasEscapes = true) (few : quotes ≤ form.quoteRun)
    (text : Text) : form.Spelled quotes text (form.writeEscaped [] quotes text) := by
  induction text generalizing quotes with
  | nil => exact .nil few
  | cons character text inductionHypothesis =>
    have shows := shows_writeCharacter escapes quotes character
    rw [writeEscaped_cons, writeEscaped_eq_append, List.append_nil, List.reverse_reverse]
    exact .cons shows (inductionHypothesis shows.few)

end Writing

/-! ### A literal form shows the text as it is -/

section Literal

variable {form : StringForm} {quotes longest : Nat} {text : Text}

/-- The run that a text ends in and the longest run in it, with one more character. -/
def countRun (character : Char) (runs : Nat × Nat) (other : Char) : Nat × Nat :=
  if other = character then (runs.1 + 1, max runs.2 (runs.1 + 1)) else (0, runs.2)

theorem longestRun_eq (character : Char) (text : Text) :
    longestRun character text = (text.foldl (countRun character) (0, 0)).2 := rfl

theorem foldl_countRun_of_not_mem {character : Char} (absent : character ∉ text)
    (runs : Nat × Nat) : (text.foldl (countRun character) runs).2 = runs.2 := by
  induction text generalizing runs with
  | nil => rfl
  | cons other text inductionHypothesis =>
    have apart : other ≠ character := fun same => absurd List.mem_cons_self (same ▸ absent)
    have later : character ∉ text := fun member => absent (List.mem_cons_of_mem _ member)
    rw [List.foldl_cons, inductionHypothesis later, countRun, if_neg apart]

theorem le_foldl_countRun (character : Char) (text : Text) (runs : Nat × Nat) :
    runs.2 ≤ (text.foldl (countRun character) runs).2 := by
  induction text generalizing runs with
  | nil => exact Nat.le_refl _
  | cons other text inductionHypothesis =>
    rw [List.foldl_cons]
    refine Nat.le_trans ?_ (inductionHypothesis _)
    unfold countRun
    split
    · exact Nat.le_max_left _ _
    · exact Nat.le_refl _

/-- Without escapes a text is spelled as it is, if its characters may stand and no run of quotes is
too long. -/
theorem spelled_of_literal (noEscapes : form.hasEscapes = false)
    (stands : ∀ character ∈ text,
      mayStand character = true ∨ character = '\n' ∧ form.isMultiline = true)
    (few : quotes ≤ form.quoteRun)
    (short : (text.foldl (countRun form.quote) (quotes, longest)).2 ≤ form.quoteRun) :
    form.Spelled quotes text text := by
  induction text generalizing quotes longest with
  | nil => exact .nil few
  | cons character text inductionHypothesis =>
    have later := fun other member => stands other (List.mem_cons_of_mem _ member)
    rw [List.foldl_cons] at short
    by_cases same : character = form.quote
    · subst same
      rw [countRun, if_pos rfl] at short
      have room : quotes + 1 ≤ form.quoteRun :=
        calc quotes + 1 ≤ max longest (quotes + 1) := Nat.le_max_right _ _
          _ ≤ _ := le_foldl_countRun form.quote text (quotes + 1, max longest (quotes + 1))
          _ ≤ form.quoteRun := short
      exact .cons (.quote room) (inductionHypothesis later room short)
    · rw [countRun, if_neg same] at short
      have bare : form.hasEscapes = true → character ≠ '\\' :=
        fun escapes => absurd escapes (Bool.eq_false_iff.1 noEscapes)
      exact .cons (.plain same bare (stands character List.mem_cons_self))
        (inductionHypothesis later (Nat.zero_le _) short)

end Literal

/-! ### The chosen form -/

section Choice

variable {text : Text}

/-- A control character is one that may not stand, other than a newline. -/
theorem stands_of_plain (plain : text.any isControl = false) :
    ∀ character ∈ text, mayStand character = true ∨ character = '\n' := by
  intro character member
  have uncontrolled := List.any_eq_false.1 plain character member
  by_cases newline : character = '\n'
  · exact Or.inr newline
  · simp only [isControl, Bool.and_eq_true, decide_eq_true_eq, Bool.not_eq_true', not_and,
      Bool.not_eq_false] at uncontrolled
    exact Or.inl (uncontrolled newline)

theorem spelled_literal (plain : text.any isControl = false) (single : '\n' ∉ text)
    (unquoted : '\'' ∉ text) : literal.Spelled 0 text text := by
  refine spelled_of_literal rfl (fun character member => ?_) (Nat.zero_le _)
    (Nat.le_of_eq (foldl_countRun_of_not_mem unquoted (0, 0)))
  rcases stands_of_plain plain character member with stands | newline
  · exact Or.inl stands
  · exact absurd (newline ▸ member) single

theorem spelled_multilineLiteral (plain : text.any isControl = false)
    (short : longestRun '\'' text ≤ 2) : multilineLiteral.Spelled 0 text text := by
  refine spelled_of_literal rfl (fun character member => ?_) (Nat.zero_le _)
    (longestRun_eq '\'' text ▸ short)
  rcases stands_of_plain plain character member with stands | newline
  · exact Or.inl stands
  · exact Or.inr ⟨newline, rfl⟩

/-- What stands between the delimiters. -/
def bodyOf (form : StringForm) (text : Text) : Text :=
  if form.hasEscapes then form.writeEscaped [] 0 text else text

theorem spelled_basic {form : StringForm} (escapes : form.hasEscapes = true) (text : Text) :
    form.Spelled 0 text (form.bodyOf text) := by
  rw [bodyOf, if_pos escapes]
  exact spelled_writeEscaped escapes (Nat.zero_le _) text

/-- The chosen form spells the text. -/
theorem spelled_choice (text : Text) :
    (choice text).Spelled 0 text ((choice text).bodyOf text) := by
  unfold choice
  simp only
  split
  · exact spelled_basic rfl text
  split
  · next fits =>
    simp only [Bool.and_eq_true, Bool.not_eq_true', List.contains_eq_mem,
      decide_eq_false_iff_not] at fits
    exact spelled_literal fits.1.1 fits.1.2 fits.2
  split
  · exact spelled_basic rfl text
  split
  · next fits =>
    simp only [Bool.and_eq_true, Bool.not_eq_true', decide_eq_true_eq] at fits
    exact spelled_multilineLiteral fits.1 fits.2
  split
  · exact spelled_basic rfl text
  · exact spelled_basic rfl text

end Choice

/-! ### Reading what was written -/

section Quoting

variable {form : StringForm} {quotes : Nat} {text body rest : Text}

/-- A spelling begins with a backslash, with the text or with a quote that has room. -/
theorem Spelled.eq_nil_or_cons (spelled : form.Spelled quotes text body) :
    body = [] ∨ ∃ first later, body = first :: later ∧
      (first = '\\' ∨ first ∈ text) ∧ (first = form.quote → quotes < form.quoteRun) := by
  cases spelled with
  | nil few => exact Or.inl rfl
  | cons shows spelled =>
    refine Or.inr ?_
    cases shows with
    | quote room => exact ⟨_, _, rfl, Or.inr List.mem_cons_self, fun _ => room⟩
    | plain apart unescaped stands =>
      exact ⟨_, _, rfl, Or.inr List.mem_cons_self, fun same => absurd same apart⟩
    | letter escapes means =>
      exact ⟨_, _, rfl, Or.inl rfl, fun same => absurd same.symm (quote_ne_backslash form)⟩
    | code escapes small =>
      exact ⟨_, _, rfl, Or.inl rfl, fun same => absurd same.symm (quote_ne_backslash form)⟩

theorem dropNewline_of_head? (apart : text.head? ≠ some '\n') : dropNewline text = text := by
  unfold dropNewline
  split
  · exact absurd rfl apart
  · rfl

theorem read_of_multiline (multiline : form.isMultiline = true) (source : Text) :
    read (form.delimiter ++ source) = form.readBody (dropNewline source) := by
  cases form with
  | basic => cases multiline
  | literal => cases multiline
  | multilineBasic => rfl
  | multilineLiteral => rfl

/-- One quote opens a one-line form if no two others follow. -/
theorem read_of_single (single : form.isMultiline = false) {source : Text}
    (apart : ∀ later, source ≠ form.quote :: form.quote :: later) :
    read (form.delimiter ++ source) = form.readBody source := by
  cases form with
  | basic =>
    show read ('"' :: source) = _
    unfold read
    split
    · next later same => exact absurd (List.tail_eq_of_cons_eq same) (apart later)
    · next same => cases same
    · rfl
  | literal =>
    show read ('\'' :: source) = _
    unfold read
    split
    · next same => cases same
    · next later same => exact absurd (List.tail_eq_of_cons_eq same) (apart later)
    · rfl
  | multilineBasic => cases single
  | multilineLiteral => cases single

theorem head?_delimiter_append (form : StringForm) (rest : Text) :
    (form.delimiter ++ rest).head? = some form.quote := by
  cases form <;> rfl

/-- No spelling of a text without newlines begins with one. -/
theorem Spelled.head?_ne_newline (spelled : form.Spelled quotes text body)
    (absent : '\n' ∉ text) (rest : Text) :
    (body ++ (form.delimiter ++ rest)).head? ≠ some '\n' := by
  rcases spelled.eq_nil_or_cons with rfl | ⟨first, later, rfl, begins, _⟩
  · rw [List.nil_append, head?_delimiter_append]
    cases form <;> decide
  · intro same
    obtain rfl : first = '\n' := Option.some.inj same
    rcases begins with backslash | member
    · exact absurd backslash (by decide)
    · exact absent member

/-- In a one-line form two quotes after the first one are not part of a text. -/
theorem Spelled.ne_two_quotes (spelled : form.Spelled quotes text body)
    (single : form.isMultiline = false) (apart : rest.head? ≠ some form.quote) (later : Text) :
    body ++ (form.delimiter ++ rest) ≠ form.quote :: form.quote :: later := by
  intro same
  rcases spelled.eq_nil_or_cons with rfl | ⟨first, others, rfl, _, room⟩
  · rw [delimiter, single, if_neg Bool.false_ne_true] at same
    have follows : rest = form.quote :: later := List.tail_eq_of_cons_eq same
    rw [follows] at apart
    exact apart rfl
  · have none := room (List.head_eq_of_cons_eq same)
    rw [quoteRun, single, if_neg Bool.false_ne_true] at none
    exact Nat.not_lt_zero _ none

/-- A spelled text between its delimiters reads as the text. A multiline form of a text with
newlines starts on a line of its own. -/
theorem Spelled.read (spelled : form.Spelled 0 text body)
    (apart : rest.head? ≠ some form.quote) :
    StringForm.read (form.delimiter ++
      ((if form.isMultiline ∧ '\n' ∈ text then ['\n'] else []) ++
        (body ++ (form.delimiter ++ rest)))) = some (text, rest) := by
  have reads : form.readBody (body ++ (form.delimiter ++ rest)) = some (text, rest) :=
    spelled.readFrom (Nat.zero_le _) apart []
  cases multiline : form.isMultiline with
  | false =>
    rw [if_neg fun both => Bool.false_ne_true both.1, List.nil_append,
      read_of_single multiline (spelled.ne_two_quotes multiline apart)]
    exact reads
  | true =>
    rw [read_of_multiline multiline]
    by_cases newline : '\n' ∈ text
    · rw [if_pos ⟨rfl, newline⟩]
      exact reads
    · rw [if_neg fun both => newline both.2, List.nil_append,
        dropNewline_of_head? (spelled.head?_ne_newline newline rest)]
      exact reads

/-- A text that is written reads back as itself, whatever follows but a quote. -/
theorem read_write (text : Text) (notDouble : rest.head? ≠ some '"')
    (notSingle : rest.head? ≠ some '\'') :
    StringForm.read (write text ++ rest) = some (text, rest) := by
  have apart : rest.head? ≠ some (choice text).quote := by
    cases choice text with
    | basic => exact notDouble
    | literal => exact notSingle
    | multilineBasic => exact notDouble
    | multilineLiteral => exact notSingle
  have reads := (spelled_choice text).read apart
  rw [write, writeIn, List.append_assoc, List.append_assoc, List.append_assoc]
  exact reads

/-! ### What is never written -/

theorem carriage_not_mem_codePoint (number : Nat) : '\r' ∉ codePoint number := by
  have digit : ∀ value, '\r' ≠ (Nat.digitChar (value % 16)).toUpper := fun value => by
    have small : value % 16 < 16 := Nat.mod_lt _ (by decide)
    generalize value % 16 = digit at small
    decide +revert
  rw [codePoint]
  simp only [List.mem_cons, List.not_mem_nil, or_false, not_or]
  exact ⟨digit _, digit _, digit _, digit _⟩

theorem Shows.carriage_not_mem {character : Char} {shown : Text} {after : Nat}
    (shows : form.Shows quotes character shown after) : '\r' ∉ shown := by
  cases shows with
  | quote room =>
    rw [List.mem_singleton]
    cases form <;> decide
  | plain apart unescaped stands =>
    rw [List.mem_singleton]
    rintro rfl
    rcases stands with may | newline
    · exact absurd may (by decide)
    · exact absurd newline.1 (by decide)
  | @letter _ letter escapes means =>
    simp only [List.mem_cons, List.not_mem_nil, or_false, not_or]
    refine ⟨by decide, ?_⟩
    rintro rfl
    cases means
  | code escapes small =>
    rw [List.mem_append]
    rintro (opening | digits)
    · exact absurd opening (by decide)
    · exact carriage_not_mem_codePoint _ digits

theorem Spelled.carriage_not_mem (spelled : form.Spelled quotes text body) : '\r' ∉ body := by
  induction spelled with
  | nil few => exact List.not_mem_nil
  | cons shows spelled inductionHypothesis =>
    rw [List.mem_append, not_or]
    exact ⟨shows.carriage_not_mem, inductionHypothesis⟩

/-- No carriage return is written as it is, so line ends are never unified inside a text. -/
theorem carriage_not_mem_write (text : Text) : '\r' ∉ write text := by
  have delimiter : '\r' ∉ (choice text).delimiter := by
    cases choice text <;> decide
  have first : '\r' ∉ (if (choice text).isMultiline ∧ '\n' ∈ text then ['\n'] else []) := by
    split <;> decide
  have body : '\r' ∉ (choice text).bodyOf text := (spelled_choice text).carriage_not_mem
  rw [write, writeIn]
  simp only [List.mem_append, not_or]
  exact ⟨⟨⟨delimiter, first⟩, body⟩, delimiter⟩

end Quoting

end Inlay.Toml.StringForm
