/-
This file reads keys and values.

A value is known by its first character: a quote, a bracket, a brace, or else a bare word, which has
to be a whole number, a number with a fraction, a truth value, or a date or time. A bare word ends
at the first character that can be in none of these, since nothing that may follow a value is one of
them; only a time after a date and a space belongs to the date.

Arrays may be spread over lines with comments between; inline tables may not, and become values as
soon as they are closed. Arrays and inline tables nest at most 79 deep, and a key has at most 79
parts. Each loop over items takes an item's first character away, so as many turns as there are
characters left in the document are enough.
-/
import Inlay.Toml.Draft
import Inlay.Toml.Moment
import Inlay.Toml.Number

namespace Inlay.Toml

/-- How deep arrays and inline tables nest, and how many parts a key has, at most. -/
def depthLimit : Nat := 79

/-! ### Between the values -/

/-- Whether a character is a blank: a space or a tab. -/
def isBlank (character : Char) : Bool := character = ' ' || character = '\t'

/-- Leaves out blanks. -/
def skipBlanks (source : Text) : Text := source.dropWhile isBlank

/-- Leaves out blanks, newlines and comments; a comment must end with its line. -/
def skipFiller (inComment : Bool) : Text → Option Text
  | [] => some []
  | character :: rest =>
    if character = '\n' then skipFiller false rest
    else if inComment then if mayStand character then skipFiller true rest else none
    else if isBlank character then skipFiller false rest
    else if character = '#' then skipFiller true rest
    else some (character :: rest)

/-! ### Keys -/

/-- Whether a character may be in a key without quotes. -/
def isBareKey (character : Char) : Bool :=
  character.isAlphanum || character = '-' || character = '_'

/-- Reads one part of a key. -/
def readKeyPart (source : Text) : Option (Text × Text) :=
  let bare := source.takeWhile isBareKey
  if bare = [] then StringForm.readSingle source else some (bare, source.drop bare.length)

/-- Reads the parts of a key after others, which come in reverse. -/
def readKeyParts : Nat → KeyPath → Text → Option (KeyPath × Text)
  | 0, _, _ => none
  | turns + 1, parts, source => do
    let (part, rest) ← readKeyPart (skipBlanks source)
    match skipBlanks rest with
    | '.' :: rest => readKeyParts turns (part :: parts) rest
    | rest => return ((part :: parts).reverse, rest)

/-- Reads a key, with the blanks around it. -/
def readKey (source : Text) : Option (KeyPath × Text) := readKeyParts depthLimit [] source

/-! ### Values -/

/-- Whether a character may be in a value without quotes and brackets. -/
def isBareWord (character : Char) : Bool :=
  character.isAlphanum || character = '_' || character = '+' || character = '-' ||
    character = '.' || character = ':'

/-- The value that a bare word stands for. -/
def bareValue? (word : Text) : Option Value :=
  if word = ['t', 'r', 'u', 'e'] then some (.boolean true)
  else if word = ['f', 'a', 'l', 's', 'e'] then some (.boolean false)
  else if Moment.isMoment word then some .moment
  else
    match Number.integer? word with
    | some number => some (.integer number)
    | none => (Number.float? word).map .float

/-- Leaves out a space and a time that follow a date. -/
def skipTimeAfterDate (source : Text) : Text :=
  match source with
  | ' ' :: rest =>
    let word := rest.takeWhile isBareWord
    if Moment.isTimeWithOffset word then rest.drop word.length else source
  | _ => source

/-- Reads a bare word. -/
def readBare (source : Text) : Option (Value × Text) := do
  let word := source.takeWhile isBareWord
  let rest := source.drop word.length
  let value ← bareValue? word
  return (value, if Moment.isDate word then skipTimeAfterDate rest else rest)

/-- Reads a value that holds no other. -/
def readScalar (source : Text) : Option (Value × Text) :=
  match source with
  | '"' :: _ => (StringForm.read source).map fun (text, rest) => (.string text, rest)
  | '\'' :: _ => (StringForm.read source).map fun (text, rest) => (.string text, rest)
  | _ => readBare source

/-- Reads the items of an array after others, which come in reverse. -/
def readItems (readItem : Text → Option (Value × Text)) :
    Nat → List Value → Text → Option (Value × Text)
  | 0, _, _ => none
  | turns + 1, items, source => do
    let source ← skipFiller false source
    match source with
    | ']' :: rest => return (.array items.reverse, rest)
    | _ =>
      let (item, rest) ← readItem source
      let rest ← skipFiller false rest
      match rest with
      | ',' :: rest => readItems readItem turns (item :: items) rest
      | ']' :: rest => return (.array (item :: items).reverse, rest)
      | _ => none

/-- Reads the lines of an inline table after others. -/
def readFields (readItem : Text → Option (Value × Text)) :
    Nat → Draft.Entries → Text → Option (Value × Text)
  | 0, _, _ => none
  | turns + 1, entries, source => do
    let (key, rest) ← readKey source
    match rest with
    | '=' :: rest =>
      let (item, rest) ← readItem (skipBlanks rest)
      let entries ← Draft.assign entries (key, item)
      match skipBlanks rest with
      | ',' :: rest => readFields readItem turns entries rest
      | '\x7d' :: rest => return (.table (Draft.entryValues entries), rest)
      | _ => none
    | _ => none

/-- Reads a value with at most so many arrays and inline tables inside each other. Each of them may
take so many turns. -/
def readValue (turns : Nat) : Nat → Text → Option (Value × Text)
  | 0, source => readScalar source
  | depth + 1, source =>
    match source with
    | '[' :: rest => readItems (readValue turns depth) turns [] rest
    | '\x7b' :: rest =>
      match skipBlanks rest with
      | '\x7d' :: rest => some (.table [], rest)
      | _ => readFields (readValue turns depth) turns [] rest
    | _ => readScalar source

end Inlay.Toml
