/-
This file reads the text that stands between quotes.

The reader takes one character after the other and keeps a small state. In a multiline form a run of
quotes is only counted until its end is seen: fewer than three quotes are text, and three or more
end the text, of which all but the last three still belong to it. Five is the most that can come
together. A backslash before the end of a line leaves out the line end and all blanks and newlines
after it.

Line ends are taken to be newlines alone; a document is brought into that shape before it is read.
-/
import Inlay.Toml.StringForm

namespace Inlay.Toml.StringForm

/-- What the next character continues. -/
inductive Mode
  /-- Plain text, after so many quotes in a row. -/
  | plain (quotes : Nat)
  | escape
  /-- The digits of a code point: so many are left after the next one. -/
  | digits (left value : Nat)
  /-- What a backslash at the end of a line leaves out, before or after the newline. -/
  | lineEnd (passed : Bool)
  deriving DecidableEq, Repr

/-- The state of the reader: the mode, and the text so far in reverse. -/
structure State where
  mode : Mode
  read : Text
  deriving DecidableEq, Repr

/-- What a character leads to. -/
inductive Move
  | continue (state : State)
  /-- The text ends with this character. -/
  | close (text : Text)
  /-- The text has ended before this character. -/
  | closed (text : Text)
  | fail
  deriving DecidableEq, Repr

/-- The text so far, with a run of quotes at its end. -/
def withQuotes (form : StringForm) (count : Nat) (read : Text) : Text :=
  List.replicate count form.quote ++ read

/-- A character that is no quote, in plain text. -/
def plainMove (form : StringForm) (read : Text) (character : Char) : Move :=
  if character = '\\' ∧ form.hasEscapes then .continue { mode := .escape, read }
  else if mayStand character ∨ (character = '\n' ∧ form.isMultiline) then
    .continue { mode := .plain 0, read := character :: read }
  else .fail

/-- A character in plain text after so many quotes. -/
def textMove (form : StringForm) (quotes : Nat) (read : Text) (character : Char) : Move :=
  if character = form.quote then
    if !form.isMultiline then .close read.reverse
    else if quotes = 4 then .close (form.withQuotes 2 read).reverse
    else .continue { mode := .plain (quotes + 1), read }
  else if 3 ≤ quotes then .closed (form.withQuotes (quotes - 3) read).reverse
  else form.plainMove (form.withQuotes quotes read) character

/-- The character that a one-letter escape stands for. -/
def escaped? : Char → Option Char
  | 'b' => some '\x08'
  | 't' => some '\t'
  | 'n' => some '\n'
  | 'f' => some '\x0c'
  | 'r' => some '\r'
  | '"' => some '"'
  | '\\' => some '\\'
  | _ => none

/-- The character after a backslash. -/
def escapeMove (form : StringForm) (read : Text) (character : Char) : Move :=
  match escaped? character with
  | some meant => .continue { mode := .plain 0, read := meant :: read }
  | none =>
    if character = 'u' then .continue { mode := .digits 3 0, read }
    else if character = 'U' then .continue { mode := .digits 7 0, read }
    else if form.isMultiline ∧ character = '\n' then
      .continue { mode := .lineEnd true, read }
    else if form.isMultiline ∧ (character = ' ' ∨ character = '\t') then
      .continue { mode := .lineEnd false, read }
    else .fail

/-- The value of a hexadecimal digit. -/
def hexValue? (character : Char) : Option Nat :=
  if '0' ≤ character ∧ character ≤ '9' then some (character.toNat - '0'.toNat)
  else if 'a' ≤ character ∧ character ≤ 'f' then some (character.toNat - 'a'.toNat + 10)
  else if 'A' ≤ character ∧ character ≤ 'F' then some (character.toNat - 'A'.toNat + 10)
  else none

/-- A digit of a code point. -/
def digitMove (read : Text) (left value : Nat) (character : Char) : Move :=
  match hexValue? character with
  | none => .fail
  | some digit =>
    let value := 16 * value + digit
    match left with
    | left + 1 => .continue { mode := .digits left value, read }
    | 0 =>
      if value.isValidChar then .continue { mode := .plain 0, read := Char.ofNat value :: read }
      else .fail

/-- A character after a backslash that ends its line. -/
def lineEndMove (form : StringForm) (passed : Bool) (read : Text) (character : Char) : Move :=
  if character = ' ' ∨ character = '\t' then .continue { mode := .lineEnd passed, read }
  else if character = '\n' then .continue { mode := .lineEnd true, read }
  else if passed then form.textMove 0 read character
  else .fail

/-- What a character leads to in a state. -/
def move (form : StringForm) (state : State) (character : Char) : Move :=
  match state.mode with
  | .plain quotes => form.textMove quotes state.read character
  | .escape => form.escapeMove state.read character
  | .digits left value => digitMove state.read left value character
  | .lineEnd passed => form.lineEndMove passed state.read character

/-- Reads on to the closing delimiter: the text, and what follows the delimiter. -/
def readFrom (form : StringForm) (state : State) : Text → Option (Text × Text)
  | [] =>
    match state.mode with
    | .plain quotes =>
      if 3 ≤ quotes then some ((form.withQuotes (quotes - 3) state.read).reverse, []) else none
    | _ => none
  | character :: rest =>
    match form.move state character with
    | .continue next => form.readFrom next rest
    | .close text => some (text, rest)
    | .closed text => some (text, character :: rest)
    | .fail => none

/-- Reads a text after its opening delimiter. -/
def readBody (form : StringForm) (source : Text) : Option (Text × Text) :=
  form.readFrom { mode := .plain 0, read := [] } source

/-- Reads a text in a one-line form, as keys must be. -/
def readSingle : Text → Option (Text × Text)
  | '"' :: rest => basic.readBody rest
  | '\'' :: rest => literal.readBody rest
  | _ => none

/-- Leaves out a newline right after an opening delimiter. -/
def dropNewline : Text → Text
  | '\n' :: rest => rest
  | source => source

/-- Reads a text in any form. -/
def read : Text → Option (Text × Text)
  | '"' :: '"' :: '"' :: rest => multilineBasic.readBody (dropNewline rest)
  | '\'' :: '\'' :: '\'' :: rest => multilineLiteral.readBody (dropNewline rest)
  | source => readSingle source

end Inlay.Toml.StringForm
