/-
This file writes a text between quotes, in the first form that shows it best.

A text without newlines goes into a one-line form, a basic one if nothing in it needs an escape and
a literal one if single quotes do not stand in the way. Otherwise it goes into a multiline form that
shows it as it is, and into a basic form with escapes if there is none. A multiline form starts on a
line of its own only if the text has a newline; that first newline is not read back.

At most two double quotes may stand together in a multiline basic form, so the third is escaped, and
after any escape the count starts anew.
-/
import Inlay.Toml.StringForm

namespace Inlay.Toml.StringForm

/-! ### The choice of a form -/

/-- Whether a character is a control character of ASCII other than tab and newline. -/
def isControl (character : Char) : Bool :=
  character ≠ '\n' && !mayStand character

/-- The length of the longest run of a character in a text. -/
def longestRun (character : Char) (text : Text) : Nat :=
  let step (run : Nat × Nat) (other : Char) : Nat × Nat :=
    if other = character then (run.1 + 1, max run.2 (run.1 + 1)) else (0, run.2)
  (text.foldl step (0, 0)).2

/-- The form that a text is written in. -/
def choice (text : Text) : StringForm :=
  let plain := !text.any isControl
  let single := !text.contains '\n'
  if plain && single && !text.contains '\\' && !text.contains '"' then .basic
  else if plain && single && !text.contains '\'' then .literal
  else if plain && !text.contains '\\' && longestRun '"' text ≤ 2 then .multilineBasic
  else if plain && longestRun '\'' text ≤ 2 then .multilineLiteral
  else if single then .basic
  else .multilineBasic

/-! ### Writing -/

/-- A code point of at most four hexadecimal digits, in four upper-case digits. -/
def codePoint (number : Nat) : Text :=
  let digit (value : Nat) : Char := (Nat.digitChar (value % 16)).toUpper
  [digit (number / 4096), digit (number / 256), digit (number / 16), digit number]

/-- The escape for a character, if it needs one wherever it stands. -/
def escape? (form : StringForm) (character : Char) : Option Text :=
  match character with
  | '\x08' => some ['\\', 'b']
  | '\t' => some ['\\', 't']
  | '\x0c' => some ['\\', 'f']
  | '\r' => some ['\\', 'r']
  | '\\' => some ['\\', '\\']
  | '\n' => if form.isMultiline then none else some ['\\', 'n']
  | other => if mayStand other then none else some (['\\', 'u'] ++ codePoint other.toNat)

/-- How many quotes may stand together as they are. -/
def quoteRun (form : StringForm) : Nat := if form.isMultiline then 2 else 0

/-- One character in a basic form after so many quotes in a row, and the quotes in a row after. -/
def writeCharacter (form : StringForm) (quotes : Nat) (character : Char) : Text × Nat :=
  if character = '"' then
    if quotes < form.quoteRun then (['"'], quotes + 1) else (['\\', '"'], 0)
  else
    match form.escape? character with
    | some escape => (escape, 0)
    | none => ([character], 0)

/-- The text between the quotes of a basic form: what is written so far comes in reverse. -/
def writeEscaped (form : StringForm) (written : Text) (quotes : Nat) : Text → Text
  | [] => written.reverse
  | character :: text =>
    let (shown, quotes) := form.writeCharacter quotes character
    form.writeEscaped (shown.reverse ++ written) quotes text

/-- The text in a form, with its delimiters. -/
def writeIn (form : StringForm) (text : Text) : Text :=
  let first := if form.isMultiline ∧ '\n' ∈ text then ['\n'] else []
  let body := if form.hasEscapes then form.writeEscaped [] 0 text else text
  form.delimiter ++ first ++ body ++ form.delimiter

/-- The text in the form that suits it. -/
def write (text : Text) : Text := (choice text).writeIn text

end Inlay.Toml.StringForm
