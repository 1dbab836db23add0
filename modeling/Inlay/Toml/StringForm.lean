/-
This file describes the four forms in which TOML writes a text between quotes.

Basic forms stand between double quotes and have escapes; literal forms stand between single quotes
and show every character as it is. Either has a one-line form with one quote on each side, and a
form with three that may hold newlines.
-/
import Inlay.Text.Basic

namespace Inlay.Toml

/-- The form in which a text is written between quotes. -/
inductive StringForm
  | basic
  | literal
  | multilineBasic
  | multilineLiteral
  deriving DecidableEq, Repr

namespace StringForm

/-- The character that opens and closes the form. -/
def quote : StringForm → Char
  | .basic | .multilineBasic => '"'
  | .literal | .multilineLiteral => '\''

/-- Whether a backslash starts an escape. -/
def hasEscapes : StringForm → Bool
  | .basic | .multilineBasic => true
  | .literal | .multilineLiteral => false

/-- Whether newlines may stand between the quotes. -/
def isMultiline : StringForm → Bool
  | .basic | .literal => false
  | .multilineBasic | .multilineLiteral => true

/-- What opens and closes the form. -/
def delimiter (form : StringForm) : Text :=
  if form.isMultiline then [form.quote, form.quote, form.quote] else [form.quote]

end StringForm

/-- Whether a character other than a newline may stand for itself, between quotes and in comments:
all but the control characters of ASCII, of which the tab alone may. -/
def mayStand (character : Char) : Bool :=
  character = '\t' || (0x20 ≤ character.toNat && character.toNat ≠ 0x7f)

end Inlay.Toml
