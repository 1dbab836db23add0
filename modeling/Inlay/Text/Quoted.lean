/-
This file writes a text between double quotes, so that a message can show any text on one line.

Backslash, double quote, NUL, tab, newline and carriage return have two-character forms; a character
without a visible form of its own is written by its code point in lower-case hexadecimal; every
other character stands for itself, the single quote too.
-/
import Inlay.Text.Unprintable

namespace Inlay.Text

/-- The digits of a number in lower-case hexadecimal. -/
def hexadecimal (number : Nat) : Text := Nat.toDigits 16 number

/-- How one character is written between double quotes. -/
def quotedCharacter (character : Char) : Text :=
  match character with
  | '\x00' => ['\\', '0']
  | '\t' => ['\\', 't']
  | '\n' => ['\\', 'n']
  | '\r' => ['\\', 'r']
  | '"' => ['\\', '"']
  | '\\' => ['\\', '\\']
  | other =>
    if unprintable other then ['\\', 'u', '\x7b'] ++ hexadecimal other.toNat ++ ['\x7d']
    else [other]

/-- A text between double quotes. -/
def quoted (text : Text) : Text := ['"'] ++ text.flatMap quotedCharacter ++ ['"']

end Inlay.Text
