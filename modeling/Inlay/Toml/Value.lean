/-
This file holds the values that a TOML document stands for.

A table keeps its keys in the order of the document, because the order decides which of several
problems a reader meets first. A number with a fraction is the binary64 number nearest to it, kept
by its bits. Nothing looks into a date or a time, so a value only says that it is one.
-/
import Inlay.Text.Basic

namespace Inlay.Toml

/-- A value of a TOML document. -/
inductive Value
  | string (text : Text)
  | integer (number : Int)
  /-- A binary64 number by its bits. -/
  | float (bits : UInt64)
  | boolean (flag : Bool)
  /-- A date, a time, or both. -/
  | moment
  | array (items : List Value)
  | table (entries : List (Text × Value))
  deriving Repr

end Inlay.Toml
