/-
This file recognises numbers.

Digits may be grouped by single underscores. A whole number is decimal with an optional sign and no
needless zero in front, or hexadecimal, octal or binary without a sign, and has to fit into 64 bits
with a sign. A number with a fraction or an exponent, or one of the two special names, is a binary64
number; a positive one beyond the greatest of these is refused. An exponent is not read to its end
once it is far beyond all that these numbers can hold.
-/
import Inlay.Binary64
import Inlay.Toml.StringForm.Reader

namespace Inlay.Toml.Number

/-- The value of a digit to a base of at most sixteen. -/
def digit? (base : Nat) (character : Char) : Option Nat :=
  (StringForm.hexValue? character).filter (· < base)

/-- The values of grouped digits, the last first, in front of those of digits before them. An
underscore needs a digit on either side. -/
def groupedOnto? (base : Nat) (read : List Nat) (afterDigit : Bool) : Text → Option (List Nat)
  | [] => if afterDigit then some read else none
  | '_' :: rest => if afterDigit then groupedOnto? base read false rest else none
  | character :: rest =>
    match digit? base character with
    | some digit => groupedOnto? base (digit :: read) true rest
    | none => none

/-- The values of grouped digits, the last first. -/
def grouped? (base : Nat) (text : Text) : Option (List Nat) := groupedOnto? base [] false text

/-- The values of decimal digits without a needless zero, the last first. -/
def plain? : Text → Option (List Nat)
  | '0' :: _ :: _ => none
  | text => grouped? 10 text

/-! ### The number that digits stand for -/

/-- The number that digits stand for, the last first, read one after the other. -/
def valueOf (base : Nat) (digits : List Nat) : Nat :=
  digits.foldr (fun digit value => digit + base * value) 0

/-- The same number, from halves of the digits. -/
def valueOfHalves (base : Nat) : Nat → List Nat → Nat
  | 0, digits => valueOf base digits
  | levels + 1, digits =>
    let half := digits.length / 2
    valueOfHalves base levels (digits.take half) +
      Nat.pow base half * valueOfHalves base levels (digits.drop half)

theorem valueOf_append (base : Nat) (low high : List Nat) :
    valueOf base (low ++ high) =
      valueOf base low + Nat.pow base low.length * valueOf base high := by
  induction low with
  | nil => simp [valueOf]
  | cons digit low inductionHypothesis =>
    have step (digits : List Nat) :
        valueOf base (digit :: digits) = digit + base * valueOf base digits := rfl
    have power : Nat.pow base (digit :: low).length = base * Nat.pow base low.length :=
      Nat.mul_comm (Nat.pow base low.length) base
    rw [List.cons_append, step, step, inductionHypothesis, power, Nat.mul_add, Nat.mul_assoc,
      Nat.add_assoc]

/-- However often the digits are halved, the number is the same. -/
theorem valueOfHalves_eq (base levels : Nat) (digits : List Nat) :
    valueOfHalves base levels digits = valueOf base digits := by
  induction levels generalizing digits with
  | zero => rfl
  | succ levels inductionHypothesis =>
    have length : (digits.take (digits.length / 2)).length = digits.length / 2 := by
      rw [List.length_take]
      exact Nat.min_eq_left (Nat.div_le_self _ _)
    have joined := valueOf_append base (digits.take (digits.length / 2))
      (digits.drop (digits.length / 2))
    rw [List.take_append_drop, length] at joined
    rw [valueOfHalves, inductionHypothesis, inductionHypothesis, joined]

/-- The number that digits stand for, the last first. Halving down to single digits keeps the cost
of long numbers low. -/
def numberOf (base : Nat) (digits : List Nat) : Nat :=
  valueOfHalves base digits.length.log2 digits

/-! ### Whole numbers -/

/-- A sign and what follows it; nothing is a plus too. -/
def signed : Text → Bool × Text
  | '-' :: rest => (true, rest)
  | '+' :: rest => (false, rest)
  | text => (false, text)

/-- A whole number, if it fits. -/
def inRange? (number : Int) : Option Int :=
  if Int64.minValue.toInt ≤ number ∧ number ≤ Int64.maxValue.toInt then some number else none

/-- The whole number that a text stands for. -/
def integer? : Text → Option Int
  | '0' :: 'x' :: digits => (grouped? 16 digits).bind fun digits => inRange? (numberOf 16 digits)
  | '0' :: 'o' :: digits => (grouped? 8 digits).bind fun digits => inRange? (numberOf 8 digits)
  | '0' :: 'b' :: digits => (grouped? 2 digits).bind fun digits => inRange? (numberOf 2 digits)
  | text =>
    let (negative, digits) := signed text
    (plain? digits).bind fun digits =>
      let number := numberOf 10 digits
      inRange? (if negative then -number else number)

/-! ### Numbers with a fraction or an exponent -/

/-- The parts of a text before and after the first character of a kind; none after it if there is
no such character. -/
def splitAtFirst (isMark : Char → Bool) (text : Text) : Text × Option Text :=
  let before := text.takeWhile fun character => !isMark character
  (before, (text.drop before.length).tail?)

/-- As soon as the digits of an exponent have come to this number, those after them do not count. -/
def exponentBound : Nat := 0x10000

/-- The exponent that digits stand for, the last first. -/
def exponentOf (digits : List Nat) : Nat :=
  digits.foldr
    (fun digit value => if value < exponentBound then digit + 10 * value else value) 0

/-- The decimal that a text with a fraction or an exponent stands for, without a sign. -/
def decimal? (text : Text) : Option Binary64.Decimal := do
  let (significand, exponent) := splitAtFirst (fun c => c = 'e' || c = 'E') text
  let (whole, fraction) := splitAtFirst (· = '.') significand
  let whole ← plain? whole
  if exponent.isNone ∧ fraction.isNone then none
  let exponent ←
    match exponent with
    | none => some (0 : Int)
    | some text =>
      let (negative, digits) := signed text
      (grouped? 10 digits).map fun digits =>
        let exponent : Int := exponentOf digits
        if negative then -exponent else exponent
  match fraction with
  | none => return { digits := numberOf 10 whole, exponent }
  | some fraction =>
    let places ← grouped? 10 fraction
    return { digits := numberOf 10 (places ++ whole), exponent := exponent - places.length }

/-- The number with a fraction, an exponent or a special name that a text stands for. -/
def float? (text : Text) : Option UInt64 :=
  let (negative, rest) := signed text
  let sign := if negative then Binary64.signBit else 0
  if rest = ['i', 'n', 'f'] then some (sign ||| Binary64.infinity)
  else if rest = ['n', 'a', 'n'] then some (sign ||| Binary64.notANumber)
  else
    match decimal? rest with
    | none => none
    | some decimal =>
      let bits := Binary64.ofDecimal decimal
      if bits = Binary64.infinity ∧ !negative then none else some (sign ||| bits)

end Inlay.Toml.Number
