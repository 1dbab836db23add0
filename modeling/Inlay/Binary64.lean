/-
This file reads decimals as binary64 numbers and writes these with the fewest digits.

Of all decimals that are nearer to a number than to any other, the written one has the fewest
digits, and of those it is the nearest; of two equally near ones it is the greater. The search goes
through the digit counts in order: for each it takes the two neighbours of the number among the
decimals with that many digits and keeps those that still read as the number, all in whole numbers.
The result is written out by position, never with an exponent, and always with a point.
-/
import Inlay.Text.Basic

namespace Inlay.Binary64

/-! ### The parts of a number -/

/-- Whether the sign bit is set. -/
def isNegative (bits : UInt64) : Bool := bits >>> 63 = 1

/-- The exponent field. -/
def field (bits : UInt64) : Nat := ((bits >>> 52) &&& 0x7ff).toNat

/-- The fraction field. -/
def fraction (bits : UInt64) : Nat := (bits &&& 0xfffffffffffff).toNat

/-- A finite number is its significand times two to the power of `scale` less 1074. -/
def significand (bits : UInt64) : Nat :=
  if field bits = 0 then fraction bits else fraction bits + Nat.pow 2 52

/-- The exponent field as a power of two, the least power for the smallest numbers too. -/
def scale (bits : UInt64) : Nat := field bits - 1

/-! ### The fewest digits -/

/-- A decimal: the digits as one number, times ten to the exponent. -/
structure Decimal where
  digits : Nat
  exponent : Int
  deriving DecidableEq, Repr

/-- A quotient of two whole numbers. -/
structure Ratio where
  numerator : Nat
  denominator : Nat

/-- The value of a decimal. -/
def Decimal.ratio (decimal : Decimal) : Ratio :=
  { numerator := decimal.digits * Nat.pow 10 decimal.exponent.toNat
    denominator := Nat.pow 10 (-decimal.exponent).toNat }

/-- The significand times four and this offset, on the scale of a number. A quarter of a unit of
the significand is the finest step that the ends of its interval need. -/
def quarters (bits : UInt64) (number : Nat) : Ratio :=
  { numerator := number * Nat.pow 2 (scale bits), denominator := Nat.pow 2 1076 }

/-- The decimals that read as a number lie above this end and below `upperEnd`; the ends count if
the significand is even. This end is nearer when the significand is the least of its exponent. -/
def lowerEnd (bits : UInt64) : Ratio :=
  quarters bits (4 * significand bits - if fraction bits = 0 ∧ 1 < field bits then 1 else 2)

/-- The other end of the interval that starts at `lowerEnd`. -/
def upperEnd (bits : UInt64) : Ratio := quarters bits (4 * significand bits + 2)

/-- Whether one ratio is less than another. Denominators are never zero. -/
def Ratio.less (first second : Ratio) : Bool :=
  first.numerator * second.denominator < second.numerator * first.denominator

/-- Whether a decimal reads as the number. -/
def readsAs (bits : UInt64) (decimal : Decimal) : Bool :=
  let value := decimal.ratio
  if significand bits % 2 = 0 then
    !value.less (lowerEnd bits) && !(upperEnd bits).less value
  else (lowerEnd bits).less value && value.less (upperEnd bits)

/-- The exponent of the first digit of a ratio: counted down from a bound until the power of ten is
no greater. -/
def magnitude (ratio : Ratio) : Nat → Int → Int
  | 0, exponent => exponent
  | bound + 1, exponent =>
    if ratio.less ({ digits := 1, exponent } : Decimal).ratio then
      magnitude ratio bound (exponent - 1)
    else exponent

/-- The decimal with its last digits cut off so that the exponent is at least this. -/
def cut (ratio : Ratio) (exponent : Int) : Decimal :=
  { digits := ratio.numerator * Nat.pow 10 (-exponent).toNat /
      (ratio.denominator * Nat.pow 10 exponent.toNat)
    exponent }

/-- Whether the upper of two neighbouring decimals is at least as near as the lower. -/
def upperIsNearer (ratio : Ratio) (lower upper : Decimal) : Bool :=
  let sum : Ratio :=
    { numerator := lower.ratio.numerator + upper.ratio.numerator
      denominator := lower.ratio.denominator }
  let double : Ratio := { ratio with numerator := 2 * ratio.numerator }
  !double.less sum

/-- The decimal without a zero as its last digit. -/
def Decimal.reduced (decimal : Decimal) : Decimal :=
  if decimal.digits % 10 = 0 then
    { digits := decimal.digits / 10, exponent := decimal.exponent + 1 }
  else decimal

/-- The nearest decimal with this exponent that reads as the number. The upper neighbour may be a
power of ten, with one digit more. -/
def candidate? (bits : UInt64) (exponent : Int) : Option Decimal :=
  let value := quarters bits (4 * significand bits)
  let lower := cut value exponent
  let upper := { lower with digits := lower.digits + 1 }
  match readsAs bits lower, readsAs bits upper with
  | true, true => some (if upperIsNearer value lower upper then upper.reduced else lower)
  | true, false => some lower
  | false, true => some upper.reduced
  | false, false => none

/-- The decimal with the fewest digits that reads as a finite number other than zero. -/
def shortest (bits : UInt64) : Decimal :=
  let value := quarters bits (4 * significand bits)
  let first := magnitude value 640 309
  let candidates := (List.range 17).findSome? fun (count : Nat) => candidate? bits (first - count)
  candidates.getD (cut value (first - 17))

/-! ### Writing -/

/-- The decimal written out by position, with at least one digit on either side of the point. -/
def Decimal.positional (decimal : Decimal) : Text :=
  let digits := Nat.toDigits 10 decimal.digits
  let after := (-decimal.exponent).toNat
  if after = 0 then digits ++ List.replicate decimal.exponent.toNat '0' ++ ['.', '0']
  else
    let padded := List.replicate (after + 1 - digits.length) '0' ++ digits
    padded.take (padded.length - after) ++ '.' :: padded.drop (padded.length - after)

/-- The text of a number. -/
def text (bits : UInt64) : Text :=
  let sign := if isNegative bits then ['-'] else []
  if field bits = 0x7ff then
    if fraction bits = 0 then sign ++ ['i', 'n', 'f'] else ['N', 'a', 'N']
  else if significand bits = 0 then sign ++ ['0', '.', '0']
  else sign ++ (shortest bits).positional

/-! ### Reading -/

/-- The positive infinity. -/
def infinity : UInt64 := 0x7ff0000000000000

/-- What is not a number, without a sign. -/
def notANumber : UInt64 := 0x7ff8000000000000

/-- The bit that makes a number negative. -/
def signBit : UInt64 := 0x8000000000000000

/-- The nearest number to a decimal that is not negative. Decimals far outside the range of the
numbers are not computed; their magnitude is told from the length of their digits in binary. -/
def ofDecimal (decimal : Decimal) : UInt64 :=
  let magnitude : Int := (decimal.digits.log2 * 30103 / 100000 : Nat) + decimal.exponent
  if decimal.digits = 0 ∨ magnitude < -400 then 0
  else if 400 < magnitude then infinity
  else (Float.ofScientific decimal.digits (decimal.exponent < 0) decimal.exponent.natAbs).toBits

end Inlay.Binary64
