/-
This file recognises dates and times.

A date is year, month and day and must be one of the calendar; a time is hour, minute and second
with an optional fraction, and the second may be a leap second. A time after a date may come with
an offset from universal time. The parts have fixed widths, so each reader takes its digits by
position and gives back what follows.
-/
import Inlay.Text.Basic

namespace Inlay.Toml.Moment

/-- The value of a decimal digit. -/
def digit? (character : Char) : Option Nat :=
  if character.isDigit then some (character.toNat - '0'.toNat) else none

/-- The number that two digits stand for. -/
def pair? (tens ones : Char) : Option Nat := do
  let tens ← digit? tens
  let ones ← digit? ones
  return 10 * tens + ones

/-- Whether a year has a 29th of February. -/
def isLeap (year : Nat) : Bool := year % 4 == 0 && (year % 100 != 0 || year % 400 == 0)

/-- The number of days of a month. -/
def daysIn (year month : Nat) : Nat :=
  if month = 2 then if isLeap year then 29 else 28
  else if month = 4 ∨ month = 6 ∨ month = 9 ∨ month = 11 then 30
  else 31

/-- What follows a date. -/
def afterDate? : Text → Option Text
  | y₁ :: y₂ :: y₃ :: y₄ :: '-' :: m₁ :: m₂ :: '-' :: d₁ :: d₂ :: rest => do
    let century ← pair? y₁ y₂
    let year ← pair? y₃ y₄
    let month ← pair? m₁ m₂
    let day ← pair? d₁ d₂
    if 1 ≤ month ∧ month ≤ 12 ∧ 1 ≤ day ∧ day ≤ daysIn (100 * century + year) month then
      some rest
    else none
  | _ => none

/-- What follows the fraction of a second, which needs a digit if it is there. -/
def afterFraction? : Text → Option Text
  | '.' :: rest =>
    if rest.takeWhile Char.isDigit = [] then none else some (rest.dropWhile Char.isDigit)
  | rest => some rest

/-- What follows a time. -/
def afterTime? : Text → Option Text
  | h₁ :: h₂ :: ':' :: m₁ :: m₂ :: ':' :: s₁ :: s₂ :: rest => do
    let hour ← pair? h₁ h₂
    let minute ← pair? m₁ m₂
    let second ← pair? s₁ s₂
    if hour ≤ 23 ∧ minute ≤ 59 ∧ second ≤ 60 then afterFraction? rest else none
  | _ => none

/-- Whether a text is empty or an offset from universal time. -/
def isOffset : Text → Bool
  | [] => true
  | ['Z'] => true
  | ['z'] => true
  | [sign, h₁, h₂, ':', m₁, m₂] =>
    match pair? h₁ h₂, pair? m₁ m₂ with
    | some hour, some minute => (sign = '+' || sign = '-') && hour ≤ 23 && minute ≤ 59
    | _, _ => false
  | _ => false

/-- Whether a text is a time with or without an offset. -/
def isTimeWithOffset (text : Text) : Bool := (afterTime? text).any isOffset

/-- Whether a text is a date alone. -/
def isDate (text : Text) : Bool := afterDate? text = some []

/-- Whether a text is a date, a time, or a date and a time joined by the letter T. -/
def isMoment (text : Text) : Bool :=
  isDate text || afterTime? text = some [] ||
    match afterDate? text with
    | some ('T' :: rest) => isTimeWithOffset rest
    | some ('t' :: rest) => isTimeWithOffset rest
    | _ => false

end Inlay.Toml.Moment
