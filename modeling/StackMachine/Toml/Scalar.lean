import StackMachine.Text.Numeral
import StackMachine.Text.Fields

/-! The literals of numbers and of dates and times: which texts are well formed. -/
namespace StackMachine.Toml

/-- The byte is a decimal digit. -/
def isDigit (b : UInt8) : Bool :=
  48 ≤ b && b ≤ 57

/-- The byte is a hexadecimal digit. -/
def isHexDigit (b : UInt8) : Bool :=
  isDigit b || (97 ≤ b && b ≤ 102) || (65 ≤ b && b ≤ 70)

namespace Scalar

/-- Every underscore follows a digit, and the text ends in a digit. -/
def digitsGrouped : Bool → Bytes → Bool
  | afterDigit, [] => afterDigit
  | afterDigit, b :: rest => (b != 95 || afterDigit) && digitsGrouped (isHexDigit b) rest

/-- A zero stands in front of more, other than to announce a base. -/
def hasLeadingZero : Bytes → Bool
  | 48 :: mark :: _ => !(mark == 98 || mark == 111 || mark == 120)
  | sign :: 48 :: _ :: _ => sign == 43 || sign == 45
  | _ => false

/-- The value of an integer literal. -/
def integer? (literal : Bytes) : Option Int64 :=
  if digitsGrouped false literal && !hasLeadingZero literal then
    match Text.Numeral.readInt64 literal with
    | .ok n => some n
    | .error _ => none
  else none

/-- Every point has a digit after it. -/
def pointsFollowed : Bytes → Bool
  | [] => true
  | 46 :: rest =>
    match rest with
    | b :: _ => isDigit b && pointsFollowed rest
    | [] => false
  | _ :: rest => pointsFollowed rest

/-- The value of decimal digits. -/
def magnitude (digits : Bytes) : Nat :=
  digits.foldl (fun n b => n * 10 + (b.toNat - 48)) 0

/-- The value of an exponent, of which only the first few digits count: the number is far out
of range by then. -/
def exponent (digits : Bytes) : Nat :=
  digits.foldl (fun n b => if n < 10000 then n * 10 + (b.toNat - 48) else n) 0

/-- The least number that rounds to more than the greatest finite double. -/
def overflow : Nat := Nat.pow 2 1024 - Nat.pow 2 970

/-- The value `m * 10 ^ (up - down)` is finite as a double. -/
def isFinite (m up down : Nat) : Bool :=
  m * Nat.pow 10 (up - down) < overflow * Nat.pow 10 (down - up)

/-- Digits, an optional fraction and an optional exponent, whose value is in range. -/
def isFloatValue (text : Bytes) : Bool :=
  let (_, unsigned) := Text.Decimal.splitSign text
  let (whole, afterWhole) := unsigned.span isDigit
  let (fraction, afterFraction) : Bytes × Bytes :=
    match afterWhole with
    | 46 :: rest => rest.span isDigit
    | rest => ([], rest)
  let m := magnitude (whole ++ fraction)
  match afterFraction with
  | [] => !(whole ++ fraction).isEmpty && isFinite m 0 fraction.length
  | mark :: rest =>
    let (negative, digits) := Text.Decimal.splitSign rest
    let e := exponent digits
    (mark == 101 || mark == 69) && !(whole ++ fraction).isEmpty &&
      !digits.isEmpty && digits.all isDigit &&
      (if negative then isFinite m 0 (fraction.length + e) else isFinite m e fraction.length)

/-- The text is a floating-point literal. -/
def isFloat (literal : Bytes) : Bool :=
  let separators := literal.map fun b => if b == 46 || b == 101 || b == 69 then 46 else b
  let parts := Text.fields 46 separators
  parts.all (digitsGrouped false) && !((parts.head?.map hasLeadingZero).getD false) &&
    pointsFollowed literal && isFloatValue (literal.filter (· != 95))

/-- The value of the two digits that the text starts with, and the rest. -/
def twoDigits? : Bytes → Option (Nat × Bytes)
  | a :: b :: rest =>
    if isDigit a && isDigit b then some (magnitude [a, b], rest) else none
  | _ => none

/-- The number of days in a month. -/
def daysIn (year month : Nat) : Nat :=
  if month = 2 then if year % 4 = 0 ∧ (year % 100 ≠ 0 ∨ year % 400 = 0) then 29 else 28
  else if month = 4 ∨ month = 6 ∨ month = 9 ∨ month = 11 then 30
  else 31

/-- What follows the date that the text starts with. -/
def afterDate? : Bytes → Option Bytes
  | a :: b :: c :: d :: 45 :: rest =>
    match twoDigits? rest with
    | some (month, 45 :: rest₁) =>
      match twoDigits? rest₁ with
      | some (day, rest₂) =>
        if [a, b, c, d].all isDigit && 1 ≤ month && month ≤ 12 && 1 ≤ day &&
            day ≤ daysIn (magnitude [a, b, c, d]) month then some rest₂ else none
      | none => none
    | _ => none
  | _ => none

/-- What follows the seconds, which may be left out, and their fraction. -/
def afterSeconds? : Bytes → Option Bytes
  | 58 :: rest =>
    match twoDigits? rest with
    | some (second, rest₁) =>
      if second < 60 then
        match rest₁ with
        | 46 :: d :: rest₂ => if isDigit d then some (rest₂.dropWhile isDigit) else none
        | _ => some rest₁
      else none
    | none => none
  | rest => some rest

/-- What follows the time of day that the text starts with. -/
def afterTime? (text : Bytes) : Option Bytes :=
  match twoDigits? text with
  | some (hour, 58 :: rest) =>
    match twoDigits? rest with
    | some (minute, rest₁) => if hour < 24 && minute < 60 then afterSeconds? rest₁ else none
    | none => none
  | _ => none

/-- The text is an offset from universal time. -/
def isOffset : Bytes → Bool
  | [90] => true
  | sign :: rest =>
    match twoDigits? rest with
    | some (hour, 58 :: rest₁) =>
      match twoDigits? rest₁ with
      | some (minute, []) => (sign == 43 || sign == 45) && hour ≤ 24 && minute ≤ 60
      | _ => false
    | _ => false
  | [] => false

/-- The text is a date, a time of day, or both with or without an offset. -/
def isMoment (literal : Bytes) : Bool :=
  let text := literal.map fun b => if b == 122 then 90 else if b == 116 || b == 32 then 84 else b
  match afterDate? text with
  | some [] => true
  | some (84 :: rest) =>
    match afterTime? rest with
    | some [] => true
    | some offset => isOffset offset
    | none => false
  | some _ => false
  | none => afterTime? text == some []

end Scalar

end StackMachine.Toml
