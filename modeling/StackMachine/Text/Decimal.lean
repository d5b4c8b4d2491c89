import StackMachine.Text.Bytes

/-! Integers as decimal text: the one canonical way to write them, and the reader of signed
64-bit operands. -/
namespace StackMachine.Text.Decimal

/-- The digit of a number below ten. -/
def digit (n : Nat) : UInt8 :=
  UInt8.ofNat (48 + n)

/-- The decimal digits of `n`, most significant first, given at least as much fuel as `n` has
digits. -/
def digitsWithin : Nat → Nat → Bytes
  | 0, _ => []
  | fuel + 1, n =>
    if n < 10 then [digit n] else digitsWithin fuel (n / 10) ++ [digit (n % 10)]

/-- The decimal digits of a natural number, without leading zeros. -/
def ofNat (n : Nat) : Bytes :=
  digitsWithin (n + 1) n

/-- An integer in decimal: a minus sign if it is negative, then its digits. -/
def ofInt (n : Int) : Bytes :=
  if n < 0 then 45 :: ofNat n.natAbs else ofNat n.natAbs

/-- A 64-bit integer in decimal. -/
def ofInt64 (n : Int64) : Bytes :=
  ofInt n.toInt

/-- The digits of `n`, filled up with zeros on the left to at least `width` bytes. -/
def padded (width n : Nat) : Bytes :=
  let text := ofNat n
  List.replicate (width - text.length) 48 ++ text

/-- Why a text is not a number of the wanted kind. -/
inductive Problem where
  /-- The text is no numeral. -/
  | malformed
  /-- The text starts like a numeral whose value is too large in size. -/
  | outOfRange
deriving DecidableEq

/-- The byte is one of `0` to `9`. -/
def isDigit (b : UInt8) : Bool :=
  48 ≤ b && b ≤ 57

/-- The value of a digit in a base up to 36; letters of either case stand for ten and more. -/
def digitValue? (b : UInt8) : Option Nat :=
  if isDigit b then some (b.toNat - 48)
  else if 97 ≤ b && b ≤ 122 then some (b.toNat - 87)
  else if 65 ≤ b && b ≤ 90 then some (b.toNat - 55)
  else none

/-- The largest magnitude that a reader carries along. -/
def maxMagnitude : Nat := 0xFFFFFFFFFFFFFFFF

/-- Reads digits from the left onto `value`. A byte that is no digit of the base is
malformed; a digit that takes the value past `maxMagnitude` is out of range at once, whatever
follows it. -/
def readDigits (base : Nat) : Nat → Bytes → Except Problem Nat
  | value, [] => .ok value
  | value, b :: rest =>
    match digitValue? b with
    | none => .error .malformed
    | some d =>
      if d < base then
        if value * base + d ≤ maxMagnitude then readDigits base (value * base + d) rest
        else .error .outOfRange
      else .error .malformed

/-- Whether the text starts with a minus sign, and what follows its sign. -/
def splitSign : Bytes → Bool × Bytes
  | 43 :: rest => (false, rest)
  | 45 :: rest => (true, rest)
  | text => (false, text)

/-- The signed 64-bit integer of the given sign and magnitude. -/
def signed (negative : Bool) (magnitude : Nat) : Except Problem Int64 :=
  if negative then
    if magnitude ≤ 0x8000000000000000 then .ok (Int64.ofInt (-(magnitude : Int)))
    else .error .outOfRange
  else
    if magnitude < 0x8000000000000000 then .ok (Int64.ofInt magnitude) else .error .outOfRange

/-- Reads an optional sign and one or more digits as a signed 64-bit integer. -/
def readInt64 (text : Bytes) : Except Problem Int64 :=
  match splitSign text with
  | (_, []) => .error .malformed
  | (negative, digits) =>
    match readDigits 10 0 digits with
    | .ok magnitude => signed negative magnitude
    | .error problem => .error problem

end StackMachine.Text.Decimal
