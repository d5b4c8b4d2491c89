import StackMachine.Text.Decimal

/-! Integers whose base is told by a leading `0b`, `0o`, `0x` or `0`, with underscores between
digits. -/
namespace StackMachine.Text.Numeral
open Decimal

private def lower (b : UInt8) : UInt8 :=
  if 65 ≤ b && b ≤ 90 then b + 32 else b

/-- The base that the start of an unsigned numeral announces, and the rest of it. -/
def announced : Bytes → Nat × Bytes
  | 48 :: mark :: d :: rest =>
    if lower mark = 98 then (2, d :: rest)
    else if lower mark = 111 then (8, d :: rest)
    else if lower mark = 120 then (16, d :: rest)
    else (8, mark :: d :: rest)
  | 48 :: rest => (8, rest)
  | text => (10, text)

/-- What stands before a place where an underscore may be. -/
inductive Before where
  | start | digit | underscore | other
deriving DecidableEq

/-- Every underscore has a digit on both sides, where a base mark counts as a digit. -/
def underscoresSeparate (hex : Bool) : Before → Bytes → Bool
  | before, [] => before != .underscore
  | before, b :: rest =>
    if isDigit b || (hex && 97 ≤ lower b && lower b ≤ 102) then
      underscoresSeparate hex .digit rest
    else if b = 95 then before == .digit && underscoresSeparate hex .underscore rest
    else before != .underscore && underscoresSeparate hex .other rest

/-- The underscores of an unsigned numeral are well placed. -/
def underscoresOk : Bytes → Bool
  | 48 :: mark :: rest =>
    if lower mark = 98 || lower mark = 111 then underscoresSeparate false .digit rest
    else if lower mark = 120 then underscoresSeparate true .digit rest
    else underscoresSeparate false .start (48 :: mark :: rest)
  | text => underscoresSeparate false .start text

/-- Reads an unsigned numeral of an announced base. -/
def readMagnitude (text : Bytes) : Except Problem Nat :=
  match text with
  | [] => .error .malformed
  | _ =>
    let (base, digits) := announced text
    match readDigits base 0 (digits.filter (· != 95)) with
    | .error problem => .error problem
    | .ok n => if text.contains 95 && !underscoresOk text then .error .malformed else .ok n

/-- Reads an optional sign and a numeral of an announced base as a signed 64-bit integer. -/
def readInt64 (text : Bytes) : Except Problem Int64 :=
  let (negative, rest) := splitSign text
  match readMagnitude rest with
  | .ok magnitude => signed negative magnitude
  | .error problem => .error problem

end StackMachine.Text.Numeral
