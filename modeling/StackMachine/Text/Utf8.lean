import StackMachine.Text.Bytes

/-! The characters of a byte string, and the encoding of a character. A byte that starts no
well-formed character stands alone, so that cutting a text into characters loses nothing. -/
namespace StackMachine.Text.Utf8

/-- One character of a text: its bytes, and its code point unless the byte is stray. -/
structure Rune where
  bytes : Bytes
  code : Option Nat
deriving DecidableEq

/-- What must follow a leading byte: how many continuation bytes, and the range of the first
of them. Overlong forms, surrogates and code points past U+10FFFF are ruled out here. -/
def expected (lead : UInt8) : Option (Nat × UInt8 × UInt8) :=
  if lead < 0xC2 then none
  else if lead ≤ 0xDF then some (1, 0x80, 0xBF)
  else if lead = 0xE0 then some (2, 0xA0, 0xBF)
  else if lead = 0xED then some (2, 0x80, 0x9F)
  else if lead ≤ 0xEF then some (2, 0x80, 0xBF)
  else if lead = 0xF0 then some (3, 0x90, 0xBF)
  else if lead ≤ 0xF3 then some (3, 0x80, 0xBF)
  else if lead = 0xF4 then some (3, 0x80, 0x8F)
  else none

/-- The byte continues a character. -/
def continues (b : UInt8) : Bool :=
  0x80 ≤ b && b ≤ 0xBF

/-- The six payload bits of a continuation byte. -/
def payload (b : UInt8) : Nat :=
  b.toNat % 64

/-- A byte that starts no character. -/
def stray (b : UInt8) : Rune :=
  ⟨[b], none⟩

/-- The text cut into characters. -/
def runes : Bytes → List Rune
  | [] => []
  | b :: rest =>
    if b < 0x80 then ⟨[b], some b.toNat⟩ :: runes rest
    else
      match expected b, rest with
      | some (1, lo, hi), c :: rest1 =>
        if lo ≤ c && c ≤ hi then ⟨[b, c], some (b.toNat % 32 * 64 + payload c)⟩ :: runes rest1
        else stray b :: runes (c :: rest1)
      | some (2, lo, hi), c :: d :: rest2 =>
        if (lo ≤ c && c ≤ hi) && continues d then
          ⟨[b, c, d], some (b.toNat % 16 * 4096 + payload c * 64 + payload d)⟩ :: runes rest2
        else stray b :: runes (c :: d :: rest2)
      | some (3, lo, hi), c :: d :: e :: rest3 =>
        if ((lo ≤ c && c ≤ hi) && continues d) && continues e then
          ⟨[b, c, d, e],
            some (b.toNat % 8 * 262144 + payload c * 4096 + payload d * 64 + payload e)⟩ ::
              runes rest3
        else stray b :: runes (c :: d :: e :: rest3)
      | _, rest' => stray b :: runes rest'

/-- The text is well-formed UTF-8. -/
def valid (s : Bytes) : Bool :=
  (runes s).all fun r => r.code.isSome

/-- The number of characters, a stray byte counting as one. -/
def count (s : Bytes) : Nat :=
  (runes s).length

/-- The code point is a scalar value: in range and no surrogate. -/
def isScalar (code : Nat) : Bool :=
  code < 0xD800 || (0xE000 ≤ code && code ≤ 0x10FFFF)

/-- The replacement character U+FFFD. -/
def replacement : Bytes := [0xEF, 0xBF, 0xBD]

private def byte (n : Nat) : UInt8 := UInt8.ofNat n

/-- The bytes of a code point; what is no scalar value is written as U+FFFD. -/
def encode (code : Nat) : Bytes :=
  if code < 0x80 then [byte code]
  else if code < 0x800 then [byte (0xC0 + code / 64), byte (0x80 + code % 64)]
  else if !isScalar code then replacement
  else if code < 0x10000 then
    [byte (0xE0 + code / 4096), byte (0x80 + code / 64 % 64), byte (0x80 + code % 64)]
  else
    [byte (0xF0 + code / 262144), byte (0x80 + code / 4096 % 64),
      byte (0x80 + code / 64 % 64), byte (0x80 + code % 64)]

/-- The text with every stray byte replaced by U+FFFD. -/
def scrub (s : Bytes) : Bytes :=
  (runes s).flatMap fun r => if r.code.isSome then r.bytes else replacement

end StackMachine.Text.Utf8
