import StackMachine.Json.Value

/-! Reading JSON text. -/
namespace StackMachine.Json

/-- The text without leading blanks. -/
def skipBlanks : Bytes → Bytes
  | b :: rest => if b = 32 || b = 9 || b = 10 || b = 13 then skipBlanks rest else b :: rest
  | [] => []

private def hexValue? (b : UInt8) : Option Nat :=
  if 48 ≤ b && b ≤ 57 then some (b.toNat - 48)
  else if 97 ≤ b && b ≤ 102 then some (b.toNat - 87)
  else if 65 ≤ b && b ≤ 70 then some (b.toNat - 55)
  else none

/-- The value of four hexadecimal digits. -/
def unit? (a b c d : UInt8) : Option Nat :=
  match hexValue? a, hexValue? b, hexValue? c, hexValue? d with
  | some a, some b, some c, some d => some (a * 4096 + b * 256 + c * 16 + d)
  | _, _, _, _ => none

private def simpleEscape? : UInt8 → Option UInt8
  | 34 => some 34
  | 92 => some 92
  | 47 => some 47
  | 98 => some 8
  | 102 => some 12
  | 110 => some 10
  | 114 => some 13
  | 116 => some 9
  | _ => none

/-- The unit opens a pair of surrogates. -/
def isHighSurrogate (u : Nat) : Bool :=
  0xD800 ≤ u && u < 0xDC00

/-- The unit closes a pair of surrogates. -/
def isLowSurrogate (u : Nat) : Bool :=
  0xDC00 ≤ u && u < 0xE000

/-- The code point of a pair of surrogates. -/
def pairCode (high low : Nat) : Nat :=
  0x10000 + (high - 0xD800) * 1024 + (low - 0xDC00)

/-- Reads to the closing quote: the text, and what follows the quote. A surrogate without its
partner is read as U+FFFD. -/
def readText : Bytes → Option (Bytes × Bytes)
  | [] => none
  | 34 :: rest => some ([], rest)
  | 92 :: 117 :: a :: b :: c :: d :: rest =>
    match unit? a b c d with
    | none => none
    | some u =>
      match rest with
      | 92 :: 117 :: e :: f :: g :: h :: rest₁ =>
        match unit? e f g h with
        | none => none
        | some v =>
          if isHighSurrogate u && isLowSurrogate v then
            (readText rest₁).map fun (t, r) => (Text.Utf8.encode (pairCode u v) ++ t, r)
          else
            (readText (92 :: 117 :: e :: f :: g :: h :: rest₁)).map fun (t, r) =>
              (Text.Utf8.encode u ++ t, r)
      | rest' => (readText rest').map fun (t, r) => (Text.Utf8.encode u ++ t, r)
  | 92 :: letter :: rest =>
    match simpleEscape? letter with
    | none => none
    | some b => (readText rest).map fun (t, r) => (b :: t, r)
  | b :: rest =>
    if b < 0x20 then none else (readText rest).map fun (t, r) => (b :: t, r)

private def isDigit (b : UInt8) : Bool :=
  48 ≤ b && b ≤ 57

/-- One or more digits at the start of the text. -/
def readDigits (text : Bytes) : Option (Bytes × Bytes) :=
  match text.span isDigit with
  | ([], _) => none
  | (digits, rest) => some (digits, rest)

/-- The whole part of a number: zero, or digits that do not start with one. -/
def readWhole (text : Bytes) : Option (Bytes × Bytes) :=
  match text with
  | 48 :: rest => some ([48], rest)
  | _ => readDigits text

private def readFraction (text : Bytes) : Option (Bytes × Bytes) :=
  match text with
  | 46 :: rest => (readDigits rest).map fun (digits, r) => (46 :: digits, r)
  | _ => some ([], text)

private def readExponent (text : Bytes) : Option (Bytes × Bytes) :=
  match text with
  | mark :: rest =>
    if mark = 101 || mark = 69 then
      match rest with
      | sign :: rest₁ =>
        if sign = 43 || sign = 45 then
          (readDigits rest₁).map fun (digits, r) => (mark :: sign :: digits, r)
        else (readDigits rest).map fun (digits, r) => (mark :: digits, r)
      | [] => none
    else some ([], text)
  | [] => some ([], text)

/-- Reads a number literal. -/
def readNumber (text : Bytes) : Option (Bytes × Bytes) :=
  let (sign, unsigned) : Bytes × Bytes :=
    match text with
    | 45 :: rest => ([45], rest)
    | _ => ([], text)
  match readWhole unsigned with
  | none => none
  | some (whole, rest) =>
    match readFraction rest with
    | none => none
    | some (fraction, rest₁) =>
      (readExponent rest₁).map fun (exponent, rest₂) =>
        (sign ++ whole ++ fraction ++ exponent, rest₂)

mutual

/-- Reads one value; the fuel bounds how many values are begun on the way. -/
def readValue : Nat → Bytes → Option (Json × Bytes)
  | 0, _ => none
  | fuel + 1, input =>
    match skipBlanks input with
    | 110 :: 117 :: 108 :: 108 :: rest => some (.null, rest)
    | 116 :: 114 :: 117 :: 101 :: rest => some (.bool true, rest)
    | 102 :: 97 :: 108 :: 115 :: 101 :: rest => some (.bool false, rest)
    | 34 :: rest => (readText rest).map fun (t, r) => (.text (Text.Utf8.scrub t), r)
    | 91 :: rest =>
      match skipBlanks rest with
      | 93 :: rest₁ => some (.array [], rest₁)
      | rest₁ => (readItems fuel rest₁).map fun (items, r) => (.array items, r)
    | 123 :: rest =>
      match skipBlanks rest with
      | 125 :: rest₁ => some (.object [], rest₁)
      | rest₁ => (readMembers fuel rest₁).map fun (members, r) => (.object members, r)
    | rest => (readNumber rest).map fun (literal, r) => (.number literal, r)

/-- Reads the items of an array and its closing bracket. -/
def readItems : Nat → Bytes → Option (List Json × Bytes)
  | 0, _ => none
  | fuel + 1, input =>
    match readValue fuel input with
    | none => none
    | some (item, rest) =>
      match skipBlanks rest with
      | 44 :: rest₁ => (readItems fuel rest₁).map fun (items, r) => (item :: items, r)
      | 93 :: rest₁ => some ([item], rest₁)
      | _ => none

/-- Reads the members of an object and its closing brace. -/
def readMembers : Nat → Bytes → Option (List (Bytes × Json) × Bytes)
  | 0, _ => none
  | fuel + 1, input =>
    match skipBlanks input with
    | 34 :: rest =>
      match readText rest with
      | none => none
      | some (key, rest₁) =>
        match skipBlanks rest₁ with
        | 58 :: rest₂ =>
          match readValue fuel rest₂ with
          | none => none
          | some (value, rest₃) =>
            let member := (Text.Utf8.scrub key, value)
            match skipBlanks rest₃ with
            | 44 :: rest₄ =>
              (readMembers fuel rest₄).map fun (members, r) => (member :: members, r)
            | 125 :: rest₄ => some ([member], rest₄)
            | _ => none
        | _ => none
    | _ => none

end

/-- Reads a text that holds one value and nothing else. -/
def parse (input : Bytes) : Option Json :=
  match readValue (2 * input.length + 1) input with
  | some (value, rest) => if (skipBlanks rest).isEmpty then some value else none
  | none => none

end StackMachine.Json
