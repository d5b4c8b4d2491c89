import StackMachine.Text.Utf8
import StackMachine.Toml.Scalar

/-! Quoted texts: basic ones with escapes, literal ones without, each on one line or on
several. -/
namespace StackMachine.Toml

/-- A quoted text, and what follows its closing quotes. -/
abbrev Quotation := Option (Bytes × Bytes)

namespace Quotation

/-- More text in front of the quotation. -/
def after (text : Bytes) (q : Quotation) : Quotation :=
  q.map fun (rest, input) => (text ++ rest, input)

end Quotation

/-- The code point of hexadecimal digits, if it is a scalar value. -/
def codePoint? (digits : Bytes) : Option Bytes :=
  if digits.all isHexDigit then
    let code := digits.foldl (fun n b => n * 16 + (Text.Decimal.digitValue? b).getD 0) 0
    if Text.Utf8.isScalar code then some (Text.Utf8.encode code) else none
  else none

/-- What stands for an escape after its backslash, and the number of bytes it takes. -/
def escape? : Bytes → Option (Bytes × Nat)
  | 98 :: _ => some ([8], 1)
  | 116 :: _ => some ([9], 1)
  | 110 :: _ => some ([10], 1)
  | 102 :: _ => some ([12], 1)
  | 114 :: _ => some ([13], 1)
  | 101 :: _ => some ([27], 1)
  | 34 :: _ => some ([34], 1)
  | 92 :: _ => some ([92], 1)
  | 120 :: a :: b :: _ => (codePoint? [a, b]).map (·, 3)
  | 117 :: a :: b :: c :: d :: _ => (codePoint? [a, b, c, d]).map (·, 5)
  | 85 :: a :: b :: c :: d :: e :: f :: g :: h :: _ =>
    (codePoint? [a, b, c, d, e, f, g, h]).map (·, 9)
  | _ => none

/-- Reads to the quote that closes a basic text. The first `skip` bytes have been read as part
of an escape. -/
def readBasic : Nat → Bytes → Quotation
  | _, [] => none
  | skip + 1, _ :: rest => readBasic skip rest
  | 0, b :: rest =>
    if b = 34 then some ([], rest)
    else if b = 10 || b = 13 then none
    else if b = 92 then
      match escape? rest with
      | none => none
      | some (text, width) => (readBasic width rest).after text
    else (readBasic 0 rest).after [b]

/-- Reads to the quote that closes a literal text. -/
def readLiteral : Bytes → Quotation
  | [] => none
  | b :: rest =>
    if b = 39 then some ([], rest)
    else if b = 10 || b = 13 then none
    else (readLiteral rest).after [b]

/-- The text without the newline it starts with. -/
def dropFirstNewline : Bytes → Bytes
  | 10 :: rest => rest
  | 13 :: 10 :: rest => rest
  | text => text

/-- The byte is a space, a tab, or part of a newline. -/
def isGap (b : UInt8) : Bool :=
  b == 32 || b == 9 || b == 10 || b == 13

/-- What a run of three or more quotes does in a text of several lines: it closes the text if
no fourth one follows; otherwise the first one belongs to the text, unless five have been seen
already. `seen` counts the quotes just before, and `escaped` tells whether a backslash
precedes these. -/
inductive QuoteRun where
  | closes (rest : Bytes)
  | continues
  | tooMany

/-- Looks at what follows a quote. -/
def quoteRun (quote : UInt8) (seen : Nat) (escaped : Bool) : Bytes → QuoteRun
  | a :: b :: rest =>
    if a == quote && b == quote then
      match rest with
      | c :: _ =>
        if c == quote then
          if seen + 3 < 5 || (seen + 3 == 5 && escaped) then .continues else .tooMany
        else .closes rest
      | [] => .closes rest
    else .continues
  | _ => .continues

/-- Reads to the quotes that close a basic text of several lines. A backslash at the end of a
line takes with it the blanks and newlines that follow. -/
def readBasicLines : Nat → Nat → Bool → Bytes → Quotation
  | _, _, _, [] => none
  | skip + 1, seen, escaped, _ :: rest => readBasicLines skip seen escaped rest
  | 0, seen, escaped, b :: rest =>
    if b = 34 then
      match quoteRun 34 seen escaped rest with
      | .closes after => some ([], after)
      | .continues => (readBasicLines 0 (seen + 1) escaped rest).after [b]
      | .tooMany => none
    else if b = 92 then
      let gap := rest.takeWhile isGap
      if !gap.isEmpty then
        if gap.contains 10 then readBasicLines gap.length 0 false rest else none
      else
        match escape? rest with
        | none => none
        | some (text, width) =>
          let seen := if text = [34] && width == 1 then 1 else 0
          let escaped := width == 1 && (text = [34] || text = [92])
          (readBasicLines width seen escaped rest).after text
    else (readBasicLines 0 0 false rest).after [b]

/-- Reads to the quotes that close a literal text of several lines. -/
def readLiteralLines : Nat → Bytes → Quotation
  | _, [] => none
  | seen, b :: rest =>
    if b = 39 then
      match quoteRun 39 seen false rest with
      | .closes after => some ([], after)
      | .continues => (readLiteralLines (seen + 1) rest).after [b]
      | .tooMany => none
    else (readLiteralLines 0 rest).after [b]

/-- Reads a quoted text of either kind; `none` if the input does not start with one. -/
def readQuoted : Bytes → Quotation
  | 34 :: 34 :: 34 :: rest => readBasicLines 0 0 false (dropFirstNewline rest)
  | 39 :: 39 :: 39 :: rest => readLiteralLines 0 (dropFirstNewline rest)
  | 34 :: rest => readBasic 0 rest
  | 39 :: rest => readLiteral rest
  | _ => none

end StackMachine.Toml
