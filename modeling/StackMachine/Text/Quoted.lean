import StackMachine.Text.Printable
import StackMachine.Text.Utf8

/-! Texts between double quotes: printable characters stand for themselves, everything else
is written as an escape, so that the quoted text is printable whatever its bytes. -/
namespace StackMachine.Text.Quoted

private def hexDigit (n : Nat) : UInt8 :=
  UInt8.ofNat (if n < 10 then 48 + n else 87 + n)

/-- The lowest `width` hexadecimal digits of `n`. -/
def hex : Nat → Nat → Bytes
  | 0, _ => []
  | width + 1, n => hex width (n / 16) ++ [hexDigit (n % 16)]

/-- The letter of the one-letter escape of a character. -/
def shortEscape? : Nat → Option UInt8
  | 7 => some 97
  | 8 => some 98
  | 12 => some 102
  | 10 => some 110
  | 13 => some 114
  | 9 => some 116
  | 11 => some 118
  | _ => none

/-- A character as it stands between the quotes. -/
def escape (r : Utf8.Rune) : Bytes :=
  match r.code with
  | none => utf8 "\\x" ++ r.bytes.flatMap fun b => hex 2 b.toNat
  | some code =>
    if code = 34 || code = 92 then [92, UInt8.ofNat code]
    else if Printable.isPrintable code then r.bytes
    else
      match shortEscape? code with
      | some letter => [92, letter]
      | none =>
        if code < 0x80 then utf8 "\\x" ++ hex 2 code
        else if code < 0x10000 then utf8 "\\u" ++ hex 4 code
        else utf8 "\\U" ++ hex 8 code

/-- The text between double quotes. -/
def quote (s : Bytes) : Bytes :=
  34 :: (Utf8.runes s).flatMap escape ++ [34]

end StackMachine.Text.Quoted
