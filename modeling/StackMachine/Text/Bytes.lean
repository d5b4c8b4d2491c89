/-! Texts are byte strings. Nothing promises that they are well-formed UTF-8, so every
reader of a text says for itself what it does with a byte that starts no character. -/
namespace StackMachine

/-- A text: a sequence of bytes. -/
abbrev Bytes := List UInt8

/-- The UTF-8 bytes of a text constant. -/
def utf8 (s : String) : Bytes :=
  s.toList.flatMap String.utf8EncodeChar

namespace Bytes

/-- The texts in order with `sep` between neighbours. -/
def join (sep : Bytes) : List Bytes → Bytes
  | [] => []
  | [t] => t
  | t :: rest => t ++ sep ++ join sep rest

/-- `head` is an initial segment of the text. -/
def startsWith (text head : Bytes) : Bool :=
  head.isPrefixOf text

/-- `tail` is a final segment of the text. -/
def endsWith (text tail : Bytes) : Bool :=
  tail.isSuffixOf text

/-- `part` stands somewhere in the text. -/
def occurs (part : Bytes) : Bytes → Bool
  | [] => part.isEmpty
  | b :: rest => part.isPrefixOf (b :: rest) || occurs part rest

/-- The text without its final `byte`, if it ends in one; at most one is removed. -/
def dropFinal (byte : UInt8) (text : Bytes) : Bytes :=
  if text.getLast? = some byte then text.dropLast else text

/-- The text without the longest run of `byte` at its end. -/
def trimEnd (byte : UInt8) (text : Bytes) : Bytes :=
  (text.reverse.dropWhile (· == byte)).reverse

/-- ASCII capital letters become small ones; every other byte stays. -/
def asciiLower (text : Bytes) : Bytes :=
  text.map fun b => if 65 ≤ b ∧ b ≤ 90 then b + 32 else b

/-- Every occurrence of `old`, found from the left without overlap, replaced by `new`.
An empty `old` replaces nothing. -/
def replaceAll (old new : Bytes) : Bytes → Bytes :=
  go 0
where
  go (skip : Nat) : Bytes → Bytes
    | [] => []
    | b :: rest =>
      match skip with
      | n + 1 => go n rest
      | 0 =>
        if old ≠ [] ∧ old.isPrefixOf (b :: rest) then new ++ go (old.length - 1) rest
        else b :: go 0 rest

end Bytes

/-- The byte that ends a line. -/
def newline : UInt8 := 10

/-- The byte that may stand before a newline. -/
def carriageReturn : UInt8 := 13

/-- The byte that separates words. -/
def space : UInt8 := 32

end StackMachine
