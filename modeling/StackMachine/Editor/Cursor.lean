import StackMachine.Text.Fields

/-! The word at a cursor. Columns count bytes, and a column past the end of a line stands for
its end. -/
namespace StackMachine.Editor

/-- A place in a document: line and column, both from zero. -/
structure Position where
  line : Nat := 0
  character : Nat := 0
deriving DecidableEq

/-- The byte belongs to words: letters, digits, underscore and hyphen. A byte from 0x80 on
counts as the Latin-1 character of that number. -/
def isWordByte (b : UInt8) : Bool :=
  (48 ≤ b && b ≤ 57) || (65 ≤ b && b ≤ 90) || (97 ≤ b && b ≤ 122) || b == 95 || b == 45 ||
    b == 0xAA || b == 0xB5 || b == 0xBA || (0xC0 ≤ b && b != 0xD7 && b != 0xF7)

/-- The line under the cursor and the column clamped to it. -/
def lineAt (text : Bytes) (pos : Position) : Option (Bytes × Nat) :=
  (Text.lines text)[pos.line]?.map fun line => (line, min pos.character line.length)

/-- The longest run of word bytes at the end of the text. -/
def wordBefore (s : Bytes) : Bytes :=
  (s.reverse.takeWhile isWordByte).reverse

/-- The longest run of word bytes at the start of the text. -/
def wordAfter (s : Bytes) : Bytes :=
  s.takeWhile isWordByte

/-- The part of the word under the cursor that stands before it. -/
def fragmentAt (text : Bytes) (pos : Position) : Bytes :=
  match lineAt text pos with
  | none => []
  | some (line, column) => wordBefore (line.take column)

/-- The word under the cursor. -/
def wordAt (text : Bytes) (pos : Position) : Bytes :=
  match lineAt text pos with
  | none => []
  | some (line, column) => wordBefore (line.take column) ++ wordAfter (line.drop column)

end StackMachine.Editor
