import StackMachine.Text.Bytes

/-! Cutting a text into pieces, fields and lines. -/
namespace StackMachine.Text

/-- The pieces between the occurrences of `sep`, empty ones included; there is always one
piece more than there are separators. -/
def pieces (sep : UInt8) : Bytes → List Bytes
  | [] => [[]]
  | b :: rest =>
    if b = sep then [] :: pieces sep rest
    else
      match pieces sep rest with
      | [] => [[b]]
      | p :: ps => (b :: p) :: ps

/-- The non-empty pieces between separators: runs of separators and separators at either
end produce no field. -/
def fields (sep : UInt8) (s : Bytes) : List Bytes :=
  (pieces sep s).filter fun p => !p.isEmpty

/-- The lines of a text, each without one trailing carriage return. Empty lines are kept, so
that the position of a line plus one is its number. The empty text has no lines. -/
def lines (s : Bytes) : List Bytes :=
  if s.isEmpty then [] else (pieces newline s).map (Bytes.dropFinal carriageReturn)

/-- The words of a line. -/
def words (line : Bytes) : List Bytes :=
  fields space line

end StackMachine.Text
