import StackMachine.Registry
import StackMachine.Text.Fields

/-! Listings: code to text. A listing stops before the first opcode that has no name. -/
namespace StackMachine

/-- A listing: the text, and the fault at which it stopped. -/
structure Listing where
  text : Bytes
  fault : Fault := .absent

namespace Listing

/-- The name filled up with spaces to at least `width` characters. -/
def column (width : Nat) (name : Bytes) : Bytes :=
  name ++ List.replicate (width - Text.Utf8.count name) space

/-- A numbered line of a listing. -/
def numberedLine (index : Nat) (name : Bytes) (arg : Int64) : Bytes :=
  Text.Decimal.padded 4 index ++ utf8 "  " ++ column 12 name ++ [space] ++
    Text.Decimal.ofInt64 arg ++ [newline]

/-- A line of the listing that precedes a traced run. -/
def plainLine (_ : Nat) (name : Bytes) (arg : Int64) : Bytes :=
  name ++ [space] ++ Text.Decimal.ofInt64 arg ++ [newline]

/-- Lists code of which the first instruction has the given index. -/
def fromIndex (format : Nat → Bytes → Int64 → Bytes) (r : Registry) : Nat → Code → Listing
  | _, [] => { text := [] }
  | index, i :: rest =>
    match r.describe i.op with
    | none => { text := [], fault := .listing index i.op }
    | some name =>
      let tail := fromIndex format r (index + 1) rest
      { tail with text := format index name i.arg ++ tail.text }

/-- The listing of a code, one numbered instruction a line. -/
def ofCode (r : Registry) (code : Code) : Listing :=
  fromIndex numberedLine r 0 code

/-- The lines of a listing; an empty listing has none. -/
def lines (l : Listing) : Option (List Bytes) :=
  if l.text.isEmpty then none
  else some (Text.pieces newline (Bytes.dropFinal newline l.text))

/-- One instruction as it would stand in a program text. -/
def ofInstruction (r : Registry) (i : Instruction) : Bytes :=
  r.nameOf i.op ++ [space] ++ Text.Decimal.ofInt64 i.arg

end Listing

end StackMachine
