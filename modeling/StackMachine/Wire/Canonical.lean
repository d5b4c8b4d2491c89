import StackMachine.Wire.Item
import StackMachine.Wire.Shape

/-! The canonical form of values in the concise binary object representation: heads are the shortest
ones, lengths are told in front, and the fields of a record stand in the order of their names. -/
namespace StackMachine.Wire

/-- A text. -/
def canonicalText (s : Bytes) : Bytes :=
  head 3 s.length ++ s

/-- An integer. -/
def canonicalInteger (n : Int) : Bytes :=
  if n < 0 then head 1 (-1 - n).toNat else head 0 n.toNat

/-- A simple value. -/
def simpleByte (n : Nat) : UInt8 :=
  UInt8.ofNat (7 * 32 + n)

/-- A truth value. -/
def truthByte (b : Bool) : UInt8 :=
  simpleByte (if b then 21 else 20)

/-- What stands for nothing. -/
def nullByte : UInt8 :=
  simpleByte 22

/-- Shorter names come first, names of one length in the order of their bytes. -/
def NameLE (a b : Bytes) : Prop :=
  a.length < b.length ∨ a.length = b.length ∧ a ≤ b

instance : DecidableRel NameLE := fun a b =>
  inferInstanceAs (Decidable (a.length < b.length ∨ a.length = b.length ∧ a ≤ b))

/-- The name of a field and its value, both written. -/
def canonicalField : Bytes × Bytes → Bytes
  | (name, value) => canonicalText name ++ value

/-- Puts a field at its place among fields that stand in the order of their names. -/
def insertField (field : Bytes × Bytes) : List (Bytes × Bytes) → List (Bytes × Bytes)
  | [] => [field]
  | f :: rest => if NameLE field.1 f.1 then field :: f :: rest else f :: insertField field rest

/-- Fields in the order of their names. -/
def sortFields (fields : List (Bytes × Bytes)) : List (Bytes × Bytes) :=
  fields.foldr insertField []

/-- A record of fields with written values. -/
def canonicalRecord (fields : List (Bytes × Bytes)) : Bytes :=
  head 5 fields.length ++ (sortFields fields).flatMap canonicalField

mutual

/-- The canonical form of a value. -/
def Shape.canonical : (shape : Shape) → shape.Value → Bytes
  | .text => canonicalText
  | .truth => fun b => [truthByte b]
  | .int64 => fun n => canonicalInteger (Int64.toInt n)
  | .uint32 => fun n => canonicalInteger (UInt32.toNat n)
  | .list element => fun
    | none => [nullByte]
    | some values => head 4 values.length ++ values.flatMap element.canonical
  | .record fields => fun values => canonicalRecord (fields.canonical values)

/-- The names of fields with the canonical forms of their values. -/
def Fields.canonical : (fields : Fields) → fields.Value → List (Bytes × Bytes)
  | .none => fun _ => []
  | .field name shape rest => fun values =>
    (name, shape.canonical values.1) :: rest.canonical values.2

end

end StackMachine.Wire
