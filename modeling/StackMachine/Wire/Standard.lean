import StackMachine.Wire.Canonical
import StackMachine.Wire.Datum

/-! The codec of the concise binary object representation: values are written in their canonical form,
and read from any form. A field that is absent, and null in the place of any value, is read as
zero. -/
namespace StackMachine.Wire

mutual

/-- The value that stands where nothing was sent. -/
def Shape.zero : (shape : Shape) → shape.Value
  | .text => ([] : Bytes)
  | .truth => false
  | .int64 => (0 : Int64)
  | .uint32 => (0 : UInt32)
  | .list _ => none
  | .record fields => fields.zero

/-- Fields of which none was sent. -/
def Fields.zero : (fields : Fields) → fields.Value
  | .none => ()
  | .field _ shape rest => (shape.zero, rest.zero)

end

/-- Reads items one after the other. -/
def readAll {α : Type} (read : Item → Except WireFault α) : List Item → Except WireFault (List α)
  | [] => .ok []
  | item :: rest =>
    match read item with
    | .error fault => .error fault
    | .ok first =>
      match readAll read rest with
      | .error fault => .error fault
      | .ok others => .ok (first :: others)

def readText (item : Item) : Except WireFault Bytes :=
  match item.datum with
  | .error fault => .error fault
  | .ok .null => .ok []
  | .ok (.text s) => .ok s
  | .ok _ => .error .mismatch

def readTruth (item : Item) : Except WireFault Bool :=
  match item.datum with
  | .error fault => .error fault
  | .ok .null => .ok false
  | .ok (.bool b) => .ok b
  | .ok _ => .error .mismatch

/-- Reads an integer that lies between two bounds. -/
def readInteger (lowest beyond : Int) (item : Item) : Except WireFault Int :=
  match item.datum with
  | .error fault => .error fault
  | .ok .null => .ok 0
  | .ok (.integer n) => if lowest ≤ n ∧ n < beyond then .ok n else .error .mismatch
  | .ok _ => .error .mismatch

def readList {α : Type} (read : Item → Except WireFault α) (item : Item) :
    Except WireFault (Option (List α)) :=
  match item.datum with
  | .error fault => .error fault
  | .ok .null => .ok none
  | .ok (.array items) => (readAll read items).map some
  | .ok _ => .error .mismatch

/-- Reads the field of a name: the first one whose key spells it, in letters of either case. -/
def readField {α : Type} (read : Item → Except WireFault α) (zero : α) (name : Bytes)
    (pairs : List (Bytes × Item)) : Except WireFault α :=
  match pairs.find? fun (key, _) => Bytes.asciiLower key == Bytes.asciiLower name with
  | none => .ok zero
  | some (_, item) => read item

mutual

/-- Reads a value of a shape. -/
def Shape.read : (shape : Shape) → Item → Except WireFault shape.Value
  | .text, item => readText item
  | .truth, item => readTruth item
  | .int64, item => (readInteger (-0x8000000000000000) 0x8000000000000000 item).map Int64.ofInt
  | .uint32, item => (readInteger 0 0x100000000 item).map fun n => UInt32.ofNat n.toNat
  | .list element, item => readList element.read item
  | .record fields, item =>
    match item.fields with
    | .error fault => .error fault
    | .ok pairs => fields.read pairs

/-- Reads fields, each by its name. -/
def Fields.read : (fields : Fields) → List (Bytes × Item) → Except WireFault fields.Value
  | .none, _ => .ok ()
  | .field name shape rest, pairs =>
    match readField shape.read shape.zero name pairs with
    | .error fault => .error fault
    | .ok value =>
      match rest.read pairs with
      | .error fault => .error fault
      | .ok values => .ok (value, values)

end

namespace Codec

/-- The codec of the concise binary object representation. -/
def standard : Codec where
  marshal shape := shape.canonical
  unmarshal shape bytes := ((Item.decode bytes).bind shape.read).mapError WireFault.message

end Codec

end StackMachine.Wire
