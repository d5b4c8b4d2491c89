import StackMachine.Code

/-! What can be sent: the shapes of values, the types that have them, and codecs. A codec carries the
values of every shape as bytes; how the bytes are made is its own business. -/
namespace StackMachine.Wire

mutual

/-- The shape of a value. -/
inductive Shape where
  | text
  | truth
  | int64
  | uint32
  /-- A list that may be missing. -/
  | list (element : Shape)
  | record (fields : Fields)

/-- The fields of a record, in the order in which they are declared. -/
inductive Fields where
  | none
  | field (name : Bytes) (shape : Shape) (rest : Fields)

end

mutual

/-- The values of a shape. -/
def Shape.Value : Shape → Type
  | .text => Bytes
  | .truth => Bool
  | .int64 => Int64
  | .uint32 => UInt32
  | .list element => Option (List element.Value)
  | .record fields => fields.Value

/-- The values of fields, one after the other. -/
def Fields.Value : Fields → Type
  | .none => Unit
  | .field _ shape rest => shape.Value × rest.Value

end

/-- The names of fields. -/
def Fields.names : Fields → List Bytes
  | .none => []
  | .field name _ rest => name :: rest.names

/-- How many lists and records may be nested. -/
def maxDepth : Nat := 32

/-- The greatest number of elements of a list, and of fields of a record. -/
def maxElements : Nat := 131072

/-- The lengths of texts are below this bound. -/
def headBound : Nat := 0x10000000000000000

/-- No two names are the same in letters of either case, and all are short texts of ASCII
characters. -/
def Fields.wellNamed (fields : Fields) : Bool :=
  decide (fields.names.map Bytes.asciiLower).Nodup && fields.names.length ≤ maxElements &&
    fields.names.all fun name => name.all (· < 0x80) && name.length < headBound

mutual

/-- Lists and records are nested at most `levels` deep, and the fields of records are well named. -/
def Shape.admitted : Nat → Shape → Bool
  | _, .text | _, .truth | _, .int64 | _, .uint32 => true
  | levels, .list element => 0 < levels && element.admitted (levels - 1)
  | levels, .record fields => 0 < levels && fields.wellNamed && fields.admitted (levels - 1)

/-- The same for every field. -/
def Fields.admitted : Nat → Fields → Bool
  | _, .none => true
  | levels, .field _ shape rest => shape.admitted levels && rest.admitted levels

end

/-- A codec: the bytes that it writes for a value, and the value that it reads from bytes, or what it
says is wrong with them. -/
structure Codec where
  marshal (shape : Shape) : shape.Value → Bytes
  unmarshal (shape : Shape) : Bytes → Except Bytes shape.Value

/-- A type whose values can be sent. -/
class Sendable (α : Type) where
  shape : Shape
  toValue : α → shape.Value
  ofValue : shape.Value → α
  ofValue_toValue : ∀ a, ofValue (toValue a) = a

export Sendable (shape toValue ofValue ofValue_toValue)

attribute [simp] Sendable.ofValue_toValue

instance : Sendable Bytes where
  shape := .text
  toValue s := s
  ofValue s := s
  ofValue_toValue _ := rfl

instance : Sendable Bool where
  shape := .truth
  toValue b := b
  ofValue b := b
  ofValue_toValue _ := rfl

instance : Sendable Int64 where
  shape := .int64
  toValue n := n
  ofValue n := n
  ofValue_toValue _ := rfl

instance : Sendable UInt32 where
  shape := .uint32
  toValue n := n
  ofValue n := n
  ofValue_toValue _ := rfl

/-- A missing list is not an empty one. -/
instance {α : Type} [Sendable α] : Sendable (Option (List α)) where
  shape := .list (shape α)
  toValue values? := values?.map (List.map toValue)
  ofValue values? := Option.map (List.map ofValue) values?
  ofValue_toValue values? := by
    cases values? with
    | none => rfl
    | some values => simp [Function.comp_def]

instance : Sendable Instruction where
  shape := .record <|
    .field (utf8 "op") (shape Opcode) <|
    .field (utf8 "arg") (shape Int64) .none
  toValue i := (toValue i.op, toValue i.arg, ())
  ofValue | (op, arg, ()) => { op := ofValue op, arg := ofValue arg }
  ofValue_toValue _ := rfl

namespace Codec

variable {α : Type} [Sendable α]

/-- The bytes of a value. -/
def encode (codec : Codec) (value : α) : Bytes :=
  codec.marshal (shape α) (toValue value)

/-- The value of bytes. -/
def decode (codec : Codec) (bytes : Bytes) : Except Bytes α :=
  (codec.unmarshal (shape α) bytes).map ofValue

end Codec

end StackMachine.Wire
