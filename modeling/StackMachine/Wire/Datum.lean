import StackMachine.Text.Utf8
import StackMachine.Wire.Reader

/-! What an item stands for when a value is expected: tags resolved, texts checked, integers
of every form as integers. -/
namespace StackMachine.Wire

/-- The value of an item. -/
inductive Datum where
  | null
  | bool (b : Bool)
  | integer (n : Int)
  | text (s : Bytes)
  | array (items : List Item)
  | map (pairs : List (Item × Item))
  /-- Floats and byte strings, which no message has a place for. -/
  | unusable

namespace Item

/-- The text of a text string; every chunk has to be well-formed by itself. -/
def textOf (chunks : List Bytes) : Except WireFault Bytes :=
  if chunks.all Text.Utf8.valid then .ok chunks.flatten else .error .invalidText

/-- The content fits a tag that prescribes its type: dates are texts, times are numbers, big
integers are byte strings. -/
def fitsTag (number : Nat) (content : Item) : Bool :=
  match number, content with
  | 0, .text _ => true
  | 0, _ => false
  | 1, .unsigned _ | 1, .negative _ | 1, .float => true
  | 1, _ => false
  | 2, .blob _ | 3, .blob _ => true
  | 2, _ | 3, _ => false
  | _, _ => true

/-- The value of an item. -/
def datum : Item → Except WireFault Datum
  | .unsigned n => .ok (.integer n)
  | .negative n => .ok (.integer (-1 - n))
  | .blob _ => .ok .unusable
  | .text chunks =>
    match textOf chunks with
    | .ok s => .ok (.text s)
    | .error fault => .error fault
  | .array items => .ok (.array items)
  | .map pairs => .ok (.map pairs)
  | .simple n =>
    if n = 20 then .ok (.bool false)
    else if n = 21 then .ok (.bool true)
    else if n = 22 ∨ n = 23 then .ok .null
    else .ok (.integer n)
  | .float => .ok .unusable
  | .tag number content =>
    if !fitsTag number content then .error .mismatch
    else
      match number, content with
      | 2, .blob chunks =>
        let n := ofBigEndian chunks.flatten
        if n < 0x10000000000000000 then .ok (.integer n) else .error .mismatch
      | 3, .blob chunks =>
        let n := ofBigEndian chunks.flatten
        if n < 0x8000000000000000 then .ok (.integer (-1 - n)) else .error .mismatch
      | _, _ => datum content

/-- The field name of a map key: texts name fields, integers name none, and nothing else may
be a key. -/
def fieldName : Item → Except WireFault (Option Bytes)
  | .text chunks =>
    match textOf chunks with
    | .ok s => .ok (some s)
    | .error fault => .error fault
  | .unsigned _ => .ok none
  | .negative n => if n < 0x8000000000000000 then .ok none else .error .mismatch
  | _ => .error .mismatch

/-- The named fields of pairs, in order. -/
def namedFields : List (Item × Item) → Except WireFault (List (Bytes × Item))
  | [] => .ok []
  | (key, value) :: rest =>
    match fieldName key with
    | .error fault => .error fault
    | .ok name =>
      match namedFields rest with
      | .error fault => .error fault
      | .ok fields => .ok ((name.toList.map fun n => (n, value)) ++ fields)

/-- The fields of a record; null is the record without fields. -/
def fields (item : Item) : Except WireFault (List (Bytes × Item)) :=
  match item.datum with
  | .error fault => .error fault
  | .ok .null => .ok []
  | .ok (.map pairs) => namedFields pairs
  | .ok _ => .error .mismatch

end Item

end StackMachine.Wire
