import StackMachine.Text.Bytes

/-! Data items of the concise binary object representation, and the heads that they begin with. -/
namespace StackMachine.Wire

/-- A data item. Strings keep the chunks they were sent in. -/
inductive Item where
  | unsigned (n : Nat)
  /-- The integer `-1 - n`. -/
  | negative (n : Nat)
  | blob (chunks : List Bytes)
  | text (chunks : List Bytes)
  | array (items : List Item)
  | map (pairs : List (Item × Item))
  | tag (number : Nat) (content : Item)
  | simple (n : Nat)
  | float
deriving Inhabited

/-- The lowest `width` bytes of `n`, most significant first. -/
def bigEndian : Nat → Nat → Bytes
  | 0, _ => []
  | width + 1, n => bigEndian width (n / 256) ++ [UInt8.ofNat n]

/-- The number of the bytes, most significant first. -/
def ofBigEndian (bytes : Bytes) : Nat :=
  bytes.foldl (fun n b => n * 256 + b.toNat) 0

/-- The shortest head of an item: its major type and its number. -/
def head (major n : Nat) : Bytes :=
  if n < 24 then [UInt8.ofNat (major * 32 + n)]
  else if n < 0x100 then UInt8.ofNat (major * 32 + 24) :: bigEndian 1 n
  else if n < 0x10000 then UInt8.ofNat (major * 32 + 25) :: bigEndian 2 n
  else if n < 0x100000000 then UInt8.ofNat (major * 32 + 26) :: bigEndian 4 n
  else UInt8.ofNat (major * 32 + 27) :: bigEndian 8 n

end StackMachine.Wire
