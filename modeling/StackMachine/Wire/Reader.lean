import StackMachine.Wire.Item
import StackMachine.Wire.Shape

/-! Reading data items. The input is one well-formed item and nothing else; heads need not be
the shortest, and lengths may be indefinite. Nesting and sizes are bounded. -/
namespace StackMachine.Wire

/-- Why bytes are refused. -/
inductive WireFault where
  | truncated
  | malformed
  | tooDeep
  | tooManyElements
  | tooManyPairs
  | trailing
  | invalidText
  | mismatch
deriving DecidableEq

/-- The wording of a refusal. -/
def WireFault.message : WireFault → Bytes
  | .truncated => utf8 "unexpected EOF"
  | .malformed => utf8 "cbor: malformed data item"
  | .tooDeep => utf8 "cbor: exceeded max nested level 32"
  | .tooManyElements => utf8 "cbor: exceeded max number of elements 131072 for CBOR array"
  | .tooManyPairs => utf8 "cbor: exceeded max number of key-value pairs 131072 for CBOR map"
  | .trailing => utf8 "cbor: extraneous data after data item"
  | .invalidText => utf8 "cbor: invalid UTF-8 string"
  | .mismatch => utf8 "cbor: cannot unmarshal data item"

/-- The result of reading from the front of the input. -/
abbrev Read (α : Type) := Except WireFault (α × Bytes)

/-- The head of an item: major type, additional information and number. -/
structure Head where
  major : Nat
  info : Nat
  value : Nat

/-- The first `n` bytes and the rest. -/
def takeExactly : Nat → Bytes → Read Bytes
  | 0, input => .ok ([], input)
  | _ + 1, [] => .error .truncated
  | n + 1, b :: input =>
    match takeExactly n input with
    | .ok (taken, rest) => .ok (b :: taken, rest)
    | .error fault => .error fault

/-- How many bytes hold the number that the additional information announces. -/
def valueWidth? (info : Nat) : Option Nat :=
  if info = 24 then some 1
  else if info = 25 then some 2
  else if info = 26 then some 4
  else if info = 27 then some 8
  else none

/-- The additional information of an indefinite length. -/
def indefinite : Nat := 31

/-- Reads a head. Only strings, arrays and maps may have an indefinite length. -/
def readHead : Bytes → Read Head
  | [] => .error .truncated
  | b :: rest =>
    let major := b.toNat / 32
    let info := b.toNat % 32
    if info < 24 then .ok (⟨major, info, info⟩, rest)
    else if info = indefinite then
      if 2 ≤ major ∧ major ≤ 5 then .ok (⟨major, info, 0⟩, rest) else .error .malformed
    else
      match valueWidth? info with
      | none => .error .malformed
      | some width =>
        match takeExactly width rest with
        | .error fault => .error fault
        | .ok (bytes, rest₁) =>
          let value := ofBigEndian bytes
          if major = 7 ∧ info = 24 ∧ value < 32 then .error .malformed
          else .ok (⟨major, info, value⟩, rest₁)

/-- The next item is a tag. -/
def startsTag : Bytes → Bool
  | b :: _ => b.toNat / 32 == 6
  | [] => false

/-- The byte that ends a sequence of indefinite length. -/
def breakByte : UInt8 := 0xFF

/-- Reads the tags in front of an item, outermost first. -/
def readTags : Nat → Bytes → Read (List Nat)
  | 0, input => .ok ([], input)
  | fuel + 1, input =>
    if startsTag input then
      match readHead input with
      | .error fault => .error fault
      | .ok (h, rest) =>
        match readTags fuel rest with
        | .error fault => .error fault
        | .ok (tags, rest₁) => .ok (h.value :: tags, rest₁)
    else .ok ([], input)

/-- Reads a number of things one after the other. -/
def readMany {α : Type} (read : Bytes → Read α) : Nat → Bytes → Read (List α)
  | 0, input => .ok ([], input)
  | n + 1, input =>
    match read input with
    | .error fault => .error fault
    | .ok (first, rest) =>
      match readMany read n rest with
      | .error fault => .error fault
      | .ok (others, rest₁) => .ok (first :: others, rest₁)

/-- Reads things one after the other up to the break. -/
def readUntilBreak {α : Type} (read : Bytes → Read α) : Nat → Bytes → Read (List α)
  | 0, _ => .error .truncated
  | fuel + 1, input =>
    match input with
    | [] => .error .truncated
    | b :: rest =>
      if b = breakByte then .ok ([], rest)
      else
        match read input with
        | .error fault => .error fault
        | .ok (first, rest₁) =>
          match readUntilBreak read fuel rest₁ with
          | .error fault => .error fault
          | .ok (others, rest₂) => .ok (first :: others, rest₂)

/-- Reads a pair. -/
def readPair {α : Type} (read : Bytes → Read α) (input : Bytes) : Read (α × α) :=
  match read input with
  | .error fault => .error fault
  | .ok (key, rest) =>
    match read rest with
    | .error fault => .error fault
    | .ok (value, rest₁) => .ok ((key, value), rest₁)

/-- Reads one chunk of a string of indefinite length: a string of the same type with a
definite length. -/
def readChunk (major : Nat) (input : Bytes) : Read Bytes :=
  match readHead input with
  | .error fault => .error fault
  | .ok (h, rest) =>
    if h.major = major ∧ h.info ≠ indefinite then takeExactly h.value rest
    else .error .malformed

/-- Reads the chunks of a string after its head. -/
def readChunks (h : Head) (input : Bytes) : Read (List Bytes) :=
  if h.info = indefinite then readUntilBreak (readChunk h.major) (input.length + 1) input
  else
    match takeExactly h.value input with
    | .error fault => .error fault
    | .ok (chunk, rest) => .ok ([chunk], rest)

/-- Reads the elements of an array or map after its head. -/
def readElements {α : Type} (limit : WireFault) (read : Bytes → Read α) (h : Head)
    (input : Bytes) : Read (List α) :=
  if h.info = indefinite then
    match readUntilBreak read (input.length + 1) input with
    | .error fault => .error fault
    | .ok (elements, rest) =>
      if maxElements < elements.length then .error limit else .ok (elements, rest)
  else if maxElements < h.value then .error limit
  else readMany read h.value input

private def wrap (tags : List Nat) (item : Item) : Item :=
  tags.foldr Item.tag item

private def finish {α : Type} (tags : List Nat) (make : α → Item) : Read α → Read Item
  | .error fault => .error fault
  | .ok (value, rest) => .ok (wrap tags (make value), rest)

/-- Reads an item at the given depth; `levels` bounds the depth that is left. -/
def readItem : Nat → Nat → Bytes → Read Item
  | 0, _, _ => .error .tooDeep
  | levels + 1, outer, input =>
    match readTags (input.length + 1) input with
    | .error fault => .error fault
    | .ok (tags, rest) =>
      let depth := outer + (tags.length - 1)
      if maxDepth < depth then .error .tooDeep
      else
        match readHead rest with
        | .error fault => .error fault
        | .ok (h, rest₁) =>
          match h.major with
          | 0 => .ok (wrap tags (.unsigned h.value), rest₁)
          | 1 => .ok (wrap tags (.negative h.value), rest₁)
          | 2 => finish tags .blob (readChunks h rest₁)
          | 3 => finish tags .text (readChunks h rest₁)
          | 4 =>
            if maxDepth < depth + 1 then .error .tooDeep
            else finish tags .array
              (readElements .tooManyElements (readItem levels (depth + 1)) h rest₁)
          | 5 =>
            if maxDepth < depth + 1 then .error .tooDeep
            else finish tags .map
              (readElements .tooManyPairs (readPair (readItem levels (depth + 1))) h rest₁)
          | _ =>
            if h.info ≤ 24 then .ok (wrap tags (.simple h.value), rest₁)
            else .ok (wrap tags .float, rest₁)

/-- The one item that the bytes hold. -/
def Item.decode (input : Bytes) : Except WireFault Item :=
  match readItem (maxDepth + 1) 0 input with
  | .error fault => .error fault
  | .ok (item, []) => .ok item
  | .ok (_, _ :: _) => .error .trailing

end StackMachine.Wire
