import StackMachine.Text.Utf8

/-! JSON values. A number keeps the literal it was written with, so that every reader decides
which literals it takes; the members of an object keep their order, repeated keys included. -/
namespace StackMachine

/-- A JSON value. -/
inductive Json where
  | null
  | bool (value : Bool)
  | number (literal : Bytes)
  | text (value : Bytes)
  | array (items : List Json)
  | object (members : List (Bytes × Json))
deriving Inhabited

namespace Json

/-- The value of the first member with the key. -/
def member? (key : Bytes) : Json → Option Json
  | .object members => members.lookup key
  | _ => none

private def hexDigit (n : UInt8) : UInt8 :=
  if n < 10 then 48 + n else 87 + n

/-- A byte of a text as it stands between the quotes. -/
def escapeByte (b : UInt8) : Bytes :=
  if b = 34 || b = 92 then [92, b]
  else if b < 0x20 then utf8 "\\u00" ++ [hexDigit (b / 16), hexDigit (b % 16)]
  else [b]

/-- A text between quotes; stray bytes are replaced by U+FFFD. -/
def renderText (s : Bytes) : Bytes :=
  34 :: (Text.Utf8.scrub s).flatMap escapeByte ++ [34]

mutual

/-- The value as compact JSON text. -/
def render : Json → Bytes
  | .null => utf8 "null"
  | .bool true => utf8 "true"
  | .bool false => utf8 "false"
  | .number literal => literal
  | .text value => renderText value
  | .array items => 91 :: renderItems items ++ [93]
  | .object members => 123 :: renderMembers members ++ [125]

/-- Items with commas between them. -/
def renderItems : List Json → Bytes
  | [] => []
  | [item] => render item
  | item :: rest => render item ++ 44 :: renderItems rest

/-- Members with commas between them. -/
def renderMembers : List (Bytes × Json) → Bytes
  | [] => []
  | [member] => renderMember member
  | member :: rest => renderMember member ++ 44 :: renderMembers rest

/-- A key and its value. -/
def renderMember : Bytes × Json → Bytes
  | (key, value) => renderText key ++ 58 :: render value

end

end Json

end StackMachine
