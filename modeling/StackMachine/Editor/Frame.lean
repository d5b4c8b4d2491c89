import StackMachine.Text.Decimal

/-! Frames: how messages follow one another on a stream. A header tells the length of the body,
and an empty line ends the header. -/
namespace StackMachine.Editor.Frame

/-- The field of a header that tells the length. -/
def lengthField : Bytes := utf8 "Content-Length:"

/-- The length that a line of a header tells. -/
def length? (line : Bytes) : Option Nat :=
  if line.startsWith lengthField then
    let digits := (line.drop lengthField.length).filter fun b => b != space && b != carriageReturn
    match Text.Decimal.readDigits 10 0 digits with
    | .ok n => some n
    | .error _ => none
  else none

/-- The line ends a header. -/
def isBlank (line : Bytes) : Bool :=
  line.all fun b => b == carriageReturn || b == newline

/-- A body with its header. -/
def encode (body : Bytes) : Bytes :=
  lengthField ++ [space] ++ Text.Decimal.ofNat body.length ++
    [carriageReturn, newline, carriageReturn, newline] ++ body

end StackMachine.Editor.Frame
