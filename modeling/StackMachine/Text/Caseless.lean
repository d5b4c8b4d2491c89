import StackMachine.Text.Bytes

/-! Comparing a key with an ASCII name regardless of case. -/
namespace StackMachine.Text.Caseless

/-- The key with capitals made small. Besides the ASCII capitals two more characters are
other forms of an ASCII letter: the long s and the Kelvin sign. -/
def fold : Bytes → Bytes
  | [] => []
  | 0xC5 :: 0xBF :: rest => 115 :: fold rest
  | 0xE2 :: 0x84 :: 0xAA :: rest => 107 :: fold rest
  | b :: rest => (if 65 ≤ b ∧ b ≤ 90 then b + 32 else b) :: fold rest

/-- The key spells the name, which is in small ASCII letters. -/
def spells (key name : Bytes) : Bool :=
  fold key == name

end StackMachine.Text.Caseless
