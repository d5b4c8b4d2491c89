import StackMachine.Fault

/-! Assembled programs: sequences of instructions, addressed from zero. -/
namespace StackMachine

/-- One instruction. An instruction that takes no operand carries zero. -/
structure Instruction where
  op : Opcode
  arg : Int64
deriving DecidableEq

/-- An assembled program. -/
abbrev Code := List Instruction

namespace Code

/-- The instruction at an address, if the address lies in the code. -/
def fetch? (code : Code) (pc : Int64) : Option Instruction :=
  if pc < 0 then none else code[pc.toInt.toNat]?

end Code

end StackMachine
