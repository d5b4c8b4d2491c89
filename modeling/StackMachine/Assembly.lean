import StackMachine.Registry
import StackMachine.Text.Fields

/-! Assembly: program text to code. Each line with words holds a mnemonic and at most one
decimal operand; the first line that does not is reported and no code is produced. -/
namespace StackMachine.Assembly

/-- Reads an operand. -/
def operand (word : Bytes) : Except Fault Int64 :=
  match Text.Decimal.readInt64 word with
  | .ok v => .ok v
  | .error problem => .error (.numeral (utf8 "strconv.ParseInt") word problem)

/-- The instruction on a line with the given number: none if the line has no words. -/
def instruction? (r : Registry) (number : Nat) (line : Bytes) :
    Except Fault (Option Instruction) :=
  match Text.words line with
  | [] => .ok none
  | _ :: _ :: _ :: _ => .error (.assembly (.kind .tooManyOperands) number line [] .absent)
  | mnemonic :: operands =>
    match r.resolve mnemonic with
    | none => .error (.assembly (.kind .unknownInstruction) number line mnemonic .absent)
    | some op =>
      match operands with
      | [] => .ok (some ⟨op, 0⟩)
      | word :: _ =>
        match operand word with
        | .ok arg => .ok (some ⟨op, arg⟩)
        | .error cause => .error (.assembly (.kind .invalidOperand) number line [] cause)

/-- Assembles lines of which the first has the given number. -/
def lines (r : Registry) : Nat → List Bytes → Except Fault Code
  | _, [] => .ok []
  | number, line :: rest =>
    match instruction? r number line with
    | .error fault => .error fault
    | .ok found =>
      match lines r (number + 1) rest with
      | .error fault => .error fault
      | .ok code => .ok (found.toList ++ code)

/-- Assembles a program text. -/
def assemble (r : Registry) (source : Bytes) : Except Fault Code :=
  lines r 1 (Text.lines source)

end StackMachine.Assembly
