import StackMachine.Assembly
import StackMachine.Builtin
import StackMachine.Editor.Cursor
import StackMachine.Text.Uppercase

/-! What an editor shows about a program text: completions, documentation, rejected lines and
jump targets. -/
namespace StackMachine.Editor

/-- A completion: the mnemonic and what it does. -/
structure Completion where
  label : Bytes
  detail : Bytes
deriving DecidableEq

/-- The mnemonics that start with the fragment as typed or in capitals, in byte order. -/
def completions (r : Registry) (fragment : Bytes) : List Completion :=
  let capital := Text.Uppercase.ofBytes fragment
  (r.mnemonics.filter fun name =>
    name.startsWith fragment || name.startsWith capital).map fun name =>
      { label := name
        detail := ((Builtin.lookup name).map Builtin.summary).getD (utf8 "instruction") }

private def number (n : Nat) : Bytes :=
  Text.Decimal.ofNat n

/-- What is known about a built-in of the name. -/
def builtinNote (word : Bytes) : Bytes :=
  match Builtin.lookup word with
  | none => []
  | some b =>
    utf8 "\n" ++ b.summary ++ utf8 "\n\npops " ++ number b.pops ++ utf8 ", pushes " ++
      number b.pushes ++ (if b.usesOperand then utf8 ", uses its operand" else []) ++ utf8 "\n"

/-- The opcodes that were registered under the name before the one it names now. -/
def shadowNote (r : Registry) (word : Bytes) : Bytes :=
  match (r.registrations word).dropLast with
  | [] => []
  | older =>
    utf8 "\nshadows opcode " ++
      Bytes.join (utf8 ", ") (older.map fun op => number op.toNat) ++ utf8 "\n"

/-- The documentation of a mnemonic, if it names an instruction. -/
def documentation (r : Registry) (word : Bytes) : Option Bytes :=
  (r.resolve word).map fun op =>
    utf8 "**" ++ word ++ utf8 "** (opcode " ++ number op.toNat ++ utf8 ")\n" ++
      builtinNote word ++ shadowNote r word

/-- A rejected line: its number from zero, its width in bytes, and why. -/
structure Diagnostic where
  line : Int
  width : Nat
  message : Bytes
deriving DecidableEq

/-- The first rejected line of a program text; there is at most one. -/
def diagnose (r : Registry) (text : Bytes) : List Diagnostic :=
  match Assembly.assemble r text with
  | .ok _ => []
  | .error fault =>
    match fault.assembly? with
    | some report => [⟨report.line - 1, report.text.length, fault.message⟩]
    | none => [⟨0, 0, fault.message⟩]

/-- The mnemonics whose operand is an address. -/
def isJump (mnemonic : Bytes) : Bool :=
  mnemonic == Builtin.name .jmp || mnemonic == Builtin.name .jmpz

/-- The number of the line that holds the instruction with the given address, counting the
first line as `number` and its instruction as zero. -/
def lineOfAddress : Nat → Nat → List Bytes → Option Nat
  | _, _, [] => none
  | number, address, line :: rest =>
    if (Text.words line).isEmpty then lineOfAddress (number + 1) address rest
    else
      match address with
      | 0 => some number
      | address + 1 => lineOfAddress (number + 1) address rest

/-- The line of the instruction that the jump operand under the cursor addresses. -/
def jumpTarget (text : Bytes) (pos : Position) : Option Nat :=
  let word := wordAt text pos
  if word.isEmpty then none
  else
    let lines := Text.lines text
    match (lines[pos.line]?).map Text.words with
    | some [mnemonic, operand] =>
      if isJump mnemonic && operand.endsWith word then
        match Text.Decimal.readInt64 operand with
        | .ok address =>
          if address < 0 then none else lineOfAddress 0 address.toInt.toNat lines
        | .error _ => none
      else none
    | _ => none

end StackMachine.Editor
