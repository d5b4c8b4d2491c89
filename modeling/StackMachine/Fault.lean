import StackMachine.Text.Decimal
import StackMachine.Text.Quoted

/-! Faults: what can go wrong, as trees of causes. A fault is searched from its root, depth
first, for the kinds and the typed reports inside it; its message is one text. -/
namespace StackMachine

/-- The number of an instruction in a registry. -/
abbrev Opcode := UInt32

/-- The kinds of failure that a fault can be recognised by. -/
inductive Kind where
  | unknownInstruction
  | tooManyOperands
  | invalidOperand
  | stackUnderflow
  | divideByZero
  | counterOutOfBounds
  | unknownOpcode
  | unlistable
  | budgetExhausted
  | valueOutOfRange
  | malformedValue
  | canceled
  | deadlineExceeded
deriving DecidableEq

/-- The wording of a kind. -/
def Kind.message : Kind → Bytes
  | .unknownInstruction => utf8 "unknown instruction"
  | .tooManyOperands => utf8 "more than one instruction argument"
  | .invalidOperand => utf8 "invalid operand"
  | .stackUnderflow => utf8 "stack underflow"
  | .divideByZero => utf8 "divide by zero"
  | .counterOutOfBounds => utf8 "program counter out of bounds"
  | .unknownOpcode => utf8 "unknown opcode"
  | .unlistable => utf8 "could not disassemble"
  | .budgetExhausted => utf8 "step budget exhausted"
  | .valueOutOfRange => utf8 "value out of range"
  | .malformedValue => utf8 "invalid syntax"
  | .canceled => utf8 "context canceled"
  | .deadlineExceeded => utf8 "context deadline exceeded"

/-- A fault. `absent` stands where a fault could be and is not: as the missing kind or cause
of another one. -/
inductive Fault where
  | absent
  /-- A bare kind. -/
  | kind (k : Kind)
  /-- A text without structure. -/
  | plain (text : Bytes)
  /-- `reader` could not read `operand` as a number. -/
  | numeral (reader operand : Bytes) (problem : Text.Decimal.Problem)
  /-- A rejected source line; `mnemonic` is set for an unknown instruction, `cause` for an
  operand that is no number. -/
  | assembly (why : Fault) (line : Int) (text mnemonic : Bytes) (cause : Fault)
  /-- An instruction that failed; outside the code there is neither opcode nor mnemonic. -/
  | runtime (why : Fault) (pc : Int64) (op : Opcode) (mnemonic : Bytes)
  /-- A code entry whose opcode is not registered. -/
  | listing (index : Int) (op : Opcode)
  /-- A text of its own around a cause. -/
  | wrapped (text : Bytes) (cause : Fault)
  /-- Faults reported together. -/
  | joined (faults : List Fault)
deriving Inhabited

namespace Fault

-- The deriving handler does not go into lists.
mutual

/-- Faults are equal if they are built alike from equal values. -/
protected def decEq : (f g : Fault) → Decidable (f = g)
  | .absent, g => by cases g <;> first | exact isTrue rfl | exact isFalse nofun
  | .kind k, g => by
    cases g with
    | kind l => exact decidable_of_iff (k = l) (by simp)
    | _ => exact isFalse nofun
  | .plain text, g => by
    cases g with
    | plain text' => exact decidable_of_iff (text = text') (by simp)
    | _ => exact isFalse nofun
  | .numeral reader operand problem, g => by
    cases g with
    | numeral reader' operand' problem' =>
      exact decidable_of_iff (reader = reader' ∧ operand = operand' ∧ problem = problem') (by simp)
    | _ => exact isFalse nofun
  | .assembly why line text mnemonic cause, g => by
    cases g with
    | assembly why' line' text' mnemonic' cause' =>
      have := why.decEq why'
      have := cause.decEq cause'
      exact decidable_of_iff
        (why = why' ∧ line = line' ∧ text = text' ∧ mnemonic = mnemonic' ∧ cause = cause') (by simp)
    | _ => exact isFalse nofun
  | .runtime why pc op mnemonic, g => by
    cases g with
    | runtime why' pc' op' mnemonic' =>
      have := why.decEq why'
      exact decidable_of_iff (why = why' ∧ pc = pc' ∧ op = op' ∧ mnemonic = mnemonic') (by simp)
    | _ => exact isFalse nofun
  | .listing index op, g => by
    cases g with
    | listing index' op' => exact decidable_of_iff (index = index' ∧ op = op') (by simp)
    | _ => exact isFalse nofun
  | .wrapped text cause, g => by
    cases g with
    | wrapped text' cause' =>
      have := cause.decEq cause'
      exact decidable_of_iff (text = text' ∧ cause = cause') (by simp)
    | _ => exact isFalse nofun
  | .joined faults, g => by
    cases g with
    | joined faults' =>
      have := Fault.decEqAll faults faults'
      exact decidable_of_iff (faults = faults') (by simp)
    | _ => exact isFalse nofun

/-- Lists of faults are equal if they are equal fault by fault. -/
protected def decEqAll : (fs gs : List Fault) → Decidable (fs = gs)
  | [], [] => isTrue rfl
  | [], _ :: _ | _ :: _, [] => isFalse nofun
  | f :: fs, g :: gs =>
    have := f.decEq g
    have := Fault.decEqAll fs gs
    decidable_of_iff (f = g ∧ fs = gs) (by simp)

end

instance : DecidableEq Fault :=
  Fault.decEq

/-- The kind of number that a numeral fault reports. -/
def problemKind : Text.Decimal.Problem → Kind
  | .malformed => .malformedValue
  | .outOfRange => .valueOutOfRange

mutual

/-- The fault and everything inside it, each before its causes, kind before cause, and faults that
were reported together in their order. -/
def parts : Fault → List Fault
  | .absent => []
  | .kind k => [.kind k]
  | .plain text => [.plain text]
  | .numeral reader operand problem =>
    [.numeral reader operand problem, .kind (problemKind problem)]
  | .assembly why line text mnemonic cause =>
    .assembly why line text mnemonic cause :: (why.parts ++ cause.parts)
  | .runtime why pc op mnemonic => .runtime why pc op mnemonic :: why.parts
  | .listing index op => [.listing index op, .kind .unlistable]
  | .wrapped text cause => .wrapped text cause :: cause.parts
  | .joined faults => .joined faults :: partsOfAll faults

/-- The parts of faults, one fault after the other. -/
def partsOfAll : List Fault → List Fault
  | [] => []
  | fault :: rest => fault.parts ++ partsOfAll rest

end

/-- The kind occurs in the fault. -/
def has (f : Fault) (k : Kind) : Bool :=
  f.parts.contains (.kind k)

/-- The fault is there. -/
def isPresent : Fault → Bool
  | .absent => false
  | _ => true

private def number (n : Int) : Bytes :=
  Text.Decimal.ofInt n

mutual

/-- The message of a fault. -/
def message : Fault → Bytes
  | .absent => utf8 "<nil>"
  | .kind k => k.message
  | .plain text => text
  | .numeral reader operand problem =>
    reader ++ utf8 ": parsing " ++ Text.Quoted.quote operand ++ utf8 ": " ++
      (problemKind problem).message
  | .assembly why line text mnemonic cause =>
    utf8 "line " ++ number line ++ utf8 ": " ++ why.message ++ utf8 ": " ++
      (if why.has .unknownInstruction then mnemonic
      else if cause.isPresent then cause.message
      else text)
  | .runtime why pc _ mnemonic =>
    if mnemonic.isEmpty then utf8 "pc=" ++ number pc.toInt ++ utf8 ": " ++ why.message
    else utf8 "pc=" ++ number pc.toInt ++ utf8 " " ++ mnemonic ++ utf8 ": " ++ why.message
  | .listing index op =>
    Kind.message .unlistable ++ utf8 ": op_id " ++ Text.Decimal.ofNat op.toNat ++
      utf8 " unknown at " ++ number index
  | .wrapped text _ => text
  | .joined faults => [newline].intercalate (messages faults)

/-- The messages of faults. -/
def messages : List Fault → List Bytes
  | [] => []
  | fault :: rest => fault.message :: messages rest

end

/-- A fault under a heading: the heading, a colon and the message of the fault. -/
def headed (heading : Bytes) (cause : Fault) : Fault :=
  match cause with
  | .absent => .wrapped (heading ++ utf8 ": %!w(<nil>)") .absent
  | _ => .wrapped (heading ++ utf8 ": " ++ cause.message) cause

/-- Faults together; those that are absent are left out. -/
def join (faults : List Fault) : Fault :=
  match faults.filter isPresent with
  | [] => .absent
  | present => .joined present

/-- What an assembly fault reports. -/
structure AssemblyReport where
  line : Int
  text : Bytes
  mnemonic : Bytes
  cause : Fault

/-- What a runtime fault reports. -/
structure RuntimeReport where
  pc : Int64
  op : Opcode
  mnemonic : Bytes

/-- What a listing fault reports. -/
structure ListingReport where
  index : Int
  op : Opcode

/-- The first assembly fault found in the fault. -/
def assembly? (f : Fault) : Option AssemblyReport :=
  f.parts.findSome? fun
    | .assembly _ line text mnemonic cause => some ⟨line, text, mnemonic, cause⟩
    | _ => none

/-- The first runtime fault found in the fault. -/
def runtime? (f : Fault) : Option RuntimeReport :=
  f.parts.findSome? fun
    | .runtime _ pc op mnemonic => some ⟨pc, op, mnemonic⟩
    | _ => none

/-- The first listing fault found in the fault. -/
def listing? (f : Fault) : Option ListingReport :=
  f.parts.findSome? fun
    | .listing index op => some ⟨index, op⟩
    | _ => none

/-- The source line that the fault implicates, zero if none. -/
def line (f : Fault) : Int :=
  match f.assembly? with
  | some report => report.line
  | none => 0

end Fault

/-- The classes that faults are reported under. -/
inductive FaultClass where
  | none
  | unknown
  | disassembly
  | runtime
  | assembly
  | cancelled
  | budget
deriving DecidableEq

namespace FaultClass

/-- The name of a class; the class of no fault has the empty name. -/
def name : FaultClass → Bytes
  | .none => []
  | .unknown => utf8 "unknown"
  | .disassembly => utf8 "disassembly"
  | .runtime => utf8 "runtime"
  | .assembly => utf8 "assembly"
  | .cancelled => utf8 "cancelled"
  | .budget => utf8 "budget"

end FaultClass

namespace Fault

/-- The class of a fault by the typed report inside it alone. -/
def machineClass (f : Fault) : FaultClass :=
  if !f.isPresent then .none
  else if f.assembly?.isSome then .assembly
  else if f.runtime?.isSome then .runtime
  else if f.listing?.isSome then .disassembly
  else .unknown

/-- The class of a fault: an exhausted budget and an interruption come before the typed
reports. -/
def classify (f : Fault) : FaultClass :=
  if f.has .budgetExhausted then .budget
  else if f.has .canceled || f.has .deadlineExceeded then .cancelled
  else f.machineClass

end Fault

end StackMachine
