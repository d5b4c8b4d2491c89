import StackMachine.Budget
import StackMachine.Proofs.Text.Utf8

/-! Faults as they are reported. The message of a typed fault is well-formed if its parts are and
never empty, and its class is told by its type unless a kind inside it comes first. -/
namespace StackMachine

open Text.Utf8

theorem Kind.valid_message (k : Kind) : valid k.message = true := by
  cases k <;> exact valid_utf8 _

namespace FaultClass

theorem valid_name (c : FaultClass) : valid c.name = true := by
  cases c with
  | none => rfl
  | unknown | disassembly | runtime | assembly | cancelled | budget => exact valid_utf8 _

/-- Classes are told apart by their names. -/
theorem name_injective {c d : FaultClass} (h : c.name = d.name) : c = d := by
  revert h
  cases c <;> cases d <;> decide

end FaultClass

namespace Fault

private theorem message_assembly (why : Fault) (line : Int) (text mnemonic : Bytes)
    (cause : Fault) :
    (assembly why line text mnemonic cause).message =
      utf8 "line " ++ Text.Decimal.ofInt line ++ utf8 ": " ++ why.message ++ utf8 ": " ++
        (if why.has .unknownInstruction then mnemonic
        else if cause.isPresent then cause.message
        else text) :=
  rfl

private theorem message_runtime (why : Fault) (pc : Int64) (op : Opcode) (mnemonic : Bytes) :
    (runtime why pc op mnemonic).message =
      if mnemonic.isEmpty then
        utf8 "pc=" ++ Text.Decimal.ofInt pc.toInt ++ utf8 ": " ++ why.message
      else
        utf8 "pc=" ++ Text.Decimal.ofInt pc.toInt ++ utf8 " " ++ mnemonic ++ utf8 ": " ++
          why.message :=
  rfl

theorem valid_message_assembly {why cause : Fault} {line : Int} {text mnemonic : Bytes}
    (hwhy : valid why.message = true) (htext : valid text = true) (hm : valid mnemonic = true)
    (hcause : valid cause.message = true) :
    valid (assembly why line text mnemonic cause).message = true := by
  rw [message_assembly]
  refine valid_append (by simp [hwhy]) ?_
  split_ifs
  · exact hm
  · exact hcause
  · exact htext

theorem valid_message_runtime {why : Fault} {pc : Int64} {op : Opcode} {mnemonic : Bytes}
    (hwhy : valid why.message = true) (hm : valid mnemonic = true) :
    valid (runtime why pc op mnemonic).message = true := by
  rw [message_runtime]
  split <;> simp [hwhy, hm]

theorem valid_message_listing (index : Int) (op : Opcode) :
    valid (listing index op).message = true := by
  have hmessage : (listing index op).message =
      Kind.message .unlistable ++ utf8 ": op_id " ++ Text.Decimal.ofNat op.toNat ++
        utf8 " unknown at " ++ Text.Decimal.ofInt index := rfl
  simp [hmessage, Kind.valid_message]

private theorem utf8_append_ne_nil {head : String} (h : utf8 head ≠ []) (rest : Bytes) :
    utf8 head ++ rest ≠ [] :=
  fun he => h (List.append_eq_nil_iff.mp he).1

theorem message_assembly_ne_nil (why : Fault) (line : Int) (text mnemonic : Bytes)
    (cause : Fault) : (assembly why line text mnemonic cause).message ≠ [] := by
  rw [message_assembly]
  simp only [List.append_assoc]
  exact utf8_append_ne_nil (by decide) _

theorem message_runtime_ne_nil (why : Fault) (pc : Int64) (op : Opcode) (mnemonic : Bytes) :
    (runtime why pc op mnemonic).message ≠ [] := by
  rw [message_runtime]
  split <;> (simp only [List.append_assoc]; exact utf8_append_ne_nil (by decide) _)

end Fault

end StackMachine
