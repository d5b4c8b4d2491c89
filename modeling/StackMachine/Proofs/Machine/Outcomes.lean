import StackMachine.Proofs.Fault
import StackMachine.Proofs.Machine.Endings
import StackMachine.Proofs.Machine.Limits

/-! How limited runs of the built-in instructions end. They never break off, and what they fail with
is told apart from a program text that does not assemble. -/
namespace StackMachine

/-- The ways in which a run of the built-ins can end. -/
inductive Outcome.Regular : Outcome → Prop where
  | halted : Regular .halted
  | failed (k : Kind) (pc : Int64) (op : Opcode) (mnemonic : Bytes) :
      Regular (.failed (.runtime (.kind k) pc op mnemonic))
  | exhausted (steps : Nat) : Regular (.failed (Budget.exhausted steps))
  | interrupted (why : Interruption) : Regular (.failed why.fault)

private theorem Machine.Ending.regular {code : Code} {t : State} {exit : Int64} {outcome : Outcome}
    (h : Ending code t exit outcome) : outcome.Regular := by
  cases h with
  | halted _ _ => exact .halted
  | outside _ | unknown _ _ _ | underflow _ _ _ | division _ _ _ _ => exact .failed _ _ _ _

/-- Every run of the built-ins ends in one of these ways. -/
theorem Budget.regular_run {fuel : Nat} {context : Context} {maxSteps : Int} {code : Code}
    {s : State} {report : Report}
    (h : run fuel context maxSteps .builtins code s = some report) : report.outcome.Regular :=
  run_invariant (P := fun _ => True) (Q := fun _ outcome => outcome.Regular)
    (fun _ _ => trivial) (fun _ _ _ hf => (Machine.ending_of_finish hf).regular)
    (fun _ n _ => .exhausted n) (fun _ why _ => .interrupted why) trivial h

theorem Outcome.Regular.not_crashed {message : Bytes} : ¬ (Outcome.crashed message).Regular := by
  intro h
  cases h

private theorem Fault.classify_runtime_ne_assembly (k : Kind) (pc : Int64) (op : Opcode)
    (mnemonic : Bytes) : (Fault.runtime (.kind k) pc op mnemonic).classify ≠ .assembly := by
  cases k <;> simp [Fault.classify, Fault.has, Fault.parts, Fault.machineClass, Fault.isPresent,
    Fault.assembly?, Fault.runtime?]

/-- No failed run is taken for a program text that does not assemble, and each has something to
say. -/
theorem Outcome.Regular.failed_spec {fault : Fault} (h : (Outcome.failed fault).Regular) :
    fault.isPresent = true ∧ fault.classify ≠ .assembly ∧ fault.message ≠ [] := by
  cases h with
  | failed k pc op mnemonic =>
    exact ⟨rfl, Fault.classify_runtime_ne_assembly k pc op mnemonic,
      Fault.message_runtime_ne_nil _ _ _ _⟩
  | exhausted steps =>
    refine ⟨rfl, ?_, ?_⟩
    · rw [Fault.classify, if_pos (Budget.exhausted_has_budgetExhausted steps)]
      decide
    · have hkind : Kind.message .budgetExhausted ≠ [] := by decide
      simp [Budget.exhausted, Fault.message, hkind]
  | interrupted why => cases why <;> exact ⟨rfl, by decide, by decide⟩

end StackMachine
