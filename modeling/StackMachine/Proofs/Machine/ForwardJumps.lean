import StackMachine.Proofs.Builtin.Effects
import StackMachine.Proofs.Machine.Endings
import StackMachine.Proofs.Machine.Limits
import StackMachine.Proofs.Machine.Tracing

/-! Programs without backward jumps stop. The counter of such a program advances with every step
after which the run goes on, or leaves the code below its start; so there are no more of these
steps than instructions from the start of the run to the end of the code. -/
namespace StackMachine

/-- The instruction is a jump of the built-ins, conditional or not. -/
def Instruction.IsJump (i : Instruction) : Prop :=
  Registry.builtins.describe i.op = some (Builtin.name .jmp) ∨
    Registry.builtins.describe i.op = some (Builtin.name .jmpz)

/-- No jump leads to its own address or to one before it. It may lead out of the code, at either
end. -/
def Code.JumpsForward (code : Code) : Prop :=
  ∀ (address : Nat) (i : Instruction), code[address]? = some i → i.IsJump →
    i.arg.toInt < 0 ∨ address < i.arg.toInt

namespace Machine

variable {code : Code} {s t : State}

theorem pc_announce (r : Registry) (code : Code) (s : State) : (announce r code s).pc = s.pc := by
  unfold announce
  split <;> rfl

/-- The counter that comes next is greater by one, or has wrapped round. -/
theorem toInt_add_one (pc : Int64) : (pc + 1).toInt < 0 ∨ (pc + 1).toInt = pc.toInt + 1 := by
  have hlow := Int64.le_toInt pc
  have hhigh := Int64.toInt_lt pc
  have hone : (1 : Int64).toInt = 1 := rfl
  have hsize : ((2 ^ 64 : Nat) : Int) = 18446744073709551616 := rfl
  rw [Int64.toInt_add, hone, Int.bmod_def, hsize]
  omega

/-- A step after which the run goes on has executed an instruction of the code, and has moved the
counter by one unless the instruction is a jump. -/
theorem counter_step (h : (step .builtins code s).signal = .more) :
    ∃ i, code.At s.pc i ∧ ((step .builtins code s).state.pc = s.pc + 1 ∨
      i.IsJump ∧ (step .builtins code s).state.pc = i.arg) := by
  cases hf : code.fetch? s.pc with
  | none =>
    rw [step_outside hf] at h
    cases h
  | some i =>
    refine ⟨i, Code.fetch?_eq_some_iff.mp hf, ?_⟩
    cases he : Registry.builtins.entry? i.op with
    | none =>
      rw [step_unknown hf he] at h
      cases h
    | some e =>
      obtain ⟨b, rfl⟩ := Registry.mem_builtins (List.mem_of_getElem? he)
      have hname : Registry.builtins.describe i.op = some b.name := by
        rw [Registry.Tables.describe, he]
        rfl
      have hreacts := b.reacts_effect i.arg (entering .builtins i s)
      rw [step_known hf he] at h ⊢
      simp only [Builtin.entry] at h ⊢
      generalize b.effect (entering .builtins i s) i.arg = reaction at h hreacts ⊢
      cases hreacts with
      | underflow _ _ | division _ _ | halt _ _ => cases h
      | proceed _ _ _ hsucceeds =>
        have hpc := hsucceeds.pc
        split at hpc
        · rename_i hjumps
          refine .inr ⟨?_, hpc⟩
          rcases hjumps with rfl | ⟨rfl, -⟩
          · exact .inl hname
          · exact .inr hname
        · exact .inl hpc

variable (hcode : code.JumpsForward)
include hcode

/-- With jumps that lead forward only, such a step starts inside the code, and from there the
counter advances or leaves the code below its start. -/
theorem advances_step (h : (step .builtins code s).signal = .more) :
    0 ≤ s.pc.toInt ∧ s.pc.toInt < code.length ∧
      ((step .builtins code s).state.pc.toInt < 0 ∨
        s.pc.toInt < (step .builtins code s).state.pc.toInt) := by
  obtain ⟨i, hat, hnext⟩ := counter_step h
  have hnonneg := hat.nonneg
  refine ⟨hnonneg, hat.inside, ?_⟩
  rcases hnext with hnext | ⟨hjump, hnext⟩
  · rw [hnext]
    have hone := toInt_add_one s.pc
    omega
  · rw [hnext]
    have hforward := hcode _ i hat.found hjump
    omega

/-- A run that has gone on for some steps has passed as many instructions. -/
theorem Proceeds.advances {n : Nat} {cancels : Bool}
    (h : Proceeds .builtins code s n t cancels) :
    n = 0 ∨ 0 ≤ s.pc.toInt ∧ s.pc.toInt + n ≤ code.length ∧
      (t.pc.toInt < 0 ∨ s.pc.toInt + n ≤ t.pc.toInt) := by
  induction h with
  | start => exact .inl rfl
  | @step n t cancels hp hmore ih =>
    obtain ⟨hnonneg, hinside, hnext⟩ := advances_step hcode hmore
    refine .inr ?_
    rcases ih with rfl | ⟨hstart, -, hpassed⟩
    · cases hp
      omega
    · omega

/-- Every run returns, and soon: with its first step if it starts below the code, and else with one
more step at most than there are instructions from its start on. -/
theorem exists_returnsAt (s : State) :
    ∃ n f, ReturnsAt .builtins code s n f ∧ (s.pc.toInt < 0 → n = 1) ∧
      (0 ≤ s.pc.toInt → (n : Int) ≤ max 0 (code.length - s.pc.toInt) + 1) := by
  have hpc := pc_announce .builtins code s
  rcases proceeds_or_finishes .builtins code (announce .builtins code s)
      ((code.length - s.pc.toInt).toNat + 1) with
    ⟨t, cancels, hp⟩ | ⟨k, hk, t, cancels, f, hp, hf⟩
  · have hpassed := hp.advances hcode
    rw [hpc] at hpassed
    omega
  · have hpassed := hp.advances hcode
    rw [hpc] at hpassed
    refine ⟨k + 1, f, returnsAt_iff.mpr ⟨k, t, cancels, rfl, hp, hf⟩, ?_, ?_⟩
    · intro hbelow
      omega
    · intro hnonneg
      omega

/-- A run that has not returned has taken no more steps than there are instructions. -/
theorem Proceeds.le_length {n : Nat} {cancels : Bool}
    (h : Proceeds .builtins code (announce .builtins code s) n t cancels) : n ≤ code.length := by
  have hpassed := h.advances hcode
  omega

end Machine

namespace Budget

open Machine (Ending ReturnsAt)

theorem not_budgetExhausted_of_ending {code : Code} {t : State} {exit : Int64} {outcome : Outcome}
    (h : Ending code t exit outcome) (output : Bytes) (steps : Nat) :
    (Report.fault ⟨t, exit, output, steps, outcome⟩).has .budgetExhausted = false := by
  cases h with
  | halted _ _ | outside _ | unknown _ _ _ | underflow _ _ _ | division _ _ _ _ => rfl

/-- A budget that exceeds the length of a code whose jumps lead forward is never used up. -/
theorem not_budgetExhausted_of_jumpsForward {code : Code} (hcode : code.JumpsForward)
    {maxSteps : Int} (hlength : code.length < maxSteps) {fuel : Nat} {context : Context} {s : State}
    {report : Report} (h : run fuel context maxSteps .builtins code s = some report) :
    report.fault.has .budgetExhausted = false := by
  cases ends_of_run h with
  | returned hreturns _ =>
    obtain ⟨_, _, _, rfl, -, hfinish⟩ := Machine.returnsAt_iff.mp hreturns
    exact not_budgetExhausted_of_ending (Machine.ending_of_finish hfinish) _ _
  | @interrupted _ _ _ why _ _ _ => cases why <;> rfl
  | usedUp hp _ heq =>
    have hle := hp.le_length hcode
    omega

end Budget

/-- A program of the built-ins whose jumps lead forward only stops, wherever and with whatever stack
it starts: with its first step if the counter is negative, and else with one step more at most than
there are instructions from the counter on. So no budget that exceeds the length of the code makes a
difference to its run, and none is ever reported to be used up. -/
theorem Machine.forward_runs_stop {code : Code} (hcode : code.JumpsForward) (s : State) :
    ∃ n f, ReturnsAt .builtins code s n f ∧ (s.pc.toInt < 0 → n = 1) ∧
      (0 ≤ s.pc.toInt → (n : Int) ≤ max 0 (code.length - s.pc.toInt) + 1) ∧
      ∀ maxSteps : Int, code.length < maxSteps →
        (∀ fuel, n ≤ fuel → Budget.run fuel .live maxSteps .builtins code s =
          some ⟨f.state, f.exit, f.output, n, f.outcome⟩) ∧
        ∀ fuel context report, Budget.run fuel context maxSteps .builtins code s = some report →
          report.fault.has .budgetExhausted = false := by
  obtain ⟨n, f, hreturns, hbelow, hbound⟩ := exists_returnsAt hcode s
  refine ⟨n, f, hreturns, hbelow, hbound, fun maxSteps hlength => ⟨fun fuel hfuel => ?_, ?_⟩⟩
  · have hlive := Budget.liveBefore_live Registry.neverCancels_builtins code s n
    have hallows : Budget.Allows maxSteps n := by
      rw [Budget.Allows]
      omega
    exact Budget.run_of_returnsAt hreturns hlive hallows hfuel
  · exact fun fuel context report h => Budget.not_budgetExhausted_of_jumpsForward hcode hlength h

/-- A conditional jump out of the code at its end, and a jump out of it below its start. -/
def Code.leaving : Code :=
  [⟨10, 3⟩, ⟨3, 0⟩, ⟨9, -1⟩]

namespace Machine

private theorem returnsAt_leaving : ReturnsAt .builtins Code.leaving { stack := [1, 5] } 4
    ⟨{ pc := -1 }, 0, [], .failed (.runtime (.kind .counterOutOfBounds) (-1) 0 [])⟩ := by
  constructor
  · rfl
  · intro k hk
    match k with
    | 0 => rfl
    | 1 => rfl
    | 2 => rfl
    | 3 => rfl

/-- The conditional jump is not taken, and the last step fails below the start of the code: the run
takes as many steps as it may. -/
theorem forward_runs_stop_leaving :
    Code.leaving.JumpsForward ∧ ∃ f, ReturnsAt .builtins Code.leaving { stack := [1, 5] } 4 f ∧
      f.outcome = .failed (.runtime (.kind .counterOutOfBounds) (-1) 0 []) ∧
      (4 : Int) ≤ max 0 (Code.leaving.length - 0) + 1 ∧
      Budget.run 4 .live 4 .builtins Code.leaving { stack := [1, 5] } =
        some ⟨f.state, f.exit, f.output, 4, f.outcome⟩ := by
  have hleaving : Code.leaving.JumpsForward := by
    intro address i hi hjump
    match address, hi with
    | 0, rfl => exact .inr (by decide)
    | 1, rfl => exact absurd hjump (by unfold Instruction.IsJump; decide +kernel)
    | 2, rfl => exact .inl (by decide)
  obtain ⟨n, f, hreturns, -, hbound, hbudget⟩ := forward_runs_stop hleaving { stack := [1, 5] }
  obtain ⟨rfl, rfl⟩ := hreturns.unique returnsAt_leaving
  exact ⟨hleaving, _, hreturns, rfl, hbound (by decide),
    (hbudget 4 (by decide)).1 4 (Nat.le_refl 4)⟩

end Machine

end StackMachine
