import StackMachine.Proofs.Machine.Steps

/-! How runs of the built-in instructions end. Only the exit instruction ends a run well; whatever
else ends it is a fault that tells where it happened, and a run that has left the code stays
outside. -/
namespace StackMachine

/-- The opcodes that the built-ins leave free are those from their number on. -/
theorem Registry.entry?_builtins_eq_none_iff {op : Opcode} :
    builtins.entry? op = none ↔ 13 ≤ op := by
  have hlength : builtins.entries.length = 13 := rfl
  have hfree : builtins.entry? op = none ↔ builtins.entries.length ≤ op.toNat :=
    List.getElem?_eq_none_iff
  rw [hfree, hlength, UInt32.le_iff_toNat_le]
  rfl

namespace Machine

/-- How a run of the built-ins ended and with which exit value, as it shows in the code and the
state that it left. -/
inductive Ending (code : Code) (t : State) : Int64 → Outcome → Prop where
  | halted {i : Instruction} : code.At (t.pc - 1) i →
      Registry.builtins.describe i.op = some (Builtin.name .exit) →
      Ending code t (t.stack.head?.getD 0) .halted
  | outside : t.pc.toInt < 0 ∨ code.length ≤ t.pc.toInt →
      Ending code t 0 (.failed (.runtime (.kind .counterOutOfBounds) t.pc 0 []))
  | unknown {pc : Int64} {i : Instruction} : code.At pc i → t.pc = pc + 1 → 13 ≤ i.op →
      Ending code t 0 (.failed (.runtime (.kind .unknownOpcode) pc i.op []))
  | underflow {pc : Int64} {i : Instruction} {mnemonic : Bytes} : code.At pc i → t.pc = pc + 1 →
      Registry.builtins.describe i.op = some mnemonic →
      Ending code t 0 (.failed (.runtime (.kind .stackUnderflow) pc i.op mnemonic))
  | division {pc : Int64} {i : Instruction} {mnemonic : Bytes} : code.At pc i → t.pc = pc + 1 →
      Registry.builtins.describe i.op = some mnemonic → mnemonic = Builtin.name .div →
      Ending code t 0 (.failed (.runtime (.kind .divideByZero) pc i.op mnemonic))

variable {code : Code} {s : State} {f : Finish}

theorem pc_entering (r : Registry) (i : Instruction) (s : State) :
    (entering r i s).pc = s.pc + 1 :=
  rfl

/-- A step that finishes a run does so in one of these ways. -/
theorem ending_of_finish (h : (step .builtins code s).finish? = some f) :
    Ending code f.state f.exit f.outcome := by
  cases hf : code.fetch? s.pc with
  | none =>
    rw [step_outside hf] at h
    cases h
    exact .outside (Code.fetch?_eq_none_iff.mp hf)
  | some i =>
    have hat := Code.fetch?_eq_some_iff.mp hf
    have hpc := pc_entering .builtins i s
    cases he : Registry.builtins.entry? i.op with
    | none =>
      rw [step_unknown hf he] at h
      cases h
      exact .unknown hat hpc (Registry.entry?_builtins_eq_none_iff.mp he)
    | some e =>
      obtain ⟨b, rfl⟩ := Registry.mem_builtins (List.mem_of_getElem? he)
      have hname : Registry.builtins.describe i.op = some b.name := by
        rw [Registry.Tables.describe, he]
        rfl
      have hacts := b.acts_effect (entering .builtins i s) i.arg
      rw [step_known hf he] at h
      simp only [Builtin.entry] at h
      generalize b.effect (entering .builtins i s) i.arg = reaction at h hacts
      cases hacts with
      | proceed _ => cases h
      | halt hexit =>
        cases h
        have hback : (entering .builtins i s).pc - 1 = s.pc := by
          rw [hpc]
          exact Int64.add_sub_cancel s.pc 1
        exact .halted (hback ▸ hat) (hexit ▸ hname)
      | underflow _ hkept =>
        cases h
        exact .underflow hat (hkept.trans hpc) hname
      | division hdiv _ hkept =>
        cases h
        exact .division hat (hkept.trans hpc) hname (congrArg Builtin.name hdiv)

theorem Ending.exists_exit {t : State} {exit : Int64} (h : Ending code t exit .halted) :
    ∃ i ∈ code, Registry.builtins.describe i.op = some (Builtin.name .exit) := by
  cases h with
  | halted hat hexit => exact ⟨_, List.mem_of_getElem? hat.found, hexit⟩

theorem Ending.exit_of_failed {t : State} {exit : Int64} {fault : Fault}
    (h : Ending code t exit (.failed fault)) : exit = 0 := by
  cases h <;> rfl

theorem Ending.not_crashed {t : State} {exit : Int64} {message : Bytes} :
    ¬ Ending code t exit (.crashed message) := by
  intro h
  cases h

theorem Ending.counter_outside {t : State} {exit : Int64} {pc : Int64} {op : Opcode}
    {mnemonic : Bytes}
    (h : Ending code t exit (.failed (.runtime (.kind .counterOutOfBounds) pc op mnemonic))) :
    (t.pc.toInt < 0 ∨ code.length ≤ t.pc.toInt) ∧ pc = t.pc ∧ op = 0 ∧ mnemonic = [] := by
  cases h with
  | outside houtside => exact ⟨houtside, rfl, rfl, rfl⟩

/-- An untraced run that starts outside the code ends at once and changes nothing. -/
theorem returnsAt_outside (r : Registry) (hs : s.debug = false)
    (houtside : s.pc.toInt < 0 ∨ code.length ≤ s.pc.toInt) :
    ReturnsAt r code s 1
      ⟨s, 0, s.output, .failed (.runtime (.kind .counterOutOfBounds) s.pc 0 [])⟩ := by
  have hstep := step_outside (r := r) (Code.fetch?_eq_none_iff.mpr houtside)
  refine returnsAt_iff.mpr ⟨0, s, false, rfl, ?_, ?_⟩
  · rw [announce_of_not_debug r code hs]
    exact .start
  · rw [hstep]
    rfl

/-- Every run of the built-ins that returns ends in one of these ways, and returns the output and,
if it fails, zero. A code without an exit never ends well. A run that has left the code can be
taken up again, untraced, as often as one likes: it fails at once as before and changes nothing. -/
theorem builtin_run_accounted {code : Code} {s : State} {n : Nat} {f : Finish}
    (h : ReturnsAt .builtins code s n f) :
    Ending code f.state f.exit f.outcome ∧ f.output = f.state.output ∧
    (∀ fault, f.outcome = .failed fault → f.exit = 0) ∧
    ((∀ i ∈ code, Registry.builtins.describe i.op ≠ some (Builtin.name .exit)) →
      f.outcome ≠ .halted) ∧
    ∀ pc op mnemonic, f.outcome = .failed (.runtime (.kind .counterOutOfBounds) pc op mnemonic) →
      let quiet := { f.state with debug := false }
      ReturnsAt .builtins code quiet 1 ⟨quiet, 0, quiet.output, f.outcome⟩ := by
  obtain ⟨_, t, _, -, -, hfinish⟩ := returnsAt_iff.mp h
  have hending := ending_of_finish hfinish
  obtain ⟨-, -, houtput⟩ := StepResult.returned_of_finish? hfinish
  refine ⟨hending, houtput fun message hcrashed => ?_, fun fault hfault => ?_, ?_, ?_⟩
  · exact Ending.not_crashed (hcrashed ▸ hending)
  · exact Ending.exit_of_failed (hfault ▸ hending)
  · intro hnone hhalted
    obtain ⟨i, hi, hexit⟩ := Ending.exists_exit (hhalted ▸ hending)
    exact hnone i hi hexit
  · intro pc op mnemonic hfault quiet
    rw [hfault] at hending
    obtain ⟨houtside, rfl, rfl, rfl⟩ := hending.counter_outside
    rw [hfault]
    exact returnsAt_outside .builtins rfl houtside

/-- A jump to where no code is, taken up again there, and a division by zero. -/
theorem builtin_run_accounted_leap :
    let leaps : Code := [⟨9, -5⟩]
    let divides : Code := [⟨1, 7⟩, ⟨1, 0⟩, ⟨5, 0⟩]
    let astray : State := { pc := -5 }
    ReturnsAt .builtins leaps astray 1
      ⟨astray, 0, [], .failed (.runtime (.kind .counterOutOfBounds) (-5) 0 [])⟩ ∧
    Ending divides { pc := 3 } 0 (.failed (.runtime (.kind .divideByZero) 2 5 (utf8 "DIV"))) := by
  intro leaps divides astray
  refine ⟨?_, ?_⟩
  · have hreturns : ReturnsAt .builtins leaps {} 2
        ⟨astray, 0, [], .failed (.runtime (.kind .counterOutOfBounds) (-5) 0 [])⟩ := by
      refine ⟨rfl, fun k hk => ?_⟩
      match k with
      | 0 => rfl
      | 1 => rfl
    exact (builtin_run_accounted hreturns).2.2.2.2 (-5) 0 [] rfl
  · have hreturns : ReturnsAt .builtins divides {} 3
        ⟨{ pc := 3 }, 0, [], .failed (.runtime (.kind .divideByZero) 2 5 (utf8 "DIV"))⟩ := by
      refine ⟨rfl, fun k hk => ?_⟩
      match k with
      | 0 => rfl
      | 1 => rfl
      | 2 => rfl
    exact (builtin_run_accounted hreturns).1

end Machine

end StackMachine
