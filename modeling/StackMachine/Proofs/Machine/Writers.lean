import StackMachine.Budget
import StackMachine.Proofs.Machine.Tracing

/-! Runs that report elsewhere. The built-in instructions do not notice which writer the diagnostic
stream goes to, so a run that reports to another writer is the same run, and the other writer
receives the same. -/
namespace StackMachine

/-- Everything went and goes to one writer. -/
def Diagnostics.movedTo (d : Diagnostics) (w : Writer) : Diagnostics where
  writer := w
  reversed := d.reversed.map fun (_, b) => (w, b)

theorem Diagnostics.append_movedTo (d : Diagnostics) (text : Bytes) (w : Writer) :
    (d.append text).movedTo w = (d.movedTo w).append text := by
  simp [append, movedTo, List.reverseAux_eq, Function.comp_def]

/-- The writer has received everything. -/
theorem Diagnostics.textOf_movedTo (d : Diagnostics) (w : Writer) :
    (d.movedTo w).textOf w = (d.reversed.map Prod.snd).reverse := by
  have hall : (d.movedTo w).reversed.filter (fun (v, _) => v == w) = (d.movedTo w).reversed := by
    rw [List.filter_eq_self, movedTo, List.forall_mem_map]
    exact fun _ _ => beq_self_eq_true w
  rw [textOf, hall, movedTo, List.map_map]
  rfl

/-- The state with its diagnostic stream moved to a writer. -/
def State.movedTo (s : State) (w : Writer) : State :=
  { s with reported := s.reported.movedTo w }

theorem State.report_movedTo (s : State) (text : Bytes) (w : Writer) :
    (s.movedTo w).report text = (s.report text).movedTo w :=
  congrArg (fun d => { s with reported := d }) (s.reported.append_movedTo text w).symm

/-- The reaction with the diagnostic stream moved. -/
def Reaction.movedTo (x : Reaction) (w : Writer) : Reaction :=
  { x with state := x.state.movedTo w }

/-- The result of a step with the diagnostic stream moved. -/
def StepResult.movedTo (x : StepResult) (w : Writer) : StepResult :=
  { x with state := x.state.movedTo w }

/-- The finished run with the diagnostic stream moved. -/
def Report.movedTo (x : Report) (w : Writer) : Report :=
  { x with state := x.state.movedTo w }

theorem Registry.ofBuiltins_builtins : Registry.builtins.OfBuiltins := by
  intro e he
  obtain ⟨b, rfl⟩ := mem_builtins he
  exact ⟨b, rfl⟩

variable {r : Registry} {code : Code}

/-- An instruction that only adds to the stream adds the same to a stream that goes elsewhere. -/
theorem Behavior.Impartial.movedTo {behavior : Behavior} (h : behavior.Impartial) (s : State)
    (arg : Int64) (w : Writer) : behavior (s.movedTo w) arg = (behavior s arg).movedTo w := by
  obtain ⟨text, htext⟩ := h s arg
  have hhere : behavior s arg = (behavior s arg).retold s.debug (s.reported.append text) :=
    htext s.debug s.reported
  have hthere : behavior (s.movedTo w) arg =
      (behavior s arg).retold s.debug ((s.reported.movedTo w).append text) :=
    htext s.debug (s.reported.movedTo w)
  rw [hthere, ← Diagnostics.append_movedTo]
  exact congrArg (Reaction.movedTo · w) hhere.symm

namespace Machine

theorem entering_movedTo (r : Registry) (i : Instruction) (s : State) (w : Writer) :
    entering r i (s.movedTo w) = (entering r i s).movedTo w := by
  have hdebug : (s.movedTo w).debug = s.debug := rfl
  have hpc : (s.movedTo w).pc = s.pc := rfl
  unfold entering
  rw [hdebug, hpc]
  cases s.debug with
  | false => rfl
  | true =>
    simp only [if_true, State.report_movedTo]
    rfl

theorem step_movedTo (hr : r.OfBuiltins) (code : Code) (s : State) (w : Writer) :
    step r code (s.movedTo w) = (step r code s).movedTo w := by
  have hpc : (s.movedTo w).pc = s.pc := rfl
  cases hf : code.fetch? s.pc with
  | none =>
    rw [step_outside (hpc ▸ hf), step_outside hf]
    rfl
  | some i =>
    cases he : r.entry? i.op with
    | none =>
      rw [step_unknown (hpc ▸ hf) he, step_unknown hf he, entering_movedTo]
      rfl
    | some e =>
      obtain ⟨b, hb⟩ := hr e (List.mem_of_getElem? he)
      rw [step_known (hpc ▸ hf) he, step_known hf he, hb, entering_movedTo,
        b.impartial_effect.movedTo]
      rfl

theorem announce_movedTo (r : Registry) (code : Code) (s : State) (w : Writer) :
    announce r code (s.movedTo w) = (announce r code s).movedTo w := by
  have hdebug : (s.movedTo w).debug = s.debug := rfl
  unfold announce
  rw [hdebug]
  cases s.debug with
  | false => rfl
  | true =>
    simp only [if_true, State.report_movedTo]
    rfl

end Machine

namespace Budget

variable {context : Context} {maxSteps : Int}

private theorem runFrom_movedTo (hr : r.OfBuiltins) (fuel steps : Nat) (canceled : Bool) (s : State)
    (w : Writer) :
    runFrom context maxSteps r code fuel steps canceled (s.movedTo w) =
      (runFrom context maxSteps r code fuel steps canceled s).map (·.movedTo w) := by
  induction fuel generalizing steps canceled s with
  | zero => rfl
  | succ fuel ih =>
    unfold runFrom
    cases context steps with
    | some why => rfl
    | none =>
      cases canceled with
      | true => rfl
      | false =>
        by_cases hspent : 0 < maxSteps ∧ maxSteps ≤ steps
        · simp only [if_pos hspent]
          rfl
        · have hsignal : ((Machine.step r code s).movedTo w).signal =
              (Machine.step r code s).signal := rfl
          simp only [if_neg hspent, Machine.step_movedTo hr, hsignal]
          cases (Machine.step r code s).signal with
          | more => exact ih _ _ _
          | halted | failed _ | crashed _ => rfl

/-- A run that reports to another writer is the same run. -/
theorem run_movedTo (hr : r.OfBuiltins) (fuel : Nat) (s : State) (w : Writer) :
    run fuel context maxSteps r code (s.movedTo w) =
      (run fuel context maxSteps r code s).map (·.movedTo w) := by
  rw [run, run, Machine.announce_movedTo]
  exact runFrom_movedTo hr fuel 0 false _ w

end Budget

end StackMachine
