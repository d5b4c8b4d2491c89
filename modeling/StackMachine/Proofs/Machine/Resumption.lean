import StackMachine.Proofs.Machine.Limits
import StackMachine.Proofs.Machine.Tracing

/-! Taking up runs again. A run that was stopped by its budget goes on from the state that it left
as if it had not been stopped; only its steps are counted anew. -/
namespace StackMachine

/-- No instruction of the registry changes the debug flag. -/
def Registry.KeepsDebug (r : Registry) : Prop :=
  ∀ e ∈ r.entries, ∀ s arg, (e.behavior s arg).state.debug = s.debug

theorem Registry.keepsDebug_builtins : Registry.builtins.KeepsDebug := by
  intro e he s arg
  obtain ⟨b, rfl⟩ := Registry.mem_builtins he
  obtain ⟨text, htold⟩ := b.impartial_effect s arg
  exact congrArg (·.state.debug) (htold s.debug s.reported)

namespace Machine

variable {r : Registry} {code : Code} {s : State}

theorem debug_entering (r : Registry) (i : Instruction) (s : State) :
    (entering r i s).debug = s.debug := by
  unfold entering
  split <;> rfl

theorem debug_step (h : r.KeepsDebug) (code : Code) (s : State) :
    (step r code s).state.debug = s.debug := by
  cases hf : code.fetch? s.pc with
  | none => rw [step_outside hf]
  | some i =>
    cases he : r.entry? i.op with
    | none =>
      rw [step_unknown hf he]
      exact debug_entering r i s
    | some e =>
      rw [step_known hf he]
      exact (h e (List.mem_of_getElem? he) _ _).trans (debug_entering r i s)

theorem Proceeds.debug_eq {n : Nat} {t : State} {cancels : Bool}
    (hp : Proceeds r code s n t cancels) (h : r.KeepsDebug) : t.debug = s.debug := by
  induction hp with
  | start => rfl
  | step _ _ ih => exact (debug_step h code _).trans ih

end Machine

namespace Budget

open Machine (Proceeds announce step)

/-- The run ended for another reason than that its budget was used up. -/
def Unexhausted (outcome : Outcome) : Prop :=
  ∀ n, outcome ≠ .failed (exhausted n)

/-- What the second part of a run reports, after `k` steps and with a budget of `m`, and what the
run reports in one piece. -/
structure Completes (k m : Nat) (second single : Report) : Prop where
  state : second.state = single.state
  exit : second.exit = single.exit
  output : second.output = single.output
  steps : k + second.steps = single.steps
  outcome : (second.outcome = single.outcome ∧ Unexhausted single.outcome) ∨
    (second.outcome = .failed (exhausted m) ∧ single.outcome = .failed (exhausted (k + m)))

variable {r : Registry} {code : Code} {s : State} {k m : Nat}

theorem unexhausted_fault (why : Interruption) : Unexhausted (.failed why.fault) := by
  intro n h
  cases why <;> cases h

/-- A step that fails does so with a fault of its own. -/
theorem unexhausted_of_finish {f : Finish} (h : (step r code s).finish? = some f) :
    Unexhausted f.outcome := by
  intro n hn
  cases hf : code.fetch? s.pc with
  | none =>
    rw [Machine.step_outside hf] at h
    cases h
    cases hn
  | some i =>
    cases he : r.entry? i.op with
    | none =>
      rw [Machine.step_unknown hf he] at h
      cases h
      cases hn
    | some e =>
      rw [Machine.step_known hf he, StepResult.finish?] at h
      cases hv : (e.behavior (Machine.entering r i s) i.arg).verdict <;>
        simp only [hv, Machine.signalOf, Option.some.injEq, reduceCtorEq] at h <;>
        subst h <;> cases hn

/-- A run that was stopped by its budget took the steps that the budget allows. -/
theorem proceeds_of_exhausted {fuel : Nat} {context : Context} {maxSteps : Int} {report : Report}
    {n : Nat} (h : run fuel context maxSteps r code s = some report)
    (hused : report.outcome = .failed (exhausted n)) :
    maxSteps = report.steps ∧
      ∃ cancels, Proceeds r code (announce r code s) report.steps report.state cancels := by
  cases ends_of_run h with
  | returned hreturns _ =>
    obtain ⟨_, _, _, rfl, _, hf⟩ := Machine.returnsAt_iff.mp hreturns
    exact absurd hused (unexhausted_of_finish hf n)
  | interrupted _ _ _ => exact absurd hused (unexhausted_fault _ n)
  | usedUp hp _ heq => exact ⟨heq, _, hp⟩

/-- Two runs go on from a state: one has counted `n` steps and has a budget of `m`, the other counts
and may take `k` steps more. With fuel for more than `left` steps both return, and they end
alike. -/
def EndAlike (r : Registry) (code : Code) (k m left n : Nat) (cancels : Bool) (t : State) : Prop :=
  ∃ second single, Completes k m second single ∧ ∀ fuel, left < fuel →
    runFrom .live m r code fuel n cancels t = some second ∧
    runFrom .live (k + m : Nat) r code fuel (k + n) cancels t = some single

/-- To end alike it is enough to do so with one fuel more than `left`, or with still more. -/
theorem EndAlike.of_succ {left n : Nat} {cancels : Bool} {t : State} (second single : Report)
    (hcompletes : Completes k m second single)
    (hruns : ∀ fuel, left ≤ fuel →
      runFrom .live m r code (fuel + 1) n cancels t = some second ∧
      runFrom .live (k + m : Nat) r code (fuel + 1) (k + n) cancels t = some single) :
    EndAlike r code k m left n cancels t := by
  refine ⟨second, single, hcompletes, fun fuel hfuel => ?_⟩
  obtain ⟨fuel, rfl⟩ := Nat.exists_eq_add_one_of_ne_zero (Nat.ne_zero_of_lt hfuel)
  exact hruns fuel (Nat.le_of_lt_succ hfuel)

theorem endAlike_of_asked {left n : Nat} {cancels : Bool} {why : Interruption}
    (ha : asked .live n cancels = some why) (t : State) :
    EndAlike r code k m left n cancels t := by
  refine .of_succ ⟨t, 0, t.output, n, .failed why.fault⟩ ⟨t, 0, t.output, k + n, .failed why.fault⟩
    ⟨rfl, rfl, rfl, rfl, .inl ⟨rfl, unexhausted_fault why⟩⟩ fun fuel _ => ?_
  have ha' : asked .live (k + n) cancels = some why := ha
  simp only [runFrom_succ, ha, ha', and_self]

/-- Such runs end alike within the steps that the budget leaves: whatever stops the one stops the
other. -/
theorem endAlike (hm : 0 < m) {left n : Nat} (hn : n + left = m) (cancels : Bool) (t : State) :
    EndAlike r code k m left n cancels t := by
  -- Both runs ask the same questions before a step: their budgets leave the same number of steps,
  -- and a live context does not look at how many have been taken.
  induction left generalizing n cancels t with
  | zero =>
    obtain rfl : n = m := hn
    cases ha : asked .live n cancels with
    | some why => exact endAlike_of_asked ha t
    | none =>
      refine .of_succ ⟨t, 0, t.output, n, .failed (exhausted n)⟩
        ⟨t, 0, t.output, k + n, .failed (exhausted (k + n))⟩
        ⟨rfl, rfl, rfl, rfl, .inr ⟨rfl, rfl⟩⟩ fun fuel _ => ?_
      have ha' : asked .live (k + n) cancels = none := ha
      simp only [runFrom_succ, ha, ha']
      exact ⟨if_pos ⟨by omega, by omega⟩, if_pos ⟨by omega, by omega⟩⟩
  | succ left ih =>
    cases ha : asked .live n cancels with
    | some why => exact endAlike_of_asked ha t
    | none =>
      have ha' : asked .live (k + n) cancels = none := ha
      have hleft : ¬ (0 < (m : Int) ∧ (m : Int) ≤ n) := by omega
      have hleft' : ¬ (0 < ((k + m : Nat) : Int) ∧ ((k + m : Nat) : Int) ≤ (k + n : Nat)) := by
        omega
      cases hf : (step r code t).finish? with
      | some f =>
        refine .of_succ ⟨f.state, f.exit, f.output, n + 1, f.outcome⟩
          ⟨f.state, f.exit, f.output, k + n + 1, f.outcome⟩
          ⟨rfl, rfl, rfl, rfl, .inl ⟨rfl, unexhausted_of_finish hf⟩⟩ fun fuel _ => ?_
        simp only [runFrom_succ, ha, ha', if_neg hleft, if_neg hleft', hf, and_self]
      | none =>
        obtain ⟨second, single, hcompletes, hruns⟩ :=
          ih (n := n + 1) (by omega) (step r code t).cancels (step r code t).state
        refine .of_succ second single hcompletes fun fuel hfuel => ?_
        simp only [runFrom_succ, ha, ha', if_neg hleft, if_neg hleft', hf]
        exact hruns fuel hfuel

/-- A run that was stopped by its budget can be taken up again: a second run from the state that it
left, with a budget of its own, returns, and so does the run in one piece with both budgets. They
reach the same state, with the same diagnostics in it, return the same exit value and output, and
fail with the same fault unless both used up their budgets; the steps of the parts add up. -/
theorem run_resumes {r : Registry} (hkeeps : r.KeepsDebug) {code : Code} {s : State}
    (hdebug : s.debug = false) {k m : Nat} (hm : 0 < m)
    (hlive : LiveBefore .live r code s (k + 1)) {fuel n : Nat} {first : Report}
    (hfirst : run fuel .live k r code s = some first)
    (hused : first.outcome = .failed (exhausted n)) :
    ∃ second single,
      (∀ fuel, m < fuel → run fuel .live m r code first.state = some second) ∧
      (∀ fuel, k + m < fuel → run fuel .live (k + m : Nat) r code s = some single) ∧
      Completes k m second single := by
  obtain ⟨hsteps, cancels, hp⟩ := proceeds_of_exhausted hfirst hused
  obtain rfl : k = first.steps := Int.ofNat_inj.mp hsteps
  have hcancels : cancels = false := by
    have hasked := hlive _ (Nat.lt_succ_self _) _ _ hp
    cases cancels with
    | false => rfl
    | true => cases hasked
  subst hcancels
  have hquiet : first.state.debug = false := by
    rw [hp.debug_eq hkeeps, Machine.announce_of_not_debug r code hdebug, hdebug]
  obtain ⟨second, single, hcompletes, hruns⟩ :=
    endAlike (k := first.steps) hm (Nat.zero_add m) false first.state
  refine ⟨second, single, fun fuel hfuel => ?_, fun fuel hfuel => ?_, hcompletes⟩
  · rw [run, Machine.announce_of_not_debug r code hquiet]
    exact (hruns fuel hfuel).1
  · obtain ⟨rest, rfl⟩ : ∃ rest, fuel = first.steps + rest := ⟨fuel - first.steps, by omega⟩
    rw [run_of_proceeds hp (fun j hj => hlive j (by omega)) (.inr (by omega))]
    exact (hruns rest (by omega)).2

/-- A program that says and exits with a number is stopped before its exit and taken up again, once
with a budget that suffices and once after it has been stopped in a loop. -/
theorem run_resumes_exit_spin :
    let exits : Code := [⟨1, 7⟩, ⟨0, 0⟩, ⟨2, 0⟩]
    let spins : Code := [⟨9, 0⟩]
    (∃ first second single, run 3 .live 2 .builtins exits {} = some first ∧
      run 6 .live 5 .builtins exits first.state = some second ∧
      run 8 .live 7 .builtins exits {} = some single ∧
      first.outcome = .failed (exhausted 2) ∧ single.outcome = .halted ∧
      single.state.diagnostics = utf8 "7\n" ∧ Completes 2 5 second single ∧ second.exit = 7) ∧
    ∃ first second single, run 4 .live 3 .builtins spins {} = some first ∧
      run 2 .live 1 .builtins spins first.state = some second ∧
      run 5 .live 4 .builtins spins {} = some single ∧
      first.outcome = .failed (exhausted 3) ∧ Completes 3 1 second single := by
  intro exits spins
  have hlive (code : Code) (n : Nat) : LiveBefore .live .builtins code {} n :=
    liveBefore_live Registry.neverCancels_builtins code {} n
  refine ⟨?_, ?_⟩
  · obtain ⟨first, hfirst, hused⟩ : ∃ first, run 3 .live 2 .builtins exits {} = some first ∧
        first.outcome = .failed (exhausted 2) := ⟨_, rfl, rfl⟩
    obtain ⟨second, single, hsecond, hsingle, hcompletes⟩ :=
      run_resumes Registry.keepsDebug_builtins rfl (k := 2) (m := 5) (by decide) (hlive exits 3)
        hfirst hused
    have hwhole := hsingle 8 (by decide)
    obtain rfl := Option.some.inj hwhole
    exact ⟨first, second, _, hfirst, hsecond 6 (by decide), hwhole, hused, rfl, by decide +kernel,
      hcompletes, hcompletes.exit⟩
  · obtain ⟨first, hfirst, hused⟩ : ∃ first, run 4 .live 3 .builtins spins {} = some first ∧
        first.outcome = .failed (exhausted 3) := ⟨_, rfl, rfl⟩
    obtain ⟨second, single, hsecond, hsingle, hcompletes⟩ :=
      run_resumes Registry.keepsDebug_builtins rfl (k := 3) (m := 1) (by decide) (hlive spins 4)
        hfirst hused
    exact ⟨first, second, single, hfirst, hsecond 2 (by decide), hsingle 5 (by decide), hused,
      hcompletes⟩

end Budget

end StackMachine
