import StackMachine.Budget
import StackMachine.Proofs.Machine.Steps

/-! Runs under limits agree with unlimited ones up to the limit. A run that returns before its
context asks or its budget is used up is the unlimited run; otherwise it is cut off after exactly
the steps that the limit allows. -/
namespace StackMachine.Budget

open Machine (Proceeds ReturnsAt announce step)

/-- What the context asks for after a number of steps, of which the last may have cancelled the
run. -/
def asked (context : Context) (steps : Nat) (cancels : Bool) : Option Interruption :=
  match context steps with
  | some why => some why
  | none => if cancels then some .canceled else none

/-- The context asks for nothing before each of the first `n` steps of a run. -/
def LiveBefore (context : Context) (r : Registry) (code : Code) (s : State) (n : Nat) : Prop :=
  ∀ k < n, ∀ t cancels, Proceeds r code (announce r code s) k t cancels →
    asked context k cancels = none

/-- The budget allows a number of steps; one that is not positive allows any. -/
def Allows (maxSteps : Int) (n : Nat) : Prop :=
  maxSteps ≤ 0 ∨ n ≤ maxSteps

variable {context : Context} {maxSteps : Int} {r : Registry} {code : Code} {s : State}

/-- One turn of a limited run: the context is asked first, then the budget is checked, and then
the machine takes a step. -/
theorem runFrom_succ (fuel steps : Nat) (cancels : Bool) :
    runFrom context maxSteps r code (fuel + 1) steps cancels s =
      match asked context steps cancels with
      | some why => some ⟨s, 0, s.output, steps, .failed why.fault⟩
      | none =>
        if 0 < maxSteps ∧ maxSteps ≤ steps then
          some ⟨s, 0, s.output, steps, .failed (exhausted steps)⟩
        else
          match (step r code s).finish? with
          | some f => some ⟨f.state, f.exit, f.output, steps + 1, f.outcome⟩
          | none => runFrom context maxSteps r code fuel (steps + 1) (step r code s).cancels
              (step r code s).state := by
  conv =>
    lhs
    unfold runFrom
  unfold asked StepResult.finish?
  cases context steps with
  | some why => rfl
  | none =>
    cases cancels with
    | true => rfl
    | false =>
      simp only [Bool.false_eq_true, if_false]
      cases (step r code s).signal <;> rfl

/-- What holds of every state that a run passes through, and then of every way in which it can end
there, holds of its report. -/
theorem run_invariant {P : State → Prop} {Q : State → Outcome → Prop}
    (hstep : ∀ t, P t → P (step r code t).state)
    (hfinish : ∀ t f, P t → (step r code t).finish? = some f → Q f.state f.outcome)
    (hexhausted : ∀ t n, P t → Q t (.failed (exhausted n)))
    (hasked : ∀ t (why : Interruption), P t → Q t (.failed why.fault))
    (hs : P (announce r code s)) {fuel : Nat} {report : Report}
    (h : run fuel context maxSteps r code s = some report) : Q report.state report.outcome := by
  have hfrom (fuel steps : Nat) (cancels : Bool) (t : State) (ht : P t)
      (h : runFrom context maxSteps r code fuel steps cancels t = some report) :
      Q report.state report.outcome := by
    induction fuel generalizing steps cancels t with
    | zero => cases h
    | succ fuel ih =>
      rw [runFrom_succ] at h
      cases ha : asked context steps cancels with
      | some why =>
        simp only [ha, Option.some.injEq] at h
        subst h
        exact hasked t why ht
      | none =>
        simp only [ha] at h
        split at h
        · cases h
          exact hexhausted t steps ht
        · cases hf : (step r code t).finish? with
          | some f =>
            simp only [hf, Option.some.injEq] at h
            subst h
            exact hfinish t f ht hf
          | none =>
            simp only [hf] at h
            exact ih (steps + 1) _ _ (hstep t ht) h
  exact hfrom fuel 0 false _ hs h

private theorem not_exhausted {n : Nat} (h : Allows maxSteps (n + 1)) :
    ¬ (0 < maxSteps ∧ maxSteps ≤ n) := by
  unfold Allows at h
  omega

/-- Steps that the limits allow lead a limited run to where they lead the machine. -/
theorem run_of_proceeds {n : Nat} {t : State} {cancels : Bool}
    (h : Proceeds r code (announce r code s) n t cancels)
    (hlive : LiveBefore context r code s n) (hallows : Allows maxSteps n) (fuel : Nat) :
    run (n + fuel) context maxSteps r code s =
      runFrom context maxSteps r code fuel n cancels t := by
  induction h generalizing fuel with
  | start => rw [Nat.zero_add, run]
  | step hp hmore ih =>
    rename_i n t cancels
    have hlive' : LiveBefore context r code s n := fun k hk => hlive k (Nat.lt_succ_of_lt hk)
    have hallows' : Allows maxSteps n := by
      unfold Allows at hallows ⊢
      omega
    rw [Nat.add_assoc, ih hlive' hallows', Nat.add_comm 1, runFrom_succ,
      hlive n (Nat.lt_succ_self n) t cancels hp]
    simp only [if_neg (not_exhausted hallows), StepResult.finish?_eq_none_iff.mpr hmore]

/-- A run that returns within its limits reports what the machine returns. -/
theorem run_of_returnsAt {n fuel : Nat} {f : Finish} (h : ReturnsAt r code s n f)
    (hlive : LiveBefore context r code s n) (hallows : Allows maxSteps n) (hfuel : n ≤ fuel) :
    run fuel context maxSteps r code s = some ⟨f.state, f.exit, f.output, n, f.outcome⟩ := by
  obtain ⟨k, t, cancels, rfl, hp, hf⟩ := Machine.returnsAt_iff.mp h
  obtain ⟨rest, rfl⟩ : ∃ rest, fuel = k + (rest + 1) := ⟨fuel - k - 1, by omega⟩
  have hlive' : LiveBefore context r code s k := fun i hi => hlive i (Nat.lt_succ_of_lt hi)
  have hallows' : Allows maxSteps k := by
    unfold Allows at hallows ⊢
    omega
  rw [run_of_proceeds hp hlive' hallows', runFrom_succ, hlive k (Nat.lt_succ_self k) t cancels hp]
  simp only [if_neg (not_exhausted hallows), hf]

/-- The ways in which a limited run can end: the machine returns, the context asks, or the budget
is used up. -/
inductive Ends (context : Context) (maxSteps : Int) (r : Registry) (code : Code) (s : State) :
    Report → Prop where
  | returned {n : Nat} {f : Finish} : ReturnsAt r code s n f → Allows maxSteps n →
      Ends context maxSteps r code s ⟨f.state, f.exit, f.output, n, f.outcome⟩
  | interrupted {n : Nat} {t : State} {cancels : Bool} {why : Interruption} :
      Proceeds r code (announce r code s) n t cancels → Allows maxSteps n →
      asked context n cancels = some why →
      Ends context maxSteps r code s ⟨t, 0, t.output, n, .failed why.fault⟩
  | usedUp {n : Nat} {t : State} {cancels : Bool} :
      Proceeds r code (announce r code s) n t cancels → 0 < maxSteps → maxSteps = n →
      Ends context maxSteps r code s ⟨t, 0, t.output, n, .failed (exhausted n)⟩

theorem Ends.allows {report : Report} (h : Ends context maxSteps r code s report) :
    Allows maxSteps report.steps := by
  cases h with
  | returned _ hallows | interrupted _ hallows _ => exact hallows
  | usedUp _ _ heq => exact .inr (Int.le_of_eq heq.symm)

theorem ends_of_run {fuel : Nat} {report : Report}
    (h : run fuel context maxSteps r code s = some report) :
    Ends context maxSteps r code s report := by
  -- From wherever the run has come to: what carries the induction is that the limit allows so much.
  have hfrom (fuel n : Nat) (cancels : Bool) (t : State)
      (hp : Proceeds r code (announce r code s) n t cancels) (hallows : Allows maxSteps n)
      (h : runFrom context maxSteps r code fuel n cancels t = some report) :
      Ends context maxSteps r code s report := by
    induction fuel generalizing n cancels t with
    | zero => cases h
    | succ fuel ih =>
      rw [runFrom_succ] at h
      cases ha : asked context n cancels with
      | some why =>
        simp only [ha, Option.some.injEq] at h
        subst h
        exact .interrupted hp hallows ha
      | none =>
        simp only [ha] at h
        split at h
        · rename_i hused
          cases h
          rw [Allows] at hallows
          exact .usedUp hp hused.1 (by omega)
        · rename_i hleft
          have hnext : Allows maxSteps (n + 1) := by
            rw [Allows]
            omega
          cases hf : (step r code t).finish? with
          | some f =>
            simp only [hf, Option.some.injEq] at h
            subst h
            exact .returned (Machine.returnsAt_iff.mpr ⟨n, t, cancels, rfl, hp, hf⟩) hnext
          | none =>
            simp only [hf] at h
            exact ih (n + 1) _ _ (hp.step (StepResult.finish?_eq_none_iff.mp hf)) hnext h
  exact hfrom fuel 0 false _ .start (by rw [Allows]; omega) h

/-- Whatever ends a run but an instruction that breaks off, the whole output is returned. -/
theorem output_of_run {fuel : Nat} {report : Report}
    (h : run fuel context maxSteps r code s = some report)
    (hwhole : ∀ message, report.outcome ≠ .crashed message) :
    report.output = report.state.output := by
  cases ends_of_run h with
  | returned hreturns _ =>
    obtain ⟨_, _, _, rfl, -, hf⟩ := Machine.returnsAt_iff.mp hreturns
    exact (StepResult.returned_of_finish? hf).2.2 hwhole
  | interrupted _ _ _ | usedUp _ _ _ => rfl

section Unlimited

variable (hmax : maxSteps ≤ 0) (hlive : ∀ n, LiveBefore context r code s n)
include hmax hlive

/-- A run without limits ends where the machine returns. -/
theorem returnsAt_of_unlimited {fuel : Nat} {report : Report}
    (h : run fuel context maxSteps r code s = some report) :
    ReturnsAt r code s report.steps
      ⟨report.state, report.exit, report.output, report.outcome⟩ := by
  cases ends_of_run h with
  | returned hreturns _ => exact hreturns
  | @interrupted n t cancels why hp _ hasked =>
    rw [hlive (n + 1) n (Nat.lt_succ_self n) t cancels hp] at hasked
    cases hasked
  | usedUp _ hpos _ => omega

/-- A run without limits ends if and only if that of the machine does. -/
theorem run_eq_none_iff_of_unlimited {fuel : Nat} :
    run fuel context maxSteps r code s = none ↔ Machine.run fuel r code s = none := by
  rcases Machine.proceeds_or_finishes r code (announce r code s) fuel with
    ⟨t, cancels, hp⟩ | ⟨k, hk, t, cancels, f, hp, hf⟩
  · have hnone : run fuel context maxSteps r code s = none :=
      run_of_proceeds hp (hlive fuel) (.inl hmax) 0
    have hgoesOn : Machine.run fuel r code s = none :=
      Machine.runFrom_eq_none_iff.mpr ⟨t, cancels, hp⟩
    simp only [hnone, hgoesOn]
  · have hreturns : ReturnsAt r code s (k + 1) f :=
      Machine.returnsAt_iff.mpr ⟨k, t, cancels, rfl, hp, hf⟩
    rw [run_of_returnsAt hreturns (hlive (k + 1)) (.inl hmax) hk, hreturns.run_eq hk]
    simp

end Unlimited

/-- The fault of a used up budget can be recognised by its kind. -/
theorem exhausted_has_budgetExhausted (steps : Nat) :
    (exhausted steps).has .budgetExhausted = true := by
  simp [exhausted, Fault.has, Fault.parts]

/-- A limited run is the machine's run if that returns within the limits, and returns the same exit
value and output. If the budget is used up before, it stops after exactly that many steps, and if
the context asks before, it stops after the step during which it did, whether or not that was the
last one of the budget; in both cases it returns the output so far and no exit value. -/
theorem run_refines_machine_run (context : Context) (maxSteps : Int) (r : Registry) (code : Code)
    (s : State) :
    (∀ n f, ReturnsAt r code s n f → LiveBefore context r code s n → Allows maxSteps n →
      ∀ fuel, n ≤ fuel → run fuel context maxSteps r code s =
        some ⟨f.state, f.exit, f.output, n, f.outcome⟩) ∧
    (∀ n : Nat, maxSteps = n → 0 < n → Machine.run n r code s = none →
      LiveBefore context r code s (n + 1) →
      ∃ t cancels, Proceeds r code (announce r code s) n t cancels ∧
        (exhausted n).has .budgetExhausted = true ∧
        ∀ fuel, n < fuel →
          run fuel context maxSteps r code s =
            some ⟨t, 0, t.output, n, .failed (exhausted n)⟩) ∧
    (∀ j t cancels why, Proceeds r code (announce r code s) j t cancels →
      LiveBefore context r code s j → asked context j cancels = some why → Allows maxSteps j →
      ∀ fuel, j < fuel → run fuel context maxSteps r code s =
        some ⟨t, 0, t.output, j, .failed why.fault⟩) := by
  refine ⟨?_, ?_, ?_⟩
  · exact fun n f hret hlive hallows fuel hfuel => run_of_returnsAt hret hlive hallows hfuel
  · intro n hmax hpos hnone hlive
    obtain ⟨t, cancels, hp⟩ := Machine.runFrom_eq_none_iff.mp hnone
    refine ⟨t, cancels, hp, exhausted_has_budgetExhausted n, fun fuel hfuel => ?_⟩
    obtain ⟨rest, rfl⟩ : ∃ rest, fuel = n + (rest + 1) := ⟨fuel - n - 1, by omega⟩
    have hlive' : LiveBefore context r code s n := fun i hi => hlive i (Nat.lt_succ_of_lt hi)
    rw [run_of_proceeds hp hlive' (.inr (by omega)), runFrom_succ,
      hlive n (Nat.lt_succ_self n) t cancels hp]
    exact if_pos ⟨by omega, by omega⟩
  · intro j t cancels why hp hlive hasked hallows fuel hfuel
    obtain ⟨rest, rfl⟩ : ∃ rest, fuel = j + (rest + 1) := ⟨fuel - j - 1, by omega⟩
    rw [run_of_proceeds hp hlive hallows, runFrom_succ, hasked]

/-- A live context stays live if no instruction cancels the run. -/
theorem liveBefore_live {r : Registry} (h : r.NeverCancels) (code : Code) (s : State) (n : Nat) :
    LiveBefore .live r code s n := by
  intro k _ t cancels hp
  rw [hp.cancels_eq_false h]
  rfl

/-- A program that exits with its second step, one that never ends, and a context that asks
during the first step, which is also the last one of the budget. -/
theorem run_refines_machine_run_exit_spin :
    let exits : Code := [⟨1, 7⟩, ⟨2, 0⟩]
    let spins : Code := [⟨9, 0⟩]
    let expires : Context := fun steps => if steps = 0 then none else some .deadlineExceeded
    run 2 .live 2 .builtins exits {} = some ⟨{ pc := 2, stack := [7] }, 7, [], 2, .halted⟩ ∧
    run 4 .live 3 .builtins spins {} = some ⟨{}, 0, [], 3, .failed (exhausted 3)⟩ ∧
    run 2 expires 1 .builtins spins {} =
      some ⟨{}, 0, [], 1, .failed (.kind .deadlineExceeded)⟩ := by
  intro exits spins expires
  have hlive (code : Code) (n : Nat) : LiveBefore .live .builtins code {} n :=
    liveBefore_live Registry.neverCancels_builtins code {} n
  refine ⟨?_, ?_, ?_⟩
  · have hret : ReturnsAt .builtins exits {} 2
        ⟨{ pc := 2, stack := [7] }, 7, [], .halted⟩ := by
      refine ⟨rfl, fun k hk => ?_⟩
      match k with
      | 0 => rfl
      | 1 => rfl
    exact (run_refines_machine_run .live 2 .builtins exits {}).1 2 _ hret (hlive exits 2)
      (.inr (by decide)) 2 (Nat.le_refl 2)
  · obtain ⟨t, cancels, hp, _, h⟩ := (run_refines_machine_run .live 3 .builtins spins {}).2.1 3 rfl
      (by decide) rfl (hlive spins 4)
    have hspins : Proceeds .builtins spins {} 3 {} false :=
      ((Proceeds.start.step rfl).step rfl).step rfl
    rw [h 4 (by decide), hp.state_unique hspins]
    rfl
  · have hspins : Proceeds .builtins spins {} 1 {} false := Proceeds.start.step rfl
    have hlive' : LiveBefore expires .builtins spins {} 1 := by
      intro k hk t cancels hp
      obtain rfl : k = 0 := by omega
      rw [hp.cancels_eq_false Registry.neverCancels_builtins]
      rfl
    exact (run_refines_machine_run expires 1 .builtins spins {}).2.2 1 _ _ .deadlineExceeded hspins
      hlive' rfl (.inr (by decide)) 2 (by decide)

end StackMachine.Budget
