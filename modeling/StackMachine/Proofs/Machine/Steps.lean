import StackMachine.Machine
import StackMachine.Proofs.Builtin

/-! Runs as sequences of steps. A run goes on for a number of steps, and the one after them may
finish it; a run with fuel returns exactly if there is fuel for the step that finishes. -/
namespace StackMachine

/-- The instruction stands at an address of the code. -/
structure Code.At (code : Code) (pc : Int64) (i : Instruction) : Prop where
  nonneg : 0 ≤ pc.toInt
  inside : pc.toInt < code.length
  found : code[pc.toInt.toNat]? = some i

namespace Code

variable {code : Code} {pc : Int64}

private theorem lt_zero_iff : pc < 0 ↔ pc.toInt < 0 :=
  Int64.lt_iff_toInt_lt

theorem fetch?_eq_some_iff {i : Instruction} : code.fetch? pc = some i ↔ code.At pc i := by
  unfold fetch?
  split
  · rename_i hneg
    rw [lt_zero_iff] at hneg
    constructor
    · intro h
      cases h
    · intro h
      have := h.nonneg
      omega
  · rename_i hpos
    rw [lt_zero_iff] at hpos
    constructor
    · intro h
      have hlt := (List.getElem?_eq_some_iff.mp h).1
      exact ⟨by omega, by omega, h⟩
    · exact At.found

theorem fetch?_eq_none_iff : code.fetch? pc = none ↔ pc.toInt < 0 ∨ code.length ≤ pc.toInt := by
  unfold fetch?
  split
  · rename_i hneg
    rw [lt_zero_iff] at hneg
    exact ⟨fun _ => .inl hneg, fun _ => rfl⟩
  · rename_i hpos
    rw [lt_zero_iff] at hpos
    rw [List.getElem?_eq_none_iff]
    omega

end Code

/-- How a run ends with a step, unless it goes on. -/
def StepResult.finish? (result : StepResult) : Option Finish :=
  match result.signal with
  | .more => none
  | .halted =>
    some { state := result.state, exit := result.state.exitValue, output := result.state.output,
           outcome := .halted }
  | .failed fault =>
    some { state := result.state, output := result.state.output, outcome := .failed fault }
  | .crashed message => some { state := result.state, outcome := .crashed message }

theorem StepResult.finish?_eq_none_iff {result : StepResult} :
    result.finish? = none ↔ result.signal = .more := by
  unfold finish?
  cases result.signal <;> simp

theorem StepResult.state_of_finish? {x : StepResult} {f : Finish} (h : x.finish? = some f) :
    f.state = x.state := by
  unfold finish? at h
  cases hx : x.signal <;> simp only [hx, Option.some.injEq, reduceCtorEq] at h <;> rw [← h]

/-- What a run returns belongs to the state that it leaves: the top of the stack if it halted and
zero if it failed, and the output, unless an instruction broke off. -/
theorem StepResult.returned_of_finish? {x : StepResult} {f : Finish} (h : x.finish? = some f) :
    (f.outcome = .halted → f.exit = f.state.exitValue) ∧
      (∀ fault, f.outcome = .failed fault → f.exit = 0) ∧
      ((∀ message, f.outcome ≠ .crashed message) → f.output = f.state.output) := by
  unfold finish? at h
  cases hx : x.signal <;> simp only [hx, Option.some.injEq, reduceCtorEq] at h <;> subst h <;> simp

/-- No instruction of the registry asks for the run to be cancelled. -/
def Registry.NeverCancels (r : Registry) : Prop :=
  ∀ e ∈ r.entries, ∀ s arg, (e.behavior s arg).cancels = false

theorem Registry.neverCancels_builtins : Registry.builtins.NeverCancels := by
  intro e he s arg
  obtain ⟨b, rfl⟩ := Registry.mem_builtins he
  exact (b.acts_effect s arg).cancels_eq_false

namespace Machine

/-- From state `s` a number of steps lead to a state, and the run goes on after each of them. The
flag tells whether the last one asked for the run to be cancelled. -/
inductive Proceeds (r : Registry) (code : Code) (s : State) : Nat → State → Bool → Prop where
  | start : Proceeds r code s 0 s false
  | step {n : Nat} {t : State} {cancels : Bool} :
      Proceeds r code s n t cancels → (step r code t).signal = .more →
        Proceeds r code s (n + 1) (step r code t).state (step r code t).cancels

/-- The run of a code from a state returns with its `n`-th step and not before. -/
def ReturnsAt (r : Registry) (code : Code) (s : State) (n : Nat) (f : Finish) : Prop :=
  run n r code s = some f ∧ ∀ k < n, run k r code s = none

variable {r : Registry} {code : Code} {s : State}

theorem announce_of_not_debug (r : Registry) (code : Code) (hs : s.debug = false) :
    announce r code s = s := by
  simp [announce, hs]

theorem Proceeds.state_unique {n : Nat} {t t' : State} {cancels cancels' : Bool}
    (h : Proceeds r code s n t cancels) (h' : Proceeds r code s n t' cancels') : t = t' := by
  induction h generalizing t' cancels' with
  | start =>
    cases h'
    rfl
  | step _ _ ih =>
    cases h' with
    | step hp _ => rw [ih hp]

/-- The state in which an instruction runs: traced, with the counter advanced. -/
def entering (r : Registry) (i : Instruction) (s : State) : State :=
  { (if s.debug then s.report (traceLine r i s.pc) else s) with pc := s.pc + 1 }

/-- What a step makes of a verdict of the instruction that it executes. -/
def signalOf (e : Entry) (i : Instruction) (pc : Int64) : Verdict → Signal
  | .proceed => .more
  | .halt => .halted
  | .fail fault _ => .failed (.runtime fault pc i.op e.mnemonic)
  | .crash message => .crashed message

theorem step_outside (h : code.fetch? s.pc = none) :
    step r code s =
      { state := s, signal := .failed (.runtime (.kind .counterOutOfBounds) s.pc 0 []) } := by
  rw [step, h]

theorem step_unknown {i : Instruction} (h : code.fetch? s.pc = some i)
    (he : r.entry? i.op = none) :
    step r code s =
      { state := entering r i s
        signal := .failed (.runtime (.kind .unknownOpcode) s.pc i.op []) } := by
  simp only [step, h, he]
  rfl

theorem step_known {i : Instruction} {e : Entry} (h : code.fetch? s.pc = some i)
    (he : r.entry? i.op = some e) :
    step r code s =
      { state := (e.behavior (entering r i s) i.arg).state
        signal := signalOf e i s.pc (e.behavior (entering r i s) i.arg).verdict
        cancels := (e.behavior (entering r i s) i.arg).cancels } := by
  simp only [step, h, he]
  rfl

private theorem step_cancels_eq_false (h : r.NeverCancels) (code : Code) (s : State) :
    (step r code s).cancels = false := by
  cases hf : code.fetch? s.pc with
  | none => rw [step_outside hf]
  | some i =>
    cases he : r.entry? i.op with
    | none => rw [step_unknown hf he]
    | some e =>
      rw [step_known hf he]
      exact h e (List.mem_of_getElem? he) _ _

theorem Proceeds.cancels_eq_false {n : Nat} {t : State} {cancels : Bool}
    (hp : Proceeds r code s n t cancels) (h : r.NeverCancels) : cancels = false := by
  cases hp with
  | start => rfl
  | step _ _ => exact step_cancels_eq_false h code _

theorem runFrom_succ (fuel : Nat) :
    runFrom r code (fuel + 1) s =
      match (step r code s).finish? with
      | some f => some f
      | none => runFrom r code fuel (step r code s).state := by
  rw [runFrom, StepResult.finish?]
  cases (step r code s).signal <;> rfl

/-- A run is that of the rest after steps that let it go on. -/
theorem Proceeds.runFrom_add {n : Nat} {t : State} {cancels : Bool}
    (h : Proceeds r code s n t cancels) (fuel : Nat) :
    runFrom r code (n + fuel) s = runFrom r code fuel t := by
  induction h generalizing fuel with
  | start => rw [Nat.zero_add]
  | step _ hmore ih =>
    rw [Nat.add_assoc, ih, Nat.add_comm 1, runFrom_succ, StepResult.finish?_eq_none_iff.mpr hmore]

/-- However many steps are allowed, the run goes on for all of them or one of them finishes it. -/
theorem proceeds_or_finishes (r : Registry) (code : Code) (s : State) (n : Nat) :
    (∃ t cancels, Proceeds r code s n t cancels) ∨
      ∃ k < n, ∃ t cancels f, Proceeds r code s k t cancels ∧ (step r code t).finish? = some f := by
  induction n with
  | zero => exact .inl ⟨s, false, .start⟩
  | succ n ih =>
    rcases ih with ⟨t, cancels, h⟩ | ⟨k, hk, t, cancels, f, h, hf⟩
    · cases hf : (step r code t).finish? with
      | none => exact .inl ⟨_, _, h.step (StepResult.finish?_eq_none_iff.mp hf)⟩
      | some f => exact .inr ⟨n, Nat.lt_succ_self n, t, cancels, f, h, hf⟩
    · exact .inr ⟨k, Nat.lt_succ_of_lt hk, t, cancels, f, h, hf⟩

private theorem runFrom_of_finish {k n : Nat} {t : State} {cancels : Bool} {f : Finish}
    (hk : k < n) (h : Proceeds r code s k t cancels) (hf : (step r code t).finish? = some f) :
    runFrom r code n s = some f := by
  obtain ⟨fuel, rfl⟩ : ∃ fuel, n = k + (fuel + 1) := ⟨n - k - 1, by omega⟩
  rw [h.runFrom_add, runFrom_succ, hf]

/-- A run has not returned within a number of steps exactly if it goes on for all of them. -/
theorem runFrom_eq_none_iff {n : Nat} :
    runFrom r code n s = none ↔ ∃ t cancels, Proceeds r code s n t cancels := by
  constructor
  · intro h
    rcases proceeds_or_finishes r code s n with hp | ⟨k, hk, t, cancels, f, hp, hf⟩
    · exact hp
    · rw [runFrom_of_finish hk hp hf] at h
      cases h
  · rintro ⟨t, cancels, hp⟩
    exact hp.runFrom_add 0

/-- A run returns with the step that finishes it. -/
theorem returnsAt_iff {n : Nat} {f : Finish} :
    ReturnsAt r code s n f ↔ ∃ k t cancels, n = k + 1 ∧
      Proceeds r code (announce r code s) k t cancels ∧ (step r code t).finish? = some f := by
  constructor
  · rintro ⟨hn, hlt⟩
    rcases proceeds_or_finishes r code (announce r code s) n with
      hp | ⟨k, hk, t, cancels, g, hp, hg⟩
    · rw [run, runFrom_eq_none_iff.mpr hp] at hn
      cases hn
    · have hsucc : run (k + 1) r code s = some g := runFrom_of_finish (Nat.lt_succ_self k) hp hg
      have hle : ¬ k + 1 < n := by
        intro hlt'
        rw [hlt (k + 1) hlt'] at hsucc
        cases hsucc
      obtain rfl : n = k + 1 := by omega
      rw [hn, Option.some.injEq] at hsucc
      exact ⟨k, t, cancels, rfl, hp, hsucc ▸ hg⟩
  · rintro ⟨k, t, cancels, rfl, hp, hf⟩
    refine ⟨runFrom_of_finish (Nat.lt_succ_self k) hp hf, fun j hj => ?_⟩
    -- A run that returned before could not go on to step `k`.
    rcases proceeds_or_finishes r code (announce r code s) j with
      hj' | ⟨i, hi, u, c, g, hu, hg⟩
    · exact runFrom_eq_none_iff.mpr hj'
    · have hnone := runFrom_eq_none_iff.mpr ⟨t, cancels, hp⟩
      rw [runFrom_of_finish (by omega) hu hg] at hnone
      cases hnone

/-- A run that has returned would have done so with more fuel too. -/
theorem ReturnsAt.run_eq {n fuel : Nat} {f : Finish} (h : ReturnsAt r code s n f)
    (hfuel : n ≤ fuel) : run fuel r code s = some f := by
  obtain ⟨k, t, cancels, rfl, hp, hf⟩ := returnsAt_iff.mp h
  exact runFrom_of_finish hfuel hp hf

end Machine

end StackMachine
