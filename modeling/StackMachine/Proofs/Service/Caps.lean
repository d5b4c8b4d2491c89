import StackMachine.Config.Settings
import StackMachine.Proofs.Machine.Limits
import StackMachine.Proofs.Service.Histories
import StackMachine.Shell.CommandLine

/-! The steps that a service allows a run. Of its cap and what the request asks for, the least
positive one counts, and where neither is positive the run is that of the machine. A negative cap is
not ruled out, and lets no request limit its run. -/
namespace StackMachine.Service

open Wire (RunRequest RunResponse)

/-- The least of the positive limits; zero if there is none. -/
def leastPositive (limits : List Int) : Int :=
  (limits.filter (0 < ·)).min?.getD 0

theorem leastPositive_spec {limits : List Int} {limit : Int} (hmem : limit ∈ limits)
    (hpos : 0 < limit) : 0 < leastPositive limits ∧ leastPositive limits ≤ limit := by
  have hlimit : limit ∈ limits.filter (0 < ·) := by simp [hmem, hpos]
  rw [leastPositive]
  cases hmin : (limits.filter (0 < ·)).min? with
  | none =>
    rw [List.min?_eq_none_iff.mp hmin] at hlimit
    cases hlimit
  | some least =>
    obtain ⟨hleast, hle⟩ := List.min?_eq_some_iff.mp hmin
    exact ⟨by simpa using (List.mem_filter.mp hleast).2, hle limit hlimit⟩

theorem effectiveLimit_eq_leastPositive {cap requested : Int} (hcap : 0 ≤ cap)
    (hrequested : 0 ≤ requested) :
    effectiveLimit cap requested = leastPositive [cap, requested] := by
  rw [effectiveLimit, leastPositive]
  by_cases hcap' : 0 < cap <;> by_cases hrequested' : 0 < requested <;>
    simp [hcap', hrequested'] <;> omega

/-- No limit is left if the cap is negative, or if there is none and none is asked for. -/
theorem effectiveLimit_le_zero {cap requested : Int} (h : cap < 0 ∨ cap = 0 ∧ requested = 0) :
    effectiveLimit cap requested ≤ 0 := by
  rw [effectiveLimit]
  split
  · omega
  · split <;> omega

section Running

variable {fuel : Nat} {context : Context} {s after : Service} {request : RunRequest}

private theorem toInt_ofNat_le (n : Nat) : (Int64.ofNat n).toInt ≤ n := by
  have hsize : Int64.size = 18446744073709551616 := rfl
  rw [Int64.toInt_ofNat', hsize, Int.bmod_def]
  split <;> omega

theorem steps_response_workOf (report : Report) :
    (workOf report).response.steps.toInt ≤ report.steps := by
  rw [workOf]
  split
  · exact Int.natCast_nonneg _
  · rw [Work.response, responseOf]
    split <;> exact toInt_ofNat_le _

theorem steps_le_of_execute {limit : Int} {m : Machine} {state : State} {work : Work}
    (hlimit : 0 < limit) (h : execute fuel context limit m request = some (state, work)) :
    work.response.steps.toInt ≤ limit := by
  cases hprogram : program m.registry request with
  | error fault =>
    rw [execute_of_unassembled hprogram] at h
    cases h
    exact Int.le_of_lt hlimit
  | ok code =>
    rw [execute_of_program hprogram] at h
    obtain ⟨report, hrun, heq⟩ := Option.map_eq_some_iff.mp h
    cases heq
    have hsteps := steps_response_workOf report
    have hallows := (Budget.ends_of_run hrun).allows
    rw [Budget.Allows] at hallows
    omega

theorem steps_le_of_ran {wait : Wait} {response : RunResponse}
    (hlimit : 0 < effectiveLimit s.stepCap request.maxSteps.toInt)
    (h : Ran fuel context s request wait after (.ok response)) :
    response.steps.toInt ≤ effectiveLimit s.stepCap request.maxSteps.toInt := by
  cases h with
  | alone _ _ hexecute => exact steps_le_of_execute hlimit hexecute
  | stopped _ _ _ _ | unbegun _ _ _ _ _ => exact Int.le_of_lt hlimit
  | continued _ _ _ _ hexecute =>
    cases wait with
    | served => exact steps_le_of_execute hlimit hexecute
    | left why begun => exact Int.le_of_lt hlimit

/-- A request that is executed without a limit is answered if and only if its machine returns, and
then with where it got. -/
theorem Sound.run_unlimited {P : Machine → Prop} (hs : s.Sound P)
    (hlimit : effectiveLimit s.stepCap request.maxSteps.toInt ≤ 0) {m : Machine} {code : Code}
    (hrefusal : refusal? request = none) (hm : s.machineFor? request = some m)
    (hprogram : program m.registry request = .ok code)
    (hlive : ∀ n, Budget.LiveBefore context m.registry code (prepare m.state request) n) :
    (s.run fuel context request = none ↔
      Machine.run fuel m.registry code (prepare m.state request) = none) ∧
    ∀ after reply, s.run fuel context request = some (after, reply) →
      ∃ n f, Machine.ReturnsAt m.registry code (prepare m.state request) n f ∧
        reply = .ok (workOf ⟨f.state, f.exit, f.output, n, f.outcome⟩).response := by
  rw [hs.run_eq hrefusal hm, execute_of_program hprogram]
  refine ⟨?_, ?_⟩
  · rw [Option.map_eq_none_iff, Option.map_eq_none_iff]
    exact Budget.run_eq_none_iff_of_unlimited hlimit hlive
  · intro after reply h
    obtain ⟨_, hexecute, heq⟩ := Option.map_eq_some_iff.mp h
    obtain ⟨report, hrun, rfl⟩ := Option.map_eq_some_iff.mp hexecute
    cases heq
    exact ⟨_, _, Budget.returnsAt_of_unlimited hlimit hlive hrun, rfl⟩

end Running

/-- The least positive one of the cap and the limit that a request asks for bounds the steps of its
run, if the cap is not negative. If it is, no request limits its run, and neither does one that asks
for no limit where there is no cap: such a run goes on until its machine returns. -/
theorem caps_bound_runs {cap : Int} {template : Machine} {s : Service} {request : RunRequest}
    (hs : Reachable cap template s) (hrequested : 0 ≤ request.maxSteps) :
    (0 ≤ cap → effectiveLimit s.stepCap request.maxSteps.toInt =
      leastPositive [cap, request.maxSteps.toInt]) ∧
    (∀ fresh wait after response,
      Answers s fresh wait (.run request) after (.ok (.run response)) →
      (0 < cap → response.steps.toInt ≤ cap) ∧
      (0 ≤ cap → 0 < request.maxSteps → response.steps ≤ request.maxSteps)) ∧
    (cap < 0 ∨ cap = 0 ∧ request.maxSteps = 0 →
      ∀ fuel context m code, refusal? request = none → s.machineFor? request = some m →
        program m.registry request = .ok code →
        (∀ n, Budget.LiveBefore context m.registry code (prepare m.state request) n) →
        (s.run fuel context request = none ↔
          Machine.run fuel m.registry code (prepare m.state request) = none) ∧
        ∀ after reply, s.run fuel context request = some (after, reply) →
          ∃ n f, Machine.ReturnsAt m.registry code (prepare m.state request) n f ∧
            reply = .ok (workOf ⟨f.state, f.exit, f.output, n, f.outcome⟩).response) := by
  have hstepCap : s.stepCap = cap := hs.configuration.1
  have hasked : 0 ≤ request.maxSteps.toInt := Int64.le_iff_toInt_le.mp hrequested
  refine ⟨?_, ?_, ?_⟩
  · intro hcap
    rw [hstepCap]
    exact effectiveLimit_eq_leastPositive hcap hasked
  · intro fresh wait after response h
    obtain ⟨fuel, context, reply, hreply, hran⟩ := h.ran
    obtain ⟨_, rfl⟩ : ∃ response, reply = .ok response := by
      cases reply with
      | ok response => exact ⟨response, rfl⟩
      | error refusal => cases hreply
    cases hreply
    have hsteps (limit : Int) (hmem : limit ∈ [cap, request.maxSteps.toInt]) (hcap : 0 ≤ cap)
        (hpos : 0 < limit) : response.steps.toInt ≤ limit := by
      obtain ⟨hleast, hle⟩ := leastPositive_spec hmem hpos
      rw [← effectiveLimit_eq_leastPositive hcap hasked, ← hstepCap] at hleast hle
      exact Int.le_trans (steps_le_of_ran hleast hran) hle
    refine ⟨?_, ?_⟩
    · intro hcap
      exact hsteps cap (by simp) (Int.le_of_lt hcap) hcap
    · intro hcap hpos
      rw [Int64.le_iff_toInt_le]
      exact hsteps _ (by simp) hcap (Int64.lt_iff_toInt_lt.mp hpos)
  · intro hnone fuel context m code hrefusal hm hprogram hlive
    have hlimit : effectiveLimit s.stepCap request.maxSteps.toInt ≤ 0 := by
      rw [hstepCap]
      apply effectiveLimit_le_zero
      rcases hnone with hcap | ⟨hcap, hzero⟩
      · exact .inl hcap
      · exact .inr ⟨hcap, by rw [hzero]; rfl⟩
    exact hs.registry.run_unlimited hlimit hrefusal hm hprogram hlive

/-- A program that never ends, under a cap that is smaller than the limit that is asked for. -/
theorem caps_bound_runs_spin :
    let s : Service := { stepCap := 3 }
    let request : RunRequest := { source := utf8 "JMP 0", maxSteps := 5 }
    let response : RunResponse :=
      { error := utf8 "step budget exhausted after 3 steps"
        errorClass := utf8 "budget"
        steps := 3
        stack := some [] }
    ∃ after, Reachable 3 .new s ∧ 0 ≤ request.maxSteps ∧
      Answers s [] .served (.run request) after (.ok (.run response)) ∧
      response.steps.toInt ≤ 3 ∧ response.steps ≤ request.maxSteps := by
  intro s request response
  have hanswer : (s.handle 9 [] (.run request)).map Prod.snd = some (.ok (.run response)) := by
    decide +kernel
  obtain ⟨⟨after, answer⟩, hhandle, rfl⟩ := Option.map_eq_some_iff.mp hanswer
  have hs : Reachable 3 .new s := .start
  have hasked : 0 ≤ request.maxSteps := by decide
  obtain ⟨-, hbounds, -⟩ := caps_bound_runs hs hasked
  obtain ⟨hcap, hrequested⟩ := hbounds [] .served after response (.handled hhandle)
  exact ⟨after, hs, hasked, .handled hhandle, hcap (by decide), hrequested (by decide) (by decide)⟩

/-- The command line can put a negative cap on a service, under which a request for two steps at
most is answered after four. -/
theorem negative_cap_lifts_requested_limit :
    let arguments := [utf8 "-serve", utf8 "-max-steps", utf8 "-1"]
    let request : RunRequest :=
      { source := utf8 "LOAD_CONST 1\nLOAD_CONST 1\nLOAD_CONST 1\nEXIT", maxSteps := 2 }
    ∃ plan s after response,
      Shell.plan Config.Settings.parse (.ofLookups []) [] arguments = .ok plan ∧
      plan.job = .serve plan.manifest.port ∧ plan.manifest.maxSteps = -1 ∧
      Reachable plan.manifest.maxSteps.toInt .new s ∧
      Answers s [] .served (.run request) after (.ok (.run response)) ∧
      response.steps = 4 ∧ ¬ response.steps ≤ request.maxSteps ∧
      effectiveLimit s.stepCap request.maxSteps.toInt ≠
        leastPositive [s.stepCap, request.maxSteps.toInt] := by
  intro arguments request
  let manifest : Config.Manifest := { maxSteps := -1 }
  let s : Service := { stepCap := -1 }
  let response : RunResponse := { exit := 1, steps := 4, stack := some [1, 1, 1], pc := 4 }
  have hplan : Shell.plan Config.Settings.parse (.ofLookups []) [] arguments =
      .ok { manifest, job := .serve manifest.port } := by decide +kernel
  have hanswer : (s.handle 9 [] (.run request)).map Prod.snd = some (.ok (.run response)) := by
    decide +kernel
  obtain ⟨⟨after, answer⟩, hhandle, rfl⟩ := Option.map_eq_some_iff.mp hanswer
  exact ⟨_, s, after, response, hplan, rfl, rfl, .start, .handled hhandle, rfl, by decide,
    by decide⟩

end StackMachine.Service
