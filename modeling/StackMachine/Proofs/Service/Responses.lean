import Mathlib.Data.List.Basic
import StackMachine.Proofs.Machine.Limits
import StackMachine.Proofs.Service.Histories
import StackMachine.Proofs.Service.Reset

/-! Responses to runs and the states that they tell of. A response to a program that was executed
tells the stack, the counter and the whole output of the machine as they were left; one to a text
that does not assemble tells the stack and the counter, but no output, whatever was written
before. -/
namespace StackMachine.Service

open Wire (RunRequest RunResponse)

/-- The response tells the stack, the counter and the output of a state. -/
structure Reflects (response : RunResponse) (state : State) : Prop where
  stack : response.stack = some state.bottomUp
  pc : response.pc = state.pc
  output : response.output = state.output

theorem reflects_responseOf {report : Report} (h : report.output = report.state.output) :
    Reflects (responseOf report) report.state := by
  unfold responseOf
  split <;> exact ⟨rfl, rfl, h⟩

/-- The flag and the stream that a run gives back are not told of. -/
theorem Reflects.restore {response : RunResponse} {after : State} (h : Reflects response after)
    (before : State) : Reflects response (restore before after) :=
  ⟨h.stack, h.pc, h.output⟩

section Executing

variable {fuel : Nat} {context : Context} {limit : Int} {m : Machine} {request : RunRequest}
  {state : State} {work : Work}

/-- A program that is executed and not broken off is answered with the state that it reached. -/
theorem reflects_of_program {code : Code} (hprogram : program m.registry request = .ok code)
    (h : execute fuel context limit m request = some (state, work))
    (hwhole : ∀ message, work ≠ .crashed message) : Reflects work.response state := by
  rw [execute_of_program hprogram] at h
  obtain ⟨report, hrun, heq⟩ := Option.map_eq_some_iff.mp h
  cases heq
  unfold workOf at hwhole ⊢
  cases houtcome : report.outcome with
  | crashed message =>
    rw [houtcome] at hwhole
    exact absurd rfl (hwhole message)
  | halted | failed fault =>
    have houtput := Budget.output_of_run hrun (by simp [houtcome])
    exact (reflects_responseOf houtput).restore m.state

/-- A text that does not assemble is answered without the output. -/
theorem response_of_unassembled {fault : Fault}
    (hprogram : program m.registry request = .error fault)
    (h : execute fuel context limit m request = some (state, work)) :
    work.response.stack = some state.bottomUp ∧ work.response.pc = state.pc ∧
      work.response.output = [] := by
  rw [execute_of_unassembled hprogram] at h
  cases h
  exact ⟨rfl, rfl, rfl⟩

end Executing

/-- The response to a run on a session, unless its client left or an instruction broke off, tells
the state that the session's machine is left in: all of it if there was a program to execute, and all
but the output, in whose place it tells of none, if the text did not assemble. -/
theorem run_response_tells_state {cap : Int} {template : Machine} {s after : Service}
    {fresh id : Bytes} {request : RunRequest} {response : RunResponse}
    (hs : Reachable cap template s) (hid : named request.sessionId = some id)
    (h : Answers s fresh .served (.run request) after (.ok (.run response))) :
    ∃ fuel context session state work,
      s.sessions.get? id = some session ∧ after.stateOf id = some state ∧
      execute fuel context (effectiveLimit s.stepCap request.maxSteps.toInt) session.machine
        request = some (state, work) ∧ response = work.response ∧
      ((∀ message, work ≠ .crashed message) →
        (∀ code, program session.machine.registry request = .ok code → Reflects response state) ∧
        ∀ fault, program session.machine.registry request = .error fault →
          response.stack = some state.bottomUp ∧ response.pc = state.pc ∧
            response.output = []) := by
  obtain ⟨fuel, context, hran⟩ := h.ran_of_ok
  cases hran with
  | alone _ hnone _ => cases hnone.symm.trans hid
  | unbegun _ _ _ _ hwait => cases hwait
  | stopped _ hid' hget hstopped =>
    -- No session of a service that was set up without sessions is ever stopped.
    cases hstopped.symm.trans (hs.registry _ _ hget).1
  | @continued id' session state work _ hid' hget _ hexecute =>
    obtain rfl : id' = id := Option.some.inj (hid'.symm.trans hid)
    refine ⟨fuel, context, session, state, work, hget, stateOf_setState hget state, hexecute, rfl,
      fun hwhole => ⟨fun code hcode => ?_, fun fault hfault => ?_⟩⟩
    · exact reflects_of_program hcode hexecute hwhole
    · exact response_of_unassembled hfault hexecute

/-- Requests that open a session and have its machine write a letter. -/
def lettered (id : Bytes) : List (Bytes × Request) :=
  [(id, .createSession {}),
    ([], .run { source := utf8 "LOAD_CONST 65\nWRITE_CHAR\nEXIT", sessionId := id })]

/-- A run that goes on writing where the last one stopped, and then fails. -/
theorem run_response_tells_state_underflow :
    let a := utf8 "a"
    let request : RunRequest := { source := utf8 "POP\nPOP\nPOP\nWRITE\nADD", sessionId := a }
    ∃ s answers after response state,
      handleAll 9 {} (lettered a) = some (s, answers) ∧
      Answers s [] .served (.run request) after (.ok (.run response)) ∧
      response.errorClass = utf8 "runtime" ∧ response.output = utf8 "A65" ∧
      after.stateOf a = some state ∧ Reflects response state := by
  intro a request
  let response : RunResponse :=
    { output := utf8 "A65"
      error := utf8 "pc=4 ADD: stack underflow"
      errorClass := utf8 "runtime"
      steps := 2
      stack := some []
      pc := 5 }
  have hrun : ((handleAll 9 {} (lettered a)).bind fun result =>
      (result.1.handle 9 [] (.run request)).map Prod.snd) = some (.ok (.run response)) := by
    decide +kernel
  obtain ⟨⟨s, answers⟩, hs, hhandle⟩ := Option.bind_eq_some_iff.mp hrun
  obtain ⟨⟨after, answer⟩, hhandle, rfl⟩ := Option.map_eq_some_iff.mp hhandle
  have hreachable : Reachable 0 .new s := Reachable.start.handleAll hs
  have hid : named request.sessionId = some a := rfl
  obtain ⟨_, _, session, state, work, hget, hstate, -, hresponse, htells⟩ :=
    run_response_tells_state hreachable hid (.handled hhandle)
  -- A run that broke off would be answered without a stack.
  have hwhole : ∀ message, work ≠ .crashed message := by
    rintro message rfl
    cases congrArg RunResponse.stack hresponse
  have hcode : program Machine.new.registry request =
      .ok [⟨3, 0⟩, ⟨3, 0⟩, ⟨3, 0⟩, ⟨11, 0⟩, ⟨4, 0⟩] := by
    decide +kernel
  rw [← (hreachable.registry a session hget).2] at hcode
  exact ⟨s, answers, after, response, state, hs, .handled hhandle, rfl, rfl, hstate,
    (htells hwhole).1 _ hcode⟩

/-- A text that does not assemble is answered as if nothing had been written. -/
theorem unassembled_response_hides_output :
    let a := utf8 "a"
    let request : RunRequest := { source := utf8 "FOO", sessionId := a }
    ∃ s answers after response state,
      handleAll 9 {} (lettered a) = some (s, answers) ∧ Reachable 0 .new s ∧
      Answers s [] .served (.run request) after (.ok (.run response)) ∧
      after.stateOf a = some state ∧ response.errorClass = utf8 "assembly" ∧
      state.output = utf8 "A" ∧ response.output = [] ∧ ¬ Reflects response state := by
  intro a request
  let response : RunResponse :=
    { error := utf8 "line 1: unknown instruction: FOO"
      errorClass := utf8 "assembly"
      line := 1
      stack := some [65]
      pc := 3 }
  have hrun : ((handleAll 9 {} (lettered a)).bind fun result =>
      (result.1.handle 9 [] (.run request)).map fun served =>
        (served.2, (served.1.stateOf a).map State.output)) =
      some (.ok (.run response), some (utf8 "A")) := by
    decide +kernel
  obtain ⟨⟨s, answers⟩, hs, hhandle⟩ := Option.bind_eq_some_iff.mp hrun
  obtain ⟨⟨after, answer⟩, hhandle, heq⟩ := Option.map_eq_some_iff.mp hhandle
  obtain ⟨rfl, houtput⟩ := Prod.mk.inj heq
  obtain ⟨state, hstate, houtput⟩ := Option.map_eq_some_iff.mp houtput
  refine ⟨s, answers, after, response, state, hs, Reachable.start.handleAll hs, .handled hhandle,
    hstate, rfl, houtput, rfl, ?_⟩
  intro hreflects
  cases hreflects.output.trans houtput

end StackMachine.Service
