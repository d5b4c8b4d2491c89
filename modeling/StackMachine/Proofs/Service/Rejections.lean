import StackMachine.Proofs.Service.Histories
import StackMachine.Proofs.Service.Reset

/-! Requests that come to nothing. One that is refused or only asks for a text leaves the service
as it was, and so does a program that does not assemble, but for the clearing of the machine that was
asked for with it. -/
namespace StackMachine.Service

open Wire (RunRequest RunResponse)

/-- The request is for a listing or a description. -/
def Request.inquires : Request → Bool
  | .assemble _ | .disassemble _ | .instructions _ => true
  | .run _ | .createSession _ | .destroySession _ => false

/-- The request is not refused, and its text does not assemble on the machine that it is for. -/
structure FailsToAssemble (s : Service) (request : RunRequest) (m : Machine) (fault : Fault) :
    Prop where
  admitted : refusal? request = none
  machine : s.machineFor? request = some m
  source : request.source ≠ []
  fault : Assembly.assemble m.registry request.source = .error fault

section

variable {cap : Int} {template : Machine} {s after : Service} {fresh : Bytes} {wait : Wait}
  {request : Request} {answer : Answer} {message : RunRequest} {m : Machine} {fault : Fault}

theorem Answers.eq_of_inquires (h : Answers s fresh wait request after answer)
    (hinquires : request.inquires = true) : after = s := by
  cases request with
  | instructions message => exact h.eq_instructions.1
  | assemble message | disassemble message =>
    cases h with
    | handled hhandle =>
      cases hhandle
      rfl
  | run message | createSession message | destroySession message => cases hinquires

theorem Ran.eq_of_error {fuel : Nat} {context : Context} {refusal : Refusal}
    (h : Ran fuel context s message wait after (.error refusal)) : after = s := by
  cases h with
  | refused _ | missing _ _ _ => rfl

theorem Answers.eq_of_error {refusal : Refusal}
    (h : Answers s fresh wait request after (.error refusal)) : after = s := by
  cases request with
  | run message =>
    obtain ⟨fuel, context, reply, hreply, hran⟩ := h.ran
    cases reply with
    | ok response => cases hreply
    | error refusal => exact hran.eq_of_error
  | assemble message | disassemble message | instructions message => exact h.eq_of_inquires rfl
  | createSession message =>
    cases h with
    | handled hhandle => cases hhandle
  | destroySession message =>
    cases h with
    | handled hhandle =>
      simp only [handle, destroySession, Option.some.injEq, Prod.mk.injEq] at hhandle
      obtain ⟨rfl, hanswer⟩ := hhandle
      split at hanswer
      · rename_i hmissing
        rw [if_pos hmissing]
      · cases hanswer

/-- What a run that does not begin makes of a state. -/
theorem restore_prepare (σ : State) (request : RunRequest) :
    restore σ (prepare σ request) = if request.reset then σ.reset else σ := by
  rw [prepare]
  split <;> rfl

/-- A program that does not assemble is answered at once. -/
theorem FailsToAssemble.run_eq {P : Machine → Prop} (hs : s.Sound P)
    (h : s.FailsToAssemble message m fault) (fuel : Nat) (context : Context) :
    s.run fuel context message =
      some (s.keep message.sessionId (if message.reset then m.state.reset else m.state),
        .ok (unassembled (prepare m.state message) fault)) := by
  have hprogram : program m.registry message = .error fault := by
    simp [program, h.source, h.fault]
  rw [hs.run_eq h.admitted h.machine, execute_of_unassembled hprogram, restore_prepare]
  rfl

/-- The session with its machine cleared. -/
def Session.cleared (session : Session) : Session :=
  { session with machine := { session.machine with state := session.machine.state.reset } }

/-- What becomes of a session when a machine is left as it was, or cleared. -/
theorem get?_keep_of_unbegun (hm : s.machineFor? message = some m) (id : Bytes) :
    (s.keep message.sessionId (if message.reset then m.state.reset else m.state)).sessions.get? id =
      if message.reset ∧ named message.sessionId = some id then
        (s.sessions.get? id).map Session.cleared
      else s.sessions.get? id := by
  rw [get?_keep]
  by_cases hid : named message.sessionId = some id
  · rw [if_pos hid]
    simp only [machineFor?, hid] at hm
    obtain ⟨session, hget, rfl⟩ := Option.map_eq_some_iff.mp hm
    rw [hget]
    cases message.reset with
    | false => rfl
    | true => simp [hid, Session.cleared]
  · simp [hid]

/-- Requests that are refused and requests for a text change nothing, and neither does a program
that does not assemble, but that the machine of its session is cleared if it was to be; unless the
client left before the machine began, which changes nothing at all. -/
theorem rejections_change_nothing (hs : Reachable cap template s)
    (h : Answers s fresh wait request after answer) :
    (∀ refusal, answer = .error refusal → after = s) ∧
    (request.inquires = true → after = s) ∧
    (∀ message m fault, request = .run message → s.FailsToAssemble message m fault →
      (wait = .served → answer = .ok (.run (unassembled (prepare m.state message) fault))) ∧
      ((∃ why, wait = .left why false) ∧ after = s ∨
        after.stepCap = s.stepCap ∧ after.template = s.template ∧
        ∀ id, after.sessions.get? id =
          if message.reset ∧ named message.sessionId = some id then
            (s.sessions.get? id).map Session.cleared
          else s.sessions.get? id)) := by
  refine ⟨?_, h.eq_of_inquires, ?_⟩
  · rintro refusal rfl
    exact h.eq_of_error
  · rintro message m fault rfl hfails
    obtain ⟨hcap, htemplate⟩ := h.configuration
    obtain ⟨fuel, context, reply, rfl, hrun⟩ := h.exists_run
    have hserved := hfails.run_eq hs.registry fuel context
    refine ⟨?_, ?_⟩
    · rintro rfl
      cases hserved.symm.trans hrun
      rfl
    · rcases unbegun_or_run_served hrun with hunbegun | ⟨told, hstayed⟩
      · exact .inl hunbegun
      · cases hserved.symm.trans hstayed
        exact .inr ⟨hcap, htemplate, get?_keep_of_unbegun hfails.machine⟩

end

/-- One of two sessions, with a value on its stack, is sent an unknown instruction for a cleared
machine. -/
theorem rejections_change_nothing_typo :
    let a := utf8 "a"
    let b := utf8 "b"
    let history : List (Bytes × Request) :=
      [(a, .createSession {}), (b, .createSession {}),
        ([], .run { source := utf8 "LOAD_CONST 5\nEXIT", sessionId := a })]
    let request : RunRequest := { source := utf8 "FOO", sessionId := a, debug := true, reset := true }
    ∃ s answers after answer, handleAll 9 {} history = some (s, answers) ∧
      s.stateOf a = some { pc := 2, stack := [5] } ∧ Answers s [] .served (.run request) after answer ∧
      after.stateOf a = some {} ∧ after.sessions.get? b = s.sessions.get? b := by
  intro a b history request
  let fault : Fault := .assembly (.kind .unknownInstruction) 1 (utf8 "FOO") (utf8 "FOO") .absent
  have hused : (handleAll 9 {} history).map (fun result => result.1.stateOf a) =
      some (some { pc := 2, stack := [5] }) := by decide +kernel
  obtain ⟨⟨s, answers⟩, hhistory, hused⟩ := Option.map_eq_some_iff.mp hused
  have hs : Reachable 0 .new s := Reachable.start.handleAll hhistory
  obtain ⟨session, hget, hstate⟩ := Option.map_eq_some_iff.mp hused
  have hid : named request.sessionId = some a := rfl
  have hassemble : Assembly.assemble .builtins request.source = .error fault := rfl
  have hfails : s.FailsToAssemble request session.machine fault :=
    { admitted := rfl
      machine := by simp only [machineFor?, hid, hget, Option.map_some]
      source := by decide
      fault := by rw [(hs.registry a session hget).2]; exact hassemble }
  have hanswers : Answers s [] .served (.run request) _ _ :=
    .awaited trivial (hfails.run_eq hs.registry 0 .live)
  obtain ⟨-, -, hunbegun⟩ := rejections_change_nothing hs hanswers
  obtain ⟨-, ⟨⟨_, heq⟩, -⟩ | ⟨-, -, hsessions⟩⟩ := hunbegun request session.machine fault rfl hfails
  · cases heq
  refine ⟨s, answers, _, _, hhistory, hused, hanswers, ?_, ?_⟩
  · rw [stateOf, hsessions a, if_pos ⟨rfl, hid⟩, hget]
    simp only [Option.map_some, Session.cleared, hstate]
    rfl
  · rw [hsessions b, if_neg (by decide)]

end StackMachine.Service
