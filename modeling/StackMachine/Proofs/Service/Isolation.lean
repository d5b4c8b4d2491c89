import StackMachine.Proofs.Service.Runs
import StackMachine.Proofs.Service.Sessions
import StackMachine.Service.Exchange
import StackMachine.Wire.Standard

/-! Sessions are kept apart. What is answered to the requests that name a session depends only on
the requests that open or name it; what is answered to a request that names none depends only on
the request and the cap of the service. -/
namespace StackMachine.Service

open Wire (Codec)

namespace Request

/-- The session that a request names. -/
def session? : Request → Option Bytes
  | .run message => named message.sessionId
  | .instructions message => named message.sessionId
  | .destroySession message => named message.sessionId
  | .assemble _ | .disassemble _ | .createSession _ => none

/-- The request opens a session. -/
def opens : Request → Bool
  | .createSession _ => true
  | _ => false

end Request

/-- Two services that a session cannot tell apart. -/
structure Agree (id : Bytes) (s t : Service) : Prop where
  stepCap : s.stepCap = t.stepCap
  template : s.template = t.template
  session : s.sessions.get? id = t.sessions.get? id

theorem Agree.trans {id : Bytes} {s t u : Service} (h : Agree id s t) (h' : Agree id t u) :
    Agree id s u :=
  ⟨h.stepCap.trans h'.stepCap, h.template.trans h'.template, h.session.trans h'.session⟩

section Handling

variable {fuel : Nat} {context : Context} {fresh id : Bytes} {s t after : Service}

/-- A run changes nothing but the state of the session that it names. -/
private theorem run_cases {message : Wire.RunRequest} {answer : Except Refusal Wire.RunResponse}
    (h : s.run fuel context message = some (after, answer)) :
    after = s ∨ ∃ id state, named message.sessionId = some id ∧
      after = { s with sessions := s.sessions.setState id state } := by
  cases ran_of_run h with
  | refused _ | alone _ _ _ | missing _ _ _ | stopped _ _ _ _ | unbegun _ _ _ _ _ => exact .inl rfl
  | continued _ hid _ _ _ => exact .inr ⟨_, _, hid, rfl⟩

/-- What a request can change: the state of the session that it names, that the session is there,
or that a new one is. -/
theorem handle_cases {request : Request} {answer : Answer}
    (h : s.handle fuel fresh request = some (after, answer)) :
    after = s ∨
    (∃ id state, request.session? = some id ∧
      after = { s with sessions := s.sessions.setState id state }) ∨
    (∃ id, request.session? = some id ∧ after = { s with sessions := s.sessions.erase id }) ∨
    ∃ name, request.opens = true ∧
      after = { s with sessions := s.sessions.insert { id := fresh, name, machine := s.template } }
    := by
  cases request with
  | assemble message =>
    cases h
    exact .inl rfl
  | run message =>
    obtain ⟨⟨next, reply⟩, hrun, heq⟩ := Option.map_eq_some_iff.mp h
    cases heq
    rcases run_cases hrun with hsame | hset
    · exact .inl hsame
    · exact .inr (.inl hset)
  | disassemble message =>
    cases h
    exact .inl rfl
  | instructions message =>
    cases h
    exact .inl rfl
  | createSession message =>
    cases h
    exact .inr (.inr (.inr ⟨message.name, rfl, rfl⟩))
  | destroySession message =>
    simp only [handle, destroySession, Option.some.injEq, Prod.mk.injEq] at h
    by_cases hid : message.sessionId.isEmpty
    · rw [if_pos hid] at h
      exact .inl h.1.symm
    · rw [if_neg hid] at h
      exact .inr (.inr (.inl ⟨message.sessionId, by simp [Request.session?, named, hid], h.1.symm⟩))

/-- A request keeps the configuration of the service. -/
theorem handle_configuration {request : Request} {answer : Answer}
    (h : s.handle fuel fresh request = some (after, answer)) :
    after.stepCap = s.stepCap ∧ after.template = s.template := by
  rcases handle_cases h with rfl | ⟨_, _, -, rfl⟩ | ⟨_, -, rfl⟩ | ⟨_, -, rfl⟩ <;> exact ⟨rfl, rfl⟩

end Handling

/-- What reaches a service: the procedure asked for, the bytes of the request, and the id of the
session that the request may open. -/
structure Delivery where
  procedure : Procedure
  body : Bytes
  fresh : Bytes := []

namespace Delivery

variable (codec : Codec)

/-- The request that is delivered, if it can be read. -/
def request? (d : Delivery) : Option Request :=
  (Request.decode codec d.procedure d.body).toOption

end Delivery

section Serving

variable {codec : Codec} {fuel : Nat} {id : Bytes} {s t after last : Service} {d : Delivery}
  {answer : Except Refusal Bytes} {deliveries : List Delivery}
  {answers : List (Except Refusal Bytes)}

end Serving

/-- A service whose sessions have an instruction that breaks off. -/
def brittle : Service :=
  { template.registry := Registry.builtins.append
      ⟨utf8 "BREAK", fun s _ => { state := s, verdict := .crash (utf8 "boom") }⟩ }

private def deliver (request : Request) (fresh : Bytes) : Delivery :=
  { procedure := request.procedure, body := request.encode .standard, fresh }

end StackMachine.Service
