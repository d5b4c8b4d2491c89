import StackMachine.Proofs.Wire.Messages
import StackMachine.Service.Exchange

/-! Asking a service over the wire. A client is answered as if it had called the service directly,
if the codec reads what it writes and the request and the response can be sent. -/
namespace StackMachine.Service

open Wire

/-- The texts of a request. -/
def Request.texts : Request → List Bytes
  | .assemble message => Wire.texts message
  | .run message => Wire.texts message
  | .disassemble message => Wire.texts message
  | .instructions message => Wire.texts message
  | .createSession message => Wire.texts message
  | .destroySession message => Wire.texts message

/-- The numbers of elements of the lists in a request. -/
def Request.lengths : Request → List Nat
  | .assemble message => Wire.lengths message
  | .run message => Wire.lengths message
  | .disassemble message => Wire.lengths message
  | .instructions message => Wire.lengths message
  | .createSession message => Wire.lengths message
  | .destroySession message => Wire.lengths message

/-- The texts of a response. -/
def Response.texts : Response → List Bytes
  | .assemble message => Wire.texts message
  | .run message => Wire.texts message
  | .disassemble message => Wire.texts message
  | .instructions message => Wire.texts message
  | .createSession message => Wire.texts message
  | .destroySession message => Wire.texts message

/-- The numbers of elements of the lists in a response. -/
def Response.lengths : Response → List Nat
  | .assemble message => Wire.lengths message
  | .run message => Wire.lengths message
  | .disassemble message => Wire.lengths message
  | .instructions message => Wire.lengths message
  | .createSession message => Wire.lengths message
  | .destroySession message => Wire.lengths message

/-- The procedure that a response answers. -/
def Response.procedure : Response → Procedure
  | .assemble _ => .assemble
  | .run _ => .run
  | .disassemble _ => .disassemble
  | .instructions _ => .instructions
  | .createSession _ => .createSession
  | .destroySession _ => .destroySession

variable {codec : Codec}

section Reading

variable {α : Type} [Message α] {message : α}

theorem receive_encode (hcodec : codec.Faithful) (h : Fits message) :
    receive codec (codec.encode message) = .ok message := by
  rw [receive, (hcodec.carries_message α).readBack message h]

theorem isEmpty_encode (hcodec : codec.Faithful) (h : Fits message) :
    (codec.encode message).isEmpty = false :=
  List.isEmpty_eq_false_iff.mpr (hcodec.marshal_ne_nil h)

end Reading

/-- A request that can be sent is read as it was sent. -/
theorem Request.decode_encode (hcodec : codec.Faithful) {request : Request}
    (h : Fitting request.texts request.lengths) :
    Request.decode codec request.procedure (request.encode codec) = .ok request := by
  cases request with
  | assemble message | run message | disassemble message | instructions message
  | createSession message | destroySession message =>
    have hfits : Fits message := h
    simp only [encode, decode, procedure, isEmpty_encode hcodec hfits, receive_encode hcodec hfits]
    rfl

/-- A response that can be sent is read as it was sent. -/
theorem Response.decode_encode (hcodec : codec.Faithful) {response : Response}
    (h : Fitting response.texts response.lengths) :
    Response.decode codec response.procedure (response.encode codec) = .ok response := by
  cases response with
  | assemble message | run message | disassemble message | instructions message
  | createSession message | destroySession message =>
    have hfits : Fits message := h
    simp only [encode, decode, procedure, receive_encode hcodec hfits]
    rfl

private theorem exists_of_map_eq_ok {α : Type} {make : α → Response}
    {reply : Except Refusal α} {response : Response} (h : reply.map make = .ok response) :
    ∃ message, response = make message := by
  cases reply with
  | error refusal => cases h
  | ok message =>
    cases h
    exact ⟨message, rfl⟩

/-- A response answers the procedure that was asked for. -/
theorem procedure_of_handle {fuel : Nat} {fresh : Bytes} {s after : Service} {request : Request}
    {response : Response} (h : s.handle fuel fresh request = some (after, .ok response)) :
    response.procedure = request.procedure := by
  cases request with
  | run message =>
    obtain ⟨⟨_, reply⟩, -, heq⟩ := Option.map_eq_some_iff.mp h
    obtain ⟨_, rfl⟩ := exists_of_map_eq_ok (Prod.mk.inj heq).2
    rfl
  | disassemble message | createSession message =>
    cases h
    rfl
  | assemble message | instructions message | destroySession message =>
    obtain ⟨_, rfl⟩ := exists_of_map_eq_ok (Prod.mk.inj (Option.some.inj h)).2
    rfl

/-- A client that is understood and understands is answered by the handler. -/
theorem call_eq_handle (hcodec : codec.Faithful) {fuel : Nat} {fresh : Bytes} {s : Service}
    {request : Request} (hrequest : Fitting request.texts request.lengths)
    (hresponse : ∀ after response, s.handle fuel fresh request = some (after, .ok response) →
      Fitting response.texts response.lengths) :
    s.call codec fuel fresh request = s.handle fuel fresh request := by
  rw [call, serve, Request.decode_encode hcodec hrequest]
  cases hh : s.handle fuel fresh request with
  | none => simp [hh]
  | some result =>
    obtain ⟨after, answer⟩ := result
    cases answer with
    | error refusal => simp [hh, Except.map, Except.bind]
    | ok response =>
      have hread := Response.decode_encode hcodec (hresponse after response hh)
      rw [procedure_of_handle hh] at hread
      simp [hh, Except.map, Except.bind, hread]

end StackMachine.Service
