import StackMachine.Builtin
import StackMachine.Listing
import StackMachine.Service.Execution
import StackMachine.Service.Refusal
import StackMachine.Service.Sessions

/-! The service: what each request is answered with and what it changes. A request without a
session is served by a machine of its own with the built-in instructions. -/
namespace StackMachine

open Wire

/-- A service: the cap on the steps of a run, the machine that each session starts with, and
the sessions. -/
structure Service where
  stepCap : Int := 0
  template : Machine := .new
  sessions : Service.Sessions := {}

namespace Service

/-- A request. -/
inductive Request where
  | assemble (message : AssembleRequest)
  | run (message : RunRequest)
  | disassemble (message : DisassembleRequest)
  | instructions (message : InstructionsRequest)
  | createSession (message : CreateSessionRequest)
  | destroySession (message : DestroySessionRequest)
deriving DecidableEq

/-- A response. -/
inductive Response where
  | assemble (message : AssembleResponse)
  | run (message : RunResponse)
  | disassemble (message : DisassembleResponse)
  | instructions (message : InstructionsResponse)
  | createSession (message : CreateSessionResponse)
  | destroySession (message : DestroySessionResponse)
deriving DecidableEq

/-- The answer to a request. -/
abbrev Answer := Except Refusal Response

/-- A code as a response carries it: code without instructions is left out. -/
def codeField (code : Code) : Option Code :=
  if code.isEmpty then none else some code

/-- Assembles a source text with the built-in instructions. -/
def assemble (request : AssembleRequest) : Except Refusal AssembleResponse :=
  if request.source.isEmpty then .error .sourceMissing
  else
    match Assembly.assemble .builtins request.source with
    | .error fault =>
      .ok { error := fault.message, errorClass := fault.classify.name,
            line := Int64.ofInt fault.line }
    | .ok code => .ok { code := codeField code, listing := (Listing.ofCode .builtins code).text }

/-- Lists a code with the built-in instructions. -/
def disassemble (request : DisassembleRequest) : DisassembleResponse :=
  let listing := Listing.ofCode .builtins (request.code.getD [])
  if listing.fault.isPresent then
    { listing := listing.text
      error := listing.fault.message
      errorClass := listing.fault.classify.name }
  else { listing := listing.text }

/-- What is told about the instruction that a mnemonic names. -/
def instructionInfo (r : Registry) (mnemonic : Bytes) : InstructionInfo :=
  let bare : InstructionInfo := { mnemonic, opcode := (r.resolve mnemonic).getD 0 }
  match Builtin.lookup mnemonic with
  | none => bare
  | some b =>
    { bare with
      stackPop := Int64.ofNat b.pops
      stackPush := Int64.ofNat b.pushes
      usesArg := b.usesOperand
      summary := b.summary }

/-- The instructions of a registry in the byte order of their mnemonics. -/
def describeRegistry (r : Registry) : List InstructionInfo :=
  r.mnemonics.map (instructionInfo r)

/-- How a client waits for the machine of a session, which does its work in turn. -/
inductive Wait where
  /-- Until the work is done. -/
  | served
  /-- Until its context asks it to leave. The machine finishes the work if it has begun with it, and
  never begins with it otherwise. -/
  | left (why : Interruption) (begun : Bool)

/-- The client leaves only if its context asks for it. -/
def Wait.Permitted (context : Context) : Wait → Prop
  | .served => True
  | .left why _ => ∃ steps, context steps = some why

/-- Lists the instructions of a session's machine, or the built-in ones. -/
def instructions (s : Service) (request : InstructionsRequest) (wait : Wait := .served) :
    Except Refusal InstructionsResponse :=
  if request.sessionId.isEmpty then .ok { instructions := some (describeRegistry .builtins) }
  else
    match s.sessions.get? request.sessionId with
    | none => .error (.unknownSession request.sessionId)
    | some session =>
      if session.stopped then .error .machineStopped
      else
        match wait with
        | .served => .ok { instructions := some (describeRegistry session.machine.registry) }
        | .left why _ => .error (.abandoned why)

/-- What a run without a response reports. -/
def failedWork (message : Bytes) : RunResponse :=
  describe {} (.plain message)

/-- The response to a run on a session's machine. -/
def Work.response : Work → RunResponse
  | .done response => response
  | .crashed message => failedWork (utf8 "vm panic: " ++ message)

/-- The response to a client that left, which tells why and nothing else. -/
def abandoned (why : Interruption) : RunResponse :=
  describe {} why.fault

/-- What a client is told of work that was done. -/
def Wait.response : Wait → Work → RunResponse
  | .served, work => work.response
  | .left why _, _ => abandoned why

/-- Runs a program on the machine of a session, for which the client waits. -/
def runOn (fuel : Nat) (context : Context) (s : Service) (session : Session) (request : RunRequest)
    (wait : Wait) : Option (Service × Except Refusal RunResponse) :=
  match wait with
  | .left why false => some (s, .ok (abandoned why))
  | _ =>
    (execute fuel context (effectiveLimit s.stepCap request.maxSteps.toInt) session.machine
      request).map fun (state, work) =>
        ({ s with sessions := s.sessions.setState request.sessionId state },
          .ok (wait.response work))

/-- Runs a program, on a machine of its own or on a session's. A run without a session must
not crash: the built-in instructions do not. `none` if the fuel runs out before it ends. -/
def run (fuel : Nat) (context : Context) (s : Service) (request : RunRequest)
    (wait : Wait := .served) : Option (Service × Except Refusal RunResponse) :=
  if request.source.isEmpty ∧ (request.code.getD []).isEmpty then
    some (s, .error .programMissing)
  else if request.maxSteps < 0 then some (s, .error .negativeBudget)
  else if request.sessionId.isEmpty then
    (execute fuel context (effectiveLimit s.stepCap request.maxSteps.toInt) .new request).map
      fun (_, work) => (s, .ok work.response)
  else
    match s.sessions.get? request.sessionId with
    | none => some (s, .error (.unknownSession request.sessionId))
    | some session =>
      if session.stopped then some (s, .ok (failedWork Machine.stoppedMessage))
      else runOn fuel context s session request wait

/-- Opens a session under a fresh id. -/
def createSession (fresh : Bytes) (s : Service) (request : CreateSessionRequest) :
    Service × CreateSessionResponse :=
  let session : Session := { id := fresh, name := request.name, machine := s.template }
  ({ s with sessions := s.sessions.insert session }, { sessionId := fresh })

/-- Drops a session. -/
def destroySession (s : Service) (request : DestroySessionRequest) :
    Service × Except Refusal DestroySessionResponse :=
  if request.sessionId.isEmpty then (s, .error .sessionMissing)
  else
    ({ s with sessions := s.sessions.erase request.sessionId },
      .ok { existed := (s.sessions.get? request.sessionId).isSome })

/-- Drops every session. -/
def close (s : Service) : Service :=
  { s with sessions := {} }

/-- Serves a request; `fresh` is the id of the session that it may open. `none` if the fuel
runs out before a program ends. -/
def handle (fuel : Nat) (fresh : Bytes) (s : Service) : Request → Option (Service × Answer)
  | .assemble message => some (s, (assemble message).map .assemble)
  | .run message =>
    (run fuel .live s message).map fun (after, answer) => (after, answer.map .run)
  | .disassemble message => some (s, .ok (.disassemble (disassemble message)))
  | .instructions message => some (s, (instructions s message).map .instructions)
  | .createSession message =>
    let (after, response) := createSession fresh s message
    some (after, .ok (.createSession response))
  | .destroySession message =>
    let (after, answer) := destroySession s message
    some (after, answer.map .destroySession)

/-- Serves requests in order, each with the id of the session that it may open. -/
def handleAll (fuel : Nat) : Service → List (Bytes × Request) → Option (Service × List Answer)
  | s, [] => some (s, [])
  | s, (fresh, request) :: rest =>
    match handle fuel fresh s request with
    | none => none
    | some (next, answer) =>
      match handleAll fuel next rest with
      | none => none
      | some (last, answers) => some (last, answer :: answers)

end Service

end StackMachine
