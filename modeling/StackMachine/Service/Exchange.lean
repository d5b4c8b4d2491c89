import StackMachine.Service.Handler

/-! Exchanges between a client and the service. Messages travel as the bytes of a codec: a request
that cannot be read is refused by the service, a response that cannot be read by the client. -/
namespace StackMachine.Service

open Wire

/-- What a client can ask for. -/
inductive Procedure where
  | assemble
  | run
  | disassemble
  | instructions
  | createSession
  | destroySession
deriving DecidableEq

namespace Procedure

/-- Every procedure. -/
def all : List Procedure :=
  [.assemble, .run, .disassemble, .instructions, .createSession, .destroySession]

/-- The name of a procedure. -/
def name : Procedure → Bytes
  | .assemble => utf8 "Assemble"
  | .run => utf8 "Run"
  | .disassemble => utf8 "Disassemble"
  | .instructions => utf8 "Instructions"
  | .createSession => utf8 "CreateSession"
  | .destroySession => utf8 "DestroySession"

/-- The path under which a procedure is served. -/
def path (p : Procedure) : Bytes :=
  utf8 "/stackvm.v1.VMService/" ++ p.name

/-- The procedure of a path. -/
def ofPath? (path : Bytes) : Option Procedure :=
  all.find? fun p => p.path == path

end Procedure

/-- Reads a message from its bytes. -/
def receive {α : Type} [Message α] (codec : Codec) (bytes : Bytes) : Except Refusal α :=
  match codec.decode bytes with
  | .ok message => .ok message
  | .error why => .error (.unreadable (Message.typeName α) why)

namespace Request

/-- The procedure that a request asks for. -/
def procedure : Request → Procedure
  | .assemble _ => .assemble
  | .run _ => .run
  | .disassemble _ => .disassemble
  | .instructions _ => .instructions
  | .createSession _ => .createSession
  | .destroySession _ => .destroySession

/-- The bytes of a request. -/
def encode (codec : Codec) : Request → Bytes
  | .assemble message => codec.encode message
  | .run message => codec.encode message
  | .disassemble message => codec.encode message
  | .instructions message => codec.encode message
  | .createSession message => codec.encode message
  | .destroySession message => codec.encode message

/-- Reads the request of a procedure. -/
def decode (codec : Codec) (p : Procedure) (bytes : Bytes) : Except Refusal Request :=
  if bytes.isEmpty then .error .noMessage
  else
    match p with
    | .assemble => (receive codec bytes).map .assemble
    | .run => (receive codec bytes).map .run
    | .disassemble => (receive codec bytes).map .disassemble
    | .instructions => (receive codec bytes).map .instructions
    | .createSession => (receive codec bytes).map .createSession
    | .destroySession => (receive codec bytes).map .destroySession

end Request

namespace Response

/-- The bytes of a response. -/
def encode (codec : Codec) : Response → Bytes
  | .assemble message => codec.encode message
  | .run message => codec.encode message
  | .disassemble message => codec.encode message
  | .instructions message => codec.encode message
  | .createSession message => codec.encode message
  | .destroySession message => codec.encode message

/-- Reads the response of a procedure. -/
def decode (codec : Codec) (p : Procedure) (bytes : Bytes) : Except Refusal Response :=
  match p with
  | .assemble => (receive codec bytes).map .assemble
  | .run => (receive codec bytes).map .run
  | .disassemble => (receive codec bytes).map .disassemble
  | .instructions => (receive codec bytes).map .instructions
  | .createSession => (receive codec bytes).map .createSession
  | .destroySession => (receive codec bytes).map .destroySession

end Response

/-- Serves the bytes of a request with the bytes of the response. -/
def serve (codec : Codec) (fuel : Nat) (fresh : Bytes) (s : Service) (p : Procedure) (body : Bytes) :
    Option (Service × Except Refusal Bytes) :=
  match Request.decode codec p body with
  | .error refusal => some (s, .error refusal)
  | .ok request =>
    (handle fuel fresh s request).map fun (after, answer) =>
      (after, answer.map (Response.encode codec))

/-- Asks the service as a client does: the request is sent as bytes, and so is the response. -/
def call (codec : Codec) (fuel : Nat) (fresh : Bytes) (s : Service) (request : Request) :
    Option (Service × Answer) :=
  (serve codec fuel fresh s request.procedure (request.encode codec)).map fun (after, answer) =>
    (after, answer.bind (Response.decode codec request.procedure))

end StackMachine.Service
