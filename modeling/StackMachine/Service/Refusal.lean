import StackMachine.Budget
import StackMachine.Text.Quoted

/-! Refusals: requests that are answered with a status instead of a response. Programs that do
not assemble or fail are not refused; the response tells what went wrong. -/
namespace StackMachine.Service

/-- The status of a refused request. -/
inductive Status where
  | invalidArgument
  | notFound
  | unimplemented
  | unavailable
deriving DecidableEq

namespace Status

/-- The name of a status. -/
def name : Status → Bytes
  | .invalidArgument => utf8 "invalid_argument"
  | .notFound => utf8 "not_found"
  | .unimplemented => utf8 "unimplemented"
  | .unavailable => utf8 "unavailable"

/-- The number that stands for a status in a posted exchange. -/
def number : Status → Nat
  | .invalidArgument => 400
  | .notFound => 404
  | .unimplemented => 501
  | .unavailable => 503

end Status

/-- Why a request is refused. -/
inductive Refusal where
  | sourceMissing
  | programMissing
  | negativeBudget
  | sessionMissing
  | unknownSession (id : Bytes)
  | machineStopped
  /-- The client left before a session's machine had answered. -/
  | abandoned (why : Interruption)
  /-- The bytes of a message cannot be read, as the codec puts it. -/
  | unreadable (typeName why : Bytes)
  /-- There are no bytes to read a message from. -/
  | noMessage
  | unknownProcedure
  | unreachable (why : Bytes)
deriving DecidableEq

namespace Refusal

/-- The status of a refusal. -/
def status : Refusal → Status
  | .sourceMissing | .programMissing | .negativeBudget | .sessionMissing | .unreadable .. =>
    .invalidArgument
  | .unknownSession _ => .notFound
  | .noMessage | .unknownProcedure => .unimplemented
  | .machineStopped | .abandoned _ | .unreachable _ => .unavailable

/-- What a refusal says. -/
def reason : Refusal → Bytes
  | .sourceMissing => utf8 "source is required"
  | .programMissing => utf8 "source or code is required"
  | .negativeBudget => utf8 "max_steps must not be negative"
  | .sessionMissing => utf8 "session_id is required"
  | .unknownSession id => utf8 "session " ++ Text.Quoted.quote id ++ utf8 " not found"
  | .machineStopped => Machine.stoppedMessage
  | .abandoned why => why.fault.message
  | .unreadable typeName why =>
    utf8 "unmarshal message: server: unmarshal *server." ++ typeName ++ utf8 ": " ++ why
  | .noMessage => utf8 "unary request has zero messages"
  | .unknownProcedure => utf8 "404 Not Found"
  | .unreachable why => why

/-- The message of a refusal: its status and what it says. -/
def message (r : Refusal) : Bytes :=
  r.status.name ++ utf8 ": " ++ r.reason

end Refusal

end StackMachine.Service
