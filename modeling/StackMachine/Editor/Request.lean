import StackMachine.Editor.Cursor
import StackMachine.Json.Value

/-! The requests of the language server protocol that the editor service handles. How they are read
from messages is left open. -/
namespace StackMachine.Editor

/-- A change of a document: its new text, or an edit of a part, which is not followed. -/
inductive Change where
  | whole (text : Bytes)
  | ranged

/-- A request or notification of the client. -/
inductive Request where
  | start
  | started
  | stop
  | setTrace
  | open (uri text : Bytes)
  | change (uri : Bytes) (changes : List Change)
  | close (uri : Bytes)
  | complete (uri : Bytes) (pos : Position)
  | hover (uri : Bytes) (pos : Position)
  | define (uri : Bytes) (pos : Position)

/-- How a message fails to be a request. -/
inductive Misfit where
  | unknownMethod
  | badParams

/-- The method that opens a session. -/
def startMethod : Bytes := utf8 "initialize"

/-- The method that closes a session. -/
def stopMethod : Bytes := utf8 "shutdown"

/-- A reader of messages: it gives the request of a method with its parameters. The session is closed
by one method only. -/
structure Decoder where
  request (method : Bytes) (params : Option Json) : Except Misfit Request
  stops {method : Bytes} {params : Option Json} :
    request method params = .ok .stop → method = stopMethod

end StackMachine.Editor
