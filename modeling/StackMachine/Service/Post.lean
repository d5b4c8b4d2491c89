import StackMachine.Path
import StackMachine.Service.Exchange

/-! Posted requests: a path, a content type and a body. -/
namespace StackMachine.Service

/-- The reply to a posted request: a number, the status of a refusal, and the body. -/
structure PostReply where
  number : Nat
  status : Option Status := none
  body : Bytes := []

/-- How the content type says that a body is written. -/
inductive Encoding where
  /-- As the messages of the service are. -/
  | items
  /-- In a format that no message of the service has. -/
  | foreign
deriving DecidableEq

namespace Post

/-- The text without blanks at its ends. -/
def trim (text : Bytes) : Bytes :=
  let blank (b : UInt8) : Bool := b == 32 || (9 ≤ b && b ≤ 13)
  ((text.dropWhile blank).reverse.dropWhile blank).reverse

/-- A content type in small letters and without needless blanks. -/
def canonicalType (contentType : Bytes) : Bytes :=
  match Text.pieces 59 (Bytes.asciiLower contentType) with
  | [] => []
  | base :: parameters =>
    let kept := (parameters.map trim).filter fun p => !p.isEmpty
    Bytes.join (utf8 "; ") (trim base :: kept.map fun p => p.filter fun b => b != 34)

/-- The encoding of a content type. -/
def encoding? (contentType : Bytes) : Option Encoding :=
  let known := canonicalType contentType
  if known = utf8 "application/cbor" then some .items
  else if [utf8 "application/json", utf8 "application/json; charset=utf-8",
      utf8 "application/proto"].contains known then some .foreign
  else none

/-- A path is clean if it is absolute and has no empty or relative segment; a slash may stand
at its end. -/
def isClean (path : Bytes) : Bool :=
  Path.isAbsolute path &&
    (path == Path.clean path || path == Path.clean path ++ [Path.slash])

end Post

/-- Serves a posted request. Paths that are not clean are sent elsewhere, unknown ones and
unknown content types are turned away without a status. -/
def post (codec : Wire.Codec) (fuel : Nat) (fresh : Bytes) (s : Service)
    (path contentType body : Bytes) : Option (Service × PostReply) :=
  if !Post.isClean path then some (s, { number := 301 })
  else
    match Procedure.ofPath? path with
    | none => some (s, { number := 404 })
    | some procedure =>
      match Post.encoding? contentType with
      | none => some (s, { number := 415 })
      | some .foreign => some (s, { number := 400, status := some .invalidArgument })
      | some .items =>
        (serve codec fuel fresh s procedure body).map fun (after, answer) =>
          match answer with
          | .ok bytes => (after, { number := 200, body := bytes })
          | .error refusal =>
            (after, { number := refusal.status.number, status := some refusal.status })

end StackMachine.Service
