import StackMachine.Editor.Assistance
import StackMachine.Editor.Request
import StackMachine.Machine

/-! A language server session: the open documents, and the answers to the client's requests.
Nothing but the opening request is served before a session is open; closing it stops the
machine behind it for good, after which only what needs no machine still works. -/
namespace StackMachine.Editor

/-- The rejected lines of a document, as sent to the client. -/
structure Publication where
  uri : Bytes
  diagnostics : List Diagnostic
deriving DecidableEq

/-- A session. -/
structure Session where
  registry : Registry
  documents : List (Bytes × Bytes) := []
  isOpen : Bool := false
  machineStopped : Bool := false

/-- The result of a request that was served. -/
inductive Result where
  | none
  | capabilities
  | completions (found : List Completion)
  | hover (text : Bytes)
  | location (uri : Bytes) (line : Nat)

/-- The answer to a message. -/
inductive Reply where
  | served (result : Result)
  | misfit (why : Misfit)
  | refused (message : Bytes)

/-- Everything that a message leads to: the reply, what is published, and warnings for the
log. -/
structure Answer where
  reply : Reply
  published : List Publication := []
  warnings : List Bytes := []

namespace Session

/-- The text of an open document. -/
def document? (e : Session) (uri : Bytes) : Option Bytes :=
  e.documents.lookup uri

/-- The documents without the one named. -/
def without (documents : List (Bytes × Bytes)) (uri : Bytes) : List (Bytes × Bytes) :=
  documents.filter fun (u, _) => u != uri

/-- Stores the text of a document. -/
def store (e : Session) (uri text : Bytes) : Session :=
  { e with documents := (uri, text) :: without e.documents uri }

/-- Stores the text of a document and publishes its rejected lines. -/
def update (e : Session) (uri text : Bytes) : Session × Answer :=
  (e.store uri text,
    if e.machineStopped then
      { reply := .served .none
        warnings := [utf8 "diagnostics for " ++ uri ++ utf8 ": " ++ Machine.stoppedMessage] }
    else { reply := .served .none, published := [⟨uri, diagnose e.registry text⟩] })

/-- Serves a request. -/
def serve (e : Session) : Request → Session × Answer
  | .start => ({ e with isOpen := true }, { reply := .served .capabilities })
  | .started | .setTrace => (e, { reply := .served .none })
  | .stop => ({ e with isOpen := false, machineStopped := true }, { reply := .served .none })
  | .open uri text => e.update uri text
  | .change uri changes =>
    match changes.getLast? with
    | some (.whole text) => e.update uri text
    | _ => (e, { reply := .served .none })
  | .close uri =>
    ({ e with documents := without e.documents uri },
      { reply := .served .none, published := [⟨uri, []⟩] })
  | .complete uri pos =>
    match e.document? uri with
    | none => (e, { reply := .served .none })
    | some text =>
      if e.machineStopped then (e, { reply := .refused Machine.stoppedMessage })
      else (e, { reply := .served (.completions (completions e.registry (fragmentAt text pos))) })
  | .hover uri pos =>
    match e.document? uri with
    | none => (e, { reply := .served .none })
    | some text =>
      let word := wordAt text pos
      if word.isEmpty || e.machineStopped then (e, { reply := .served .none })
      else
        match documentation e.registry word with
        | none => (e, { reply := .served .none })
        | some note => (e, { reply := .served (.hover note) })
  | .define uri pos =>
    match (e.document? uri).bind fun text => jumpTarget text pos with
    | none => (e, { reply := .served .none })
    | some line => (e, { reply := .served (.location uri line) })

/-- Handles a message of the client. -/
def receive (decoder : Decoder) (e : Session) (method : Bytes) (params : Option Json) :
    Session × Answer :=
  if !e.isOpen && method != startMethod then
    (e, { reply := .refused (utf8 "server not initialized") })
  else
    match decoder.request method params with
    | .error why => (e, { reply := .misfit why })
    | .ok request => e.serve request

end Session

end StackMachine.Editor
