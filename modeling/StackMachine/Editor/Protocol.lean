import StackMachine.Editor.Session

/-! The JSON form of what the editor service answers, and the exchange of JSON-RPC messages. -/
namespace StackMachine.Editor

private def record (members : List (String × Json)) : Json :=
  .object (members.map fun (key, value) => (utf8 key, value))

private def text (s : String) : Json :=
  .text (utf8 s)

private def integer (n : Int) : Json :=
  .number (Text.Decimal.ofInt n)

/-- The name under which the service reports. -/
def serviceName : String := "stackvm-lsp"

/-- The version that the service reports. -/
def serviceVersion : String := "0.1.0"

/-- A line and a column. -/
def placeJson (line character : Int) : Json :=
  record [("line", integer line), ("character", integer character)]

/-- A range on one line. -/
def rangeJson (line first last : Int) : Json :=
  record [("start", placeJson line first), ("end", placeJson line last)]

/-- A completion; the kind is that of a keyword. -/
def Completion.toJson (c : Completion) : Json :=
  record [("label", .text c.label), ("kind", integer 14), ("detail", .text c.detail),
    ("insertText", .text c.label)]

/-- A list of completions; null when nothing matches. -/
def completionsJson : List Completion → Json
  | [] => .null
  | found => .array (found.map Completion.toJson)

/-- Documentation in Markdown. -/
def hoverJson (note : Bytes) : Json :=
  record [("contents", record [("kind", text "markdown"), ("value", .text note)])]

/-- A rejected line; the severity is that of an error. -/
def Diagnostic.toJson (d : Diagnostic) : Json :=
  record [("range", rangeJson d.line 0 d.width), ("severity", integer 1),
    ("source", text serviceName), ("message", .text d.message)]

/-- What the service can do. -/
def capabilitiesJson : Json :=
  record
    [("capabilities", record
      [("completionProvider", record []), ("definitionProvider", .bool true),
        ("hoverProvider", .bool true),
        ("textDocumentSync", record [("change", integer 1), ("openClose", .bool true)])]),
      ("serverInfo", record [("name", text serviceName), ("version", text serviceVersion)])]

/-- A result. -/
def Result.toJson : Result → Json
  | .none => .null
  | .capabilities => capabilitiesJson
  | .completions found => completionsJson found
  | .hover note => hoverJson note
  | .location uri line => .array [record [("uri", .text uri), ("range", rangeJson line 0 0)]]

/-- The method of the notification that publishes rejected lines. -/
def publishMethod : Bytes := utf8 "textDocument/publishDiagnostics"

/-- The parameters of a publication. -/
def Publication.toJson (p : Publication) : Json :=
  record [("uri", .text p.uri), ("diagnostics", .array (p.diagnostics.map Diagnostic.toJson))]

/-- The notification of a publication. -/
def Publication.message (p : Publication) : Json :=
  record [("jsonrpc", text "2.0"), ("method", .text publishMethod), ("params", p.toJson)]

private def failure (id : Json) (code : Int) (message : Bytes) : Json :=
  record [("jsonrpc", text "2.0"), ("id", id),
    ("error", record [("code", integer code), ("message", .text message)])]

/-- The response to the request with the given id. -/
def Reply.message (id : Json) (method : Bytes) (params : Option Json) : Reply → Json
  | .served result => record [("jsonrpc", text "2.0"), ("id", id), ("result", result.toJson)]
  | .misfit .unknownMethod => failure id (-32601) (utf8 "method not supported: " ++ method)
  | .misfit .badParams =>
    failure id (-32602) <|
      if params.isNone then utf8 "unexpected end of JSON input" else utf8 "invalid parameters"
  | .refused why => failure id (-32600) why

/-- The result of an exchange of messages. -/
structure Exchange where
  session : Session
  sent : List Json := []
  warnings : List Bytes := []

/-- Handles one JSON-RPC message; a message without an id gets no response. -/
def Exchange.handle (decoder : Decoder) (x : Exchange) (message : Json) : Exchange :=
  let method :=
    match message.member? (utf8 "method") with
    | some (.text m) => m
    | _ => []
  let params := message.member? (utf8 "params")
  let (session, answer) := x.session.receive decoder method params
  let response :=
    match message.member? (utf8 "id") with
    | none | some .null => []
    | some id => [answer.reply.message id method params]
  { session
    sent := x.sent ++ answer.published.map Publication.message ++ response
    warnings := x.warnings ++ answer.warnings }

/-- The message asks to leave at once. -/
def isExit (message : Json) : Bool :=
  match message.member? (utf8 "method") with
  | some (.text m) => m == utf8 "exit"
  | _ => false

/-- Handles messages in turn until one asks to leave. -/
def exchange (decoder : Decoder) (session : Session) (messages : List Json) : Exchange :=
  (messages.takeWhile fun m => !isExit m).foldl (Exchange.handle decoder) { session }

end StackMachine.Editor
