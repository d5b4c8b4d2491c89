import StackMachine.Editor.Request
import StackMachine.Text.Caseless
import StackMachine.Text.Decimal

/-! How requests are read from JSON parameters. Absent members and null leave the neutral value; a
member of another type than expected spoils the whole request. -/
namespace StackMachine.Editor

namespace Params

/-- A reader of a JSON value that may keep part of an earlier value; `none` if the type does
not fit. -/
abbrev Reader (α : Type) := α → Json → Option α

/-- Reads an object member by member, a repeated key going over the earlier one; null is
ignored. -/
def record {α : Type} (set : Bytes → Option (Reader α)) : Reader α
  | value, .null => some value
  | value, .object members =>
    members.foldlM (fun value (key, j) =>
      match set (Text.Caseless.fold key) with
      | none => some value
      | some read => read value j) value
  | _, _ => none

/-- A reader of a part of a record. -/
def part {α β : Type} (get : α → β) (put : β → α → α) (read : Reader β) : Reader α :=
  fun value j => (read (get value) j).map fun b => put b value

/-- A text. -/
def text : Reader Bytes
  | old, .null => some old
  | _, .text s => some s
  | _, _ => none

private def isDigits (s : Bytes) : Bool :=
  !s.isEmpty && s.all Text.Decimal.isDigit

private def natural (digits : Bytes) : Nat :=
  digits.foldl (fun n b => n * 10 + (b.toNat - 48)) 0

/-- An unsigned 32-bit integer, written without point, exponent or sign. -/
def unsigned : Reader Nat
  | old, .null => some old
  | _, .number literal =>
    if isDigits literal && natural literal < 0x100000000 then some (natural literal) else none
  | _, _ => none

/-- A signed 32-bit integer; its value is not kept. -/
def signed : Reader Unit
  | _, .null => some ()
  | _, .number literal =>
    let (negative, digits) := Text.Decimal.splitSign literal
    if isDigits digits && natural digits < 0x80000000 + (if negative then 1 else 0) then some ()
    else none
  | _, _ => none

/-- Something that has to be a text and is not kept. -/
def anyText : Reader Unit
  | _, .null => some ()
  | _, .text _ => some ()
  | _, _ => none

/-- Something that has to be an object and is not kept. -/
def anyObject : Reader Unit
  | _, .null => some ()
  | _, .object _ => some ()
  | _, _ => none

/-- A progress token: an integer or a text, not kept. -/
def token : Reader Unit :=
  fun _ j => (signed () j).or (anyText () j)

/-- A reader of something that is not kept, as part of any record. -/
def ignored {α : Type} (read : Reader Unit) : Reader α :=
  fun value j => (read () j).map fun _ => value

/-- A position. -/
def position : Reader Position :=
  record fun key =>
    if key == utf8 "line" then
      some (part Position.line (fun n p => { p with line := n }) unsigned)
    else if key == utf8 "character" then
      some (part Position.character (fun n p => { p with character := n }) unsigned)
    else none

/-- What the parameters of a request tell. -/
structure Fields where
  uri : Bytes := []
  text : Bytes := []
  pos : Position := {}
  changes : List Change := []

private def setUri : Reader Fields :=
  part Fields.uri (fun u f => { f with uri := u }) text

/-- The identifier of a document, with its version where one is expected. -/
def document (versioned : Bool) : Reader Fields :=
  record fun key =>
    if key == utf8 "uri" then some setUri
    else if versioned && key == utf8 "version" then some (ignored signed)
    else none

/-- A document with its text. -/
def documentItem : Reader Fields :=
  record fun key =>
    if key == utf8 "uri" then some setUri
    else if key == utf8 "languageid" then some (ignored anyText)
    else if key == utf8 "version" then some (ignored signed)
    else if key == utf8 "text" then
      some (part Fields.text (fun t f => { f with text := t }) text)
    else none

/-- One change as it is read: whether it has a range, and its text. -/
structure ChangeFields where
  ranged : Bool := false
  text : Bytes := []

/-- The range of a change; null takes it back. -/
def changeRange : Reader ChangeFields
  | value, .null => some { value with ranged := false }
  | value, j =>
    (record (α := Unit) (fun key =>
      if key == utf8 "start" || key == utf8 "end" then
        some (ignored fun _ j => (position {} j).map fun _ => ())
      else none) () j).map fun _ => { value with ranged := true }

/-- One change. -/
def change (j : Json) : Option Change :=
  (record (α := ChangeFields) (fun key =>
    if key == utf8 "range" then some changeRange
    else if key == utf8 "rangelength" then
      some (ignored fun _ j => (unsigned 0 j).map fun _ => ())
    else if key == utf8 "text" then
      some (part ChangeFields.text (fun t c => { c with text := t }) text)
    else none) {} j).map fun c => if c.ranged then .ranged else .whole c.text

/-- A list of changes. -/
def changes : Reader (List Change)
  | old, .null => some old
  | _, .array items => items.mapM change
  | _, _ => none

/-- The members of a request about a position in a document. -/
def positional (extra : Bytes → Option (Reader Fields)) : Reader Fields :=
  record fun key =>
    if key == utf8 "textdocument" then some (document false)
    else if key == utf8 "position" then
      some (part Fields.pos (fun p f => { f with pos := p }) position)
    else if key == utf8 "workdonetoken" then some (ignored token)
    else extra key

/-- The token of partial results. -/
def partialToken (key : Bytes) : Option (Reader Fields) :=
  if key == utf8 "partialresulttoken" then some (ignored token) else none

/-- The context of a completion request. -/
def completionContext : Reader Unit :=
  record fun key =>
    if key == utf8 "triggerkind" then some signed
    else if key == utf8 "triggercharacter" then some anyText
    else none

/-- The parameters that open a session. -/
def opening : Reader Unit :=
  record fun key =>
    if key == utf8 "processid" then some signed
    else if key == utf8 "clientinfo" then
      some (record fun key =>
        if key == utf8 "name" || key == utf8 "version" then some anyText else none)
    else if key == utf8 "locale" || key == utf8 "rootpath" || key == utf8 "rooturi" ||
        key == utf8 "trace" then some anyText
    else if key == utf8 "capabilities" then
      some (record fun key =>
        if key == utf8 "workspace" || key == utf8 "textdocument" || key == utf8 "window" ||
          key == utf8 "general" then some anyObject else none)
    else if key == utf8 "workdonetoken" then some token
    else if key == utf8 "workspacefolders" then
      some fun _ j =>
        match j with
        | .null => some ()
        | .array items =>
          (items.mapM fun item => record (α := Unit) (fun key =>
            if key == utf8 "uri" || key == utf8 "name" then some anyText else none) () item).map
            fun _ => ()
        | _ => none
    else none

end Params

namespace Request

private def read {α : Type} (params : Option Json) (read : Params.Reader α) (initial : α)
    (make : α → Request) : Except Misfit Request :=
  match params with
  | none => .error .badParams
  | some j =>
    match read initial j with
    | none => .error .badParams
    | some value => .ok (make value)

/-- The request of a message. -/
def ofMessage (method : Bytes) (params : Option Json) : Except Misfit Request :=
  if method == startMethod then read params Params.opening () fun _ => .start
  else if method == utf8 "initialized" then
    read params (Params.record fun _ => none) () fun _ => .started
  else if method == stopMethod then .ok .stop
  else if method == utf8 "$/setTrace" then
    read params (Params.record fun key =>
      if key == utf8 "value" then some Params.anyText else none) () fun _ => .setTrace
  else if method == utf8 "textDocument/didOpen" then
    read params (Params.record fun key =>
      if key == utf8 "textdocument" then some Params.documentItem else none)
      ({} : Params.Fields) fun f => .open f.uri f.text
  else if method == utf8 "textDocument/didChange" then
    read params (Params.record fun key =>
      if key == utf8 "textdocument" then some (Params.document true)
      else if key == utf8 "contentchanges" then
        some (Params.part Params.Fields.changes (fun c f => { f with changes := c }) Params.changes)
      else none)
      ({} : Params.Fields) fun f => .change f.uri f.changes
  else if method == utf8 "textDocument/didClose" then
    read params (Params.record fun key =>
      if key == utf8 "textdocument" then some (Params.document false) else none)
      ({} : Params.Fields) fun f => .close f.uri
  else if method == utf8 "textDocument/completion" then
    read params (Params.positional fun key =>
      if key == utf8 "context" then some (Params.ignored Params.completionContext)
      else Params.partialToken key)
      {} fun f => .complete f.uri f.pos
  else if method == utf8 "textDocument/hover" then
    read params (Params.positional fun _ => none) {} fun f => .hover f.uri f.pos
  else if method == utf8 "textDocument/definition" then
    read params (Params.positional Params.partialToken) {} fun f => .define f.uri f.pos
  else .error .unknownMethod

private theorem read_ne_stop {α : Type} {params : Option Json} {reader : Params.Reader α}
    {initial : α} {make : α → Request} (hmake : ∀ value, make value ≠ .stop) :
    read params reader initial make ≠ .ok .stop := by
  cases params with
  | none => simp [read]
  | some j =>
    cases hread : reader initial j with
    | none => simp [read, hread]
    | some value => simpa [read, hread] using hmake value

private theorem ite_ne {α : Type} {c : Prop} [Decidable c] {a b x : α} (ha : a ≠ x) (hb : b ≠ x) :
    (if c then a else b) ≠ x := by
  split <;> assumption

/-- A message with another method does not close the session. -/
theorem ofMessage_ne_stop {method : Bytes} (h : method ≠ stopMethod) (params : Option Json) :
    ofMessage method params ≠ .ok .stop := by
  have hstop : (method == stopMethod) = false := by simpa using h
  simp only [ofMessage, hstop, Bool.false_eq_true, if_false]
  repeat refine ite_ne (read_ne_stop (by rintro _ ⟨⟩)) ?_
  rintro ⟨⟩

end Request

/-- The reader of the members of JSON objects. -/
def Decoder.ofMembers : Decoder where
  request := Request.ofMessage
  stops h := Decidable.byContradiction fun hmethod => Request.ofMessage_ne_stop hmethod _ h

end StackMachine.Editor
