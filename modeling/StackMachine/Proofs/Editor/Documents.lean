import StackMachine.Editor.Params
import StackMachine.Editor.Session

/-! Documents and what is published about them. As long as a session is open, the text of a document
and the rejected lines that were last published for it follow from the latest message that opened,
replaced or closed it; no other message touches either. -/
namespace StackMachine.Editor

/-- A message of the client. -/
structure Message where
  method : Bytes
  params : Option Json

/-- What a message can make of a document: it gives it a text, or closes it. -/
inductive Revision where
  | stored (text : Bytes)
  | closed
deriving DecidableEq

/-- The text of the document afterwards. -/
def Revision.text? : Revision → Option Bytes
  | .stored text => some text
  | .closed => none

/-- The rejected lines of the document afterwards. -/
def Revision.diagnostics (r : Registry) : Revision → List Diagnostic
  | .stored text => diagnose r text
  | .closed => []

namespace Request

/-- What a request makes of a document. Of several changes the last one counts, and it has to give
the whole text. -/
def revision? (uri : Bytes) : Request → Option Revision
  | .open u text => if u = uri then some (.stored text) else none
  | .change u changes =>
    match changes.getLast? with
    | some (.whole text) => if u = uri then some (.stored text) else none
    | _ => none
  | .close u => if u = uri then some .closed else none
  | _ => none

/-- The document that a request is about. -/
def subject? : Request → Option Bytes
  | .open uri _ | .change uri _ | .close uri => some uri
  | .complete uri _ | .hover uri _ | .define uri _ => some uri
  | .start | .started | .stop | .setTrace => none

/-- The request asks for completions, a documentation or a definition. -/
def inquires : Request → Bool
  | .complete _ _ | .hover _ _ | .define _ _ => true
  | _ => false

theorem revision?_eq_none {uri : Bytes} {request : Request}
    (h : request.subject? ≠ some uri ∨ request.inquires = true) : request.revision? uri = none := by
  cases request with
  | start | started | stop | setTrace | complete _ _ | hover _ _ | define _ _ => rfl
  | «open» u text | close u =>
    have hne : u ≠ uri := by simpa [subject?, inquires] using h
    rw [revision?, if_neg hne]
  | change u changes =>
    have hne : u ≠ uri := by simpa [subject?, inquires] using h
    rw [revision?]
    split
    · rw [if_neg hne]
    · rfl

end Request

namespace Message

variable (decoder : Decoder)

/-- The request of a message, if it is one. -/
def request? (m : Message) : Option Request :=
  match decoder.request m.method m.params with
  | .ok request => some request
  | .error _ => none

/-- What a message makes of a document. -/
def revision? (uri : Bytes) (m : Message) : Option Revision :=
  (m.request? decoder).bind (Request.revision? uri)

/-- The message is no request that could change the document: it is about another one, or it asks
for something. -/
def Spares (m : Message) (uri : Bytes) : Prop :=
  ∀ request, m.request? decoder = some request →
    request.subject? ≠ some uri ∨ request.inquires = true

variable {decoder}

theorem Spares.revision?_eq_none {m : Message} {uri : Bytes} (h : m.Spares decoder uri) :
    m.revision? decoder uri = none := by
  rw [revision?]
  cases hm : m.request? decoder with
  | none => rfl
  | some request => exact Request.revision?_eq_none (h request hm)

end Message

/-- What messages made of a document, in order. -/
def revisions (decoder : Decoder) (uri : Bytes) (messages : List Message) : List Revision :=
  messages.filterMap (Message.revision? decoder uri)

/-- What was published for a document, in order. -/
def publishedFor (uri : Bytes) (published : List Publication) : List (List Diagnostic) :=
  (published.filter fun p => p.uri == uri).map (·.diagnostics)

/-- Receives messages in order. -/
def Session.receiveAll (decoder : Decoder) : Session → List Message → Session × List Publication
  | e, [] => (e, [])
  | e, m :: rest =>
    let (next, answer) := e.receive decoder m.method m.params
    let (last, published) := next.receiveAll decoder rest
    (last, answer.published ++ published)

/-- A session as it is opened. -/
def Session.opened (r : Registry) : Session :=
  (Session.serve { registry := r } .start).1

namespace Session

variable {e : Session} {r : Registry}

theorem lookup_without (documents : List (Bytes × Bytes)) (u uri : Bytes) :
    (without documents u).lookup uri = if u = uri then none else documents.lookup uri := by
  induction documents with
  | nil => simp [without]
  | cons entry rest ih =>
    obtain ⟨v, text⟩ := entry
    rw [without] at ih ⊢
    by_cases hv : v = u
    · subst hv
      by_cases hu : v = uri
      · simpa [hu] using ih
      · have hne : (uri == v) = false := by simpa using Ne.symm hu
        simpa [hu, List.lookup_cons, hne] using ih
    · by_cases hu : uri = v
      · subst hu
        simp [hv, Ne.symm hv]
      · have hne : (uri == v) = false := by simpa using hu
        simpa [hv, List.lookup_cons, hne] using ih

theorem document?_store (e : Session) (u text uri : Bytes) :
    (e.store u text).document? uri = if u = uri then some text else e.document? uri := by
  rw [document?, store, List.lookup_cons]
  by_cases hu : u = uri
  · simp [hu]
  · have hne : (uri == u) = false := by simpa using Ne.symm hu
    simp [hne, hu, lookup_without, document?]

/-- The session is open, and the machine behind it has the instructions of the registry. -/
structure Serves (e : Session) (r : Registry) : Prop where
  isOpen : e.isOpen = true
  running : e.machineStopped = false
  registry : e.registry = r

theorem serves_opened (r : Registry) : (opened r).Serves r :=
  ⟨rfl, rfl, rfl⟩

/-- From one session to another a document went through some revisions: the last one gives its text,
and the rejected lines of each were published. -/
structure Follows (r : Registry) (uri : Bytes) (revisions : List Revision) (e after : Session)
    (published : List Publication) : Prop where
  serves : after.Serves r
  text : after.document? uri = (revisions.getLast?.map Revision.text?).getD (e.document? uri)
  published : publishedFor uri published = revisions.map (Revision.diagnostics r)

theorem Follows.none (he : e.Serves r) (uri : Bytes) : Follows r uri [] e e [] :=
  ⟨he, rfl, rfl⟩

theorem Follows.append {uri : Bytes} {revisions later : List Revision} {next last : Session}
    {published more : List Publication} (h : Follows r uri revisions e next published)
    (h' : Follows r uri later next last more) :
    Follows r uri (revisions ++ later) e last (published ++ more) where
  serves := h'.serves
  text := by
    rw [h'.text, h.text, List.getLast?_append]
    cases later.getLast? <;> rfl
  published := by
    rw [publishedFor, List.filter_append, List.map_append, List.map_append, ← h.published,
      ← h'.published, publishedFor, publishedFor]

theorem publishedFor_single (u uri : Bytes) (diagnostics : List Diagnostic) :
    publishedFor uri [⟨u, diagnostics⟩] = if u = uri then [diagnostics] else [] := by
  by_cases hu : u = uri <;> simp [publishedFor, hu]

theorem follows_update (he : e.Serves r) (u text uri : Bytes) :
    Follows r uri (if u = uri then [.stored text] else []) e (e.update u text).1
      (e.update u text).2.published := by
  have hpublished : (e.update u text).2.published = [⟨u, diagnose r text⟩] := by
    simp [update, he.running, he.registry]
  refine ⟨⟨he.isOpen, he.running, he.registry⟩, ?_, ?_⟩
  · rw [update, document?_store]
    split <;> rfl
  · rw [hpublished, publishedFor_single]
    split <;> rfl

theorem follows_close (he : e.Serves r) (u uri : Bytes) :
    Follows r uri (if u = uri then [.closed] else []) e (e.serve (.close u)).1
      (e.serve (.close u)).2.published := by
  refine ⟨⟨he.isOpen, he.running, he.registry⟩, ?_, ?_⟩
  · rw [serve, document?, lookup_without]
    split <;> rfl
  · rw [serve, publishedFor_single]
    split <;> rfl

/-- A request for something leaves the session as it is. -/
theorem serve_of_inquires (e : Session) {request : Request} (h : request.inquires = true) :
    (e.serve request).1 = e ∧ (e.serve request).2.published = [] := by
  cases request with
  | complete uri pos =>
    rw [serve]
    split
    · exact ⟨rfl, rfl⟩
    · split <;> exact ⟨rfl, rfl⟩
  | hover uri pos =>
    rw [serve]
    split
    · exact ⟨rfl, rfl⟩
    · dsimp only
      split
      · exact ⟨rfl, rfl⟩
      · split <;> exact ⟨rfl, rfl⟩
  | define uri pos =>
    rw [serve]
    split <;> exact ⟨rfl, rfl⟩
  | start | started | stop | setTrace | «open» _ _ | change _ _ | close _ => cases h

/-- A request that does not close the session makes of a document what it says. -/
theorem follows_serve (he : e.Serves r) {request : Request} (hstop : request ≠ .stop)
    (uri : Bytes) :
    Follows r uri (request.revision? uri).toList e (e.serve request).1
      (e.serve request).2.published := by
  -- Requests that ask for something come first: whatever the answer, the session stays as it is.
  by_cases hinquires : request.inquires = true
  · obtain ⟨hsame, hnothing⟩ := serve_of_inquires e hinquires
    rw [hsame, hnothing, Request.revision?_eq_none (.inr hinquires)]
    exact .none he uri
  · cases request with
    | start => exact ⟨⟨rfl, he.running, he.registry⟩, rfl, rfl⟩
    | started | setTrace => exact .none he uri
    | stop => exact absurd rfl hstop
    | «open» u text =>
      rw [Request.revision?, apply_ite Option.toList]
      exact follows_update he u text uri
    | change u changes =>
      rw [Request.revision?, serve]
      cases changes.getLast? with
      | none => exact .none he uri
      | some change =>
        cases change with
        | whole text =>
          dsimp only
          rw [apply_ite Option.toList]
          exact follows_update he u text uri
        | ranged => exact .none he uri
    | close u =>
      rw [Request.revision?, apply_ite Option.toList]
      exact follows_close he u uri
    | complete _ _ | hover _ _ | define _ _ => exact absurd rfl hinquires

theorem follows_receive (decoder : Decoder) (he : e.Serves r) {m : Message}
    (hstop : m.method ≠ stopMethod) (uri : Bytes) :
    Follows r uri (m.revision? decoder uri).toList e (e.receive decoder m.method m.params).1
      (e.receive decoder m.method m.params).2.published := by
  have hadmitted : (!e.isOpen && m.method != startMethod) = false := by simp [he.isOpen]
  rw [receive, hadmitted, Message.revision?, Message.request?]
  cases hm : decoder.request m.method m.params with
  | error why => exact .none he uri
  | ok request =>
    apply follows_serve he
    rintro rfl
    exact hstop (decoder.stops hm)

/-- Messages that do not close the session make of a document what they say one after the other. -/
theorem follows_receiveAll (decoder : Decoder) (he : e.Serves r) {messages : List Message}
    (hstop : ∀ m ∈ messages, m.method ≠ stopMethod) (uri : Bytes) :
    Follows r uri (revisions decoder uri messages) e (e.receiveAll decoder messages).1
      (e.receiveAll decoder messages).2 := by
  induction messages generalizing e with
  | nil => exact .none he uri
  | cons m rest ih =>
    have hfirst := follows_receive decoder he (hstop m List.mem_cons_self) uri
    have hrest := ih hfirst.serves fun m hm => hstop m (List.mem_cons_of_mem _ hm)
    have hrevisions : revisions decoder uri (m :: rest) =
        (m.revision? decoder uri).toList ++ revisions decoder uri rest := by
      rw [revisions, List.filterMap_cons]
      cases m.revision? decoder uri <;> rfl
    rw [hrevisions]
    exact hfirst.append hrest

end Session

/-- In a session that is not closed, the latest message that opened, replaced or closed a document
decides on its text and on what was last published for it: the rejected lines of that text, or none
if the document was closed. A message that only asks for something or is about another document
changes neither. -/
theorem publications_describe_documents {decoder : Decoder} {r : Registry}
    {messages : List Message} {e : Session} {published : List Publication}
    (hstop : ∀ m ∈ messages, m.method ≠ stopMethod)
    (h : (Session.opened r).receiveAll decoder messages = (e, published)) (uri : Bytes) :
    e.document? uri = (revisions decoder uri messages).getLast?.bind Revision.text? ∧
    publishedFor uri published =
      (revisions decoder uri messages).map (Revision.diagnostics r) ∧
    (∀ text, e.document? uri = some text →
      (publishedFor uri published).getLast? = some (diagnose r text)) ∧
    ((revisions decoder uri messages).getLast? = some .closed →
      (publishedFor uri published).getLast? = some []) ∧
    ∀ m : Message, m.method ≠ stopMethod → m.Spares decoder uri →
      (e.receive decoder m.method m.params).1.document? uri = e.document? uri ∧
        publishedFor uri (e.receive decoder m.method m.params).2.published = [] := by
  have hfollows := Session.follows_receiveAll decoder (Session.serves_opened r) hstop uri
  rw [h] at hfollows
  have hlast : (publishedFor uri published).getLast? =
      (revisions decoder uri messages).getLast?.map (Revision.diagnostics r) := by
    rw [hfollows.published, List.getLast?_map]
  have hdocument : e.document? uri = (revisions decoder uri messages).getLast?.bind Revision.text? := by
    rw [hfollows.text]
    cases (revisions decoder uri messages).getLast? <;> rfl
  refine ⟨hdocument, hfollows.published, ?_, ?_, ?_⟩
  · intro text htext
    rw [hdocument] at htext
    obtain ⟨revision, hrevision, hstored⟩ := Option.bind_eq_some_iff.mp htext
    rw [hlast, hrevision]
    cases revision with
    | stored _ =>
      cases hstored
      rfl
    | closed => cases hstored
  · intro hclosed
    rw [hlast, hclosed]
    rfl
  · intro m hm hspares
    have hspared := Session.follows_receive decoder hfollows.serves hm uri
    rw [hspares.revision?_eq_none] at hspared
    exact ⟨hspared.text, hspared.published⟩

/-- Two documents: one is opened, edited and closed, and then edited in part; the other is replaced
without having been opened, by the last of two changes. -/
theorem publications_describe_documents_unopened :
    let a := utf8 "file:///a"
    let b := utf8 "file:///b"
    let document (uri : Bytes) : Bytes × Json :=
      (utf8 "textDocument", .object [(utf8 "uri", .text uri), (utf8 "text", .text (utf8 "EXIT 1"))])
    let part : Json := .object [(utf8 "range", .object []), (utf8 "text", .text (utf8 "ADD"))]
    let whole : Json := .object [(utf8 "text", .text (utf8 "\nFOO"))]
    let changes (items : List Json) : Bytes × Json := (utf8 "contentChanges", .array items)
    let messages : List Message :=
      [⟨utf8 "textDocument/didOpen", some (.object [document a])⟩,
        ⟨utf8 "textDocument/didChange", some (.object [document b, changes [part, whole]])⟩,
        ⟨utf8 "textDocument/didClose", some (.object [document a])⟩,
        ⟨utf8 "textDocument/didChange", some (.object [document a, changes [whole, part]])⟩]
    ∃ e published, (Session.opened .builtins).receiveAll .ofMembers messages = (e, published) ∧
      e.document? a = none ∧ (publishedFor a published).getLast? = some [] ∧
      e.document? b = some (utf8 "\nFOO") ∧ (publishedFor b published).getLast? =
        some [⟨1, 3, utf8 "line 2: unknown instruction: FOO"⟩] := by
  intro a b document part whole changes messages
  have hstop : ∀ m ∈ messages, m.method ≠ stopMethod := by decide
  have hlast : (revisions .ofMembers a messages).getLast? = some .closed := by decide +kernel
  have hlast' : (revisions .ofMembers b messages).getLast? = some (.stored (utf8 "\nFOO")) := by
    decide +kernel
  cases hreceived : (Session.opened .builtins).receiveAll .ofMembers messages with
  | mk e published =>
    obtain ⟨hdocument, -, -, hclosed, -⟩ := publications_describe_documents hstop hreceived a
    obtain ⟨hdocument', -, hstored, -⟩ := publications_describe_documents hstop hreceived b
    rw [hlast] at hdocument
    rw [hlast'] at hdocument'
    refine ⟨e, published, rfl, hdocument, hclosed hlast, hdocument', ?_⟩
    rw [hstored _ hdocument']
    decide +kernel

end StackMachine.Editor
