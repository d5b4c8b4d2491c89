import Mathlib.Data.List.Nodup
import StackMachine.Proofs.Service.Histories

/-! The life of sessions. A session is there from the request that opens it to the first one that
drops it, whatever else is asked for and however runs end; requests that need it are refused before
and afterwards, and no session is dropped twice. -/
namespace StackMachine.Service

namespace Sessions

/-- The ids of the sessions, oldest first. -/
def ids (s : Sessions) : List Bytes :=
  s.live.map (·.id)

variable (s : Sessions)

theorem isSome_get?_iff {s : Sessions} {id : Bytes} : (s.get? id).isSome = true ↔ id ∈ s.ids := by
  simp [get?, ids]

theorem get?_eq_none_iff {s : Sessions} {id : Bytes} : s.get? id = none ↔ id ∉ s.ids := by
  rw [← isSome_get?_iff, Option.not_isSome_iff_eq_none]

theorem ids_insert (session : Session) : (s.insert session).ids = s.ids ++ [session.id] := by
  simp [insert, ids]

theorem ids_setState (id : Bytes) (state : State) : (s.setState id state).ids = s.ids := by
  simp only [setState, modify, ids, List.map_map]
  apply List.map_congr_left
  intro session _
  simp only [Function.comp_apply]
  split <;> rfl

theorem ids_erase (id : Bytes) : (s.erase id).ids = s.ids.filter (· != id) := by
  simp [erase, ids, List.filter_map, Function.comp_def]

end Sessions

namespace Request

/-- The session that must be there for a request, once its own arguments have been found good. -/
def seeks? : Request → Option Bytes
  | .run message => if (refusal? message).isSome then none else named message.sessionId
  | .instructions message => named message.sessionId
  | .assemble _ | .disassemble _ | .createSession _ | .destroySession _ => none

/-- The session that a request drops. -/
def drops? : Request → Option Bytes
  | .destroySession message => named message.sessionId
  | .assemble _ | .run _ | .disassemble _ | .instructions _ | .createSession _ => none

end Request

/-- A request and its answer. -/
structure Exchange where
  request : Request
  answer : Answer

namespace Exchange

/-- The id of the session that was opened. -/
def opened? (e : Exchange) : Option Bytes :=
  match e.answer with
  | .ok (.createSession response) => some response.sessionId
  | _ => none

/-- The id of the session that was dropped and had been there. -/
def dropped? (e : Exchange) : Option Bytes :=
  match e.request, e.answer with
  | .destroySession message, .ok (.destroySession response) =>
    if response.existed then some message.sessionId else none
  | _, _ => none

/-- The request was refused because something was not found. -/
def NotFound (e : Exchange) : Prop :=
  ∃ refusal, e.answer = .error refusal ∧ refusal.status = .notFound

@[simp] theorem notFound_error {request : Request} {refusal : Refusal} :
    NotFound ⟨request, .error refusal⟩ ↔ refusal.status = .notFound := by
  simp [NotFound]

@[simp] theorem not_notFound_ok {request : Request} {response : Response} :
    ¬ NotFound ⟨request, .ok response⟩ := by
  simp [NotFound]

end Exchange

/-- What was exchanged with a service since it was set up without sessions, and what has become of
it. -/
inductive Served (cap : Int) (template : Machine) : List Exchange → Service → Prop where
  | start : Served cap template [] { stepCap := cap, template }
  | next {log : List Exchange} {s after : Service} {fresh : Bytes} {wait : Wait} (e : Exchange) :
      Served cap template log s → Answers s fresh wait e.request after e.answer →
      Served cap template (log ++ [e]) after

/-- A session was opened under the id, and no request to drop it has followed. -/
def OpenAfter (log : List Exchange) (id : Bytes) : Prop :=
  ∃ earlier e later, log = earlier ++ e :: later ∧ e.opened? = some id ∧
    ∀ d ∈ later, d.request.drops? ≠ some id

/-- Where an element can stand in a list that ends with `e`. -/
private theorem concat_eq_append_cons_iff {log earlier later : List Exchange} {e d : Exchange} :
    log ++ [e] = earlier ++ d :: later ↔
      log = earlier ∧ e = d ∧ later = [] ∨
        ∃ rest, log = earlier ++ d :: rest ∧ later = rest ++ [e] := by
  constructor
  · intro h
    rcases List.eq_nil_or_concat' later with rfl | ⟨rest, last, rfl⟩
    · obtain ⟨hlog, heq⟩ := List.append_inj' h rfl
      cases heq
      exact .inl ⟨hlog, rfl, rfl⟩
    · rw [← List.cons_append, ← List.append_assoc] at h
      obtain ⟨hlog, heq⟩ := List.append_inj' h rfl
      cases heq
      exact .inr ⟨rest, hlog, rfl⟩
  · rintro (⟨rfl, rfl, rfl⟩ | ⟨rest, rfl, rfl⟩)
    · rfl
    · simp

theorem openAfter_concat {log : List Exchange} {e : Exchange} {id : Bytes} :
    OpenAfter (log ++ [e]) id ↔
      e.opened? = some id ∨ OpenAfter log id ∧ e.request.drops? ≠ some id := by
  constructor
  · rintro ⟨earlier, d, later, hlog, hopened, hkept⟩
    rcases concat_eq_append_cons_iff.mp hlog with ⟨-, rfl, -⟩ | ⟨rest, rfl, rfl⟩
    · exact .inl hopened
    · obtain ⟨hrest, hlast⟩ := List.forall_mem_append.mp hkept
      exact .inr ⟨⟨earlier, d, rest, rfl, hopened, hrest⟩, hlast e List.mem_cons_self⟩
  · rintro (hopened | ⟨⟨earlier, d, rest, rfl, hopened, hrest⟩, hlast⟩)
    · exact ⟨log, e, [], rfl, hopened, List.forall_mem_nil _⟩
    · refine ⟨earlier, d, rest ++ [e], by simp, hopened, List.forall_mem_append.mpr ⟨hrest, ?_⟩⟩
      intro d' hd'
      rw [List.mem_singleton.mp hd']
      exact hlast

section Answering

variable {s after : Service} {fresh id : Bytes} {wait : Wait} {e : Exchange}

/-- What a request and its answer have to do with the sessions that are there: one is opened, one
is dropped if it is there, or they stay. -/
inductive Changes (s after : Service) (e : Exchange) : Prop where
  | opens {id : Bytes} : e.request.opens = true → e.opened? = some id → e.request.drops? = none →
      e.dropped? = none → after.sessions.ids = s.sessions.ids ++ [id] → Changes s after e
  | drops {id : Bytes} {existed : Bool} : e.request.opens = false → e.opened? = none →
      e.request.drops? = some id → e.answer = .ok (.destroySession { existed }) →
      (existed = true ↔ id ∈ s.sessions.ids) →
      e.dropped? = (if existed then some id else none) →
      after.sessions.ids = s.sessions.ids.filter (· != id) → Changes s after e
  | keeps : e.request.opens = false → e.opened? = none → e.request.drops? = none →
      e.dropped? = none → after.sessions.ids = s.sessions.ids → Changes s after e

theorem Answers.changes (h : Answers s fresh wait e.request after e.answer) :
    Changes s after e := by
  obtain ⟨request, answer⟩ := e
  cases request with
  | run message =>
    obtain ⟨fuel, context, reply, rfl, hran⟩ := h.ran
    have hopened : Exchange.opened? ⟨.run message, reply.map .run⟩ = none := by
      cases reply <;> rfl
    refine .keeps rfl hopened rfl rfl ?_
    cases hran with
    | refused _ | alone _ _ _ | missing _ _ _ | stopped _ _ _ _ | unbegun _ _ _ _ _ => rfl
    | continued _ _ _ _ _ => exact Sessions.ids_setState _ _ _
  | assemble message =>
    cases h with
    | handled hhandle =>
      cases hhandle
      exact .keeps rfl (by cases assemble message <;> rfl) rfl rfl rfl
  | disassemble message =>
    cases h with
    | handled hhandle =>
      cases hhandle
      exact .keeps rfl rfl rfl rfl rfl
  | instructions message =>
    obtain ⟨rfl, rfl⟩ := h.eq_instructions
    exact .keeps rfl (by cases instructions after message wait <;> rfl) rfl rfl rfl
  | createSession message =>
    cases h with
    | handled hhandle =>
      cases hhandle
      exact .opens rfl rfl rfl rfl (Sessions.ids_insert _ _)
  | destroySession message =>
    cases h with
    | handled hhandle =>
      cases hid : named message.sessionId with
      | none =>
        rw [named_eq_none_iff] at hid
        simp only [handle, destroySession, if_pos hid] at hhandle
        cases hhandle
        exact .keeps rfl rfl (named_eq_none_iff.mpr hid) rfl rfl
      | some id =>
        obtain ⟨rfl, hne⟩ := named_eq_some_iff.mp hid
        simp only [handle, destroySession, List.isEmpty_iff, if_neg hne] at hhandle
        cases hhandle
        exact .drops rfl rfl hid rfl Sessions.isSome_get?_iff rfl (Sessions.ids_erase _ _)

/-- The sessions that are there afterwards. -/
theorem Changes.mem_ids_iff (h : Changes s after e) :
    id ∈ after.sessions.ids ↔
      e.opened? = some id ∨ id ∈ s.sessions.ids ∧ e.request.drops? ≠ some id := by
  cases h with
  | @opens new _ hopened hdrops _ hids =>
    have hnew : id = new ↔ new = id := eq_comm
    simp [hopened, hdrops, hids, hnew, or_comm]
  | @drops gone _ _ hopened hdrops _ _ _ hids =>
    have hgone : id = gone ↔ gone = id := eq_comm
    simp [hopened, hdrops, hids, hgone]
  | keeps _ hopened hdrops _ hids => simp [hopened, hdrops, hids]

/-- What is there or was dropped by the request, was there or was opened by it. -/
theorem Changes.perm (h : Changes s after e) (hnodup : s.sessions.ids.Nodup) :
    (after.sessions.ids ++ e.dropped?.toList).Perm (s.sessions.ids ++ e.opened?.toList) := by
  cases h with
  | opens _ hopened _ hdropped hids => simp [hopened, hdropped, hids]
  | @drops id existed _ hopened _ _ hexisted hdropped hids =>
    rw [hids, hopened, hdropped, ← hnodup.erase_eq_filter id]
    cases existed with
    | false =>
      have hmissing : id ∉ s.sessions.ids := fun hmem => nomatch hexisted.mpr hmem
      simp [List.erase_of_not_mem hmissing]
    | true =>
      calc
        List.Perm _ (id :: s.sessions.ids.erase id) := List.perm_append_singleton id _
        List.Perm _ s.sessions.ids := (List.perm_cons_erase (hexisted.mp rfl)).symm
        _ = _ := (List.append_nil _).symm
  | keeps _ hopened _ hdropped hids => simp [hopened, hdropped, hids]

private theorem refusal?_ne_notFound {message : Wire.RunRequest} {refusal : Refusal}
    (h : refusal? message = some refusal) : refusal.status ≠ .notFound := by
  unfold refusal? at h
  split at h
  · cases h
    decide
  · split at h
    · cases h
      decide
    · cases h

theorem seeks?_run {message : Wire.RunRequest} (h : refusal? message = none) :
    Request.seeks? (.run message) = named message.sessionId := by
  simp [Request.seeks?, h]

/-- A request is refused because something was not found if the session that it needs is not
there, and only then. -/
theorem Answers.notFound_iff (h : Answers s fresh wait e.request after e.answer) :
    e.NotFound ↔ ∃ id, e.request.seeks? = some id ∧ id ∉ s.sessions.ids := by
  obtain ⟨request, answer⟩ := e
  replace h : Answers s fresh wait request after answer := h
  cases request with
  | run message =>
    obtain ⟨fuel, context, reply, rfl, hran⟩ := h.ran
    cases hran with
    | refused hrefusal =>
      simp [Request.seeks?, hrefusal, Except.map, refusal?_ne_notFound hrefusal]
    | alone hgood hnone _ => simp [seeks?_run hgood, hnone, Except.map]
    | missing hgood hid hget =>
      have hmissing := Sessions.get?_eq_none_iff.mp hget
      simp [seeks?_run hgood, hid, hmissing, Except.map, Refusal.status]
    | stopped hgood hid hget _ | unbegun hgood hid hget _ _ | continued hgood hid hget _ _ =>
      have hlive := Sessions.isSome_get?_iff.mp (Option.isSome_of_eq_some hget)
      simp [seeks?_run hgood, hid, hlive, Except.map]
  | assemble message =>
    cases h with
    | handled hhandle =>
      cases hhandle
      unfold assemble
      split
      · simp [Request.seeks?, Except.map, Refusal.status]
      · split <;> simp [Request.seeks?, Except.map]
  | disassemble message | createSession message =>
    cases h with
    | handled hhandle =>
      cases hhandle
      simp [Request.seeks?]
  | instructions message =>
    obtain ⟨-, rfl⟩ := h.eq_instructions
    cases hid : named message.sessionId with
    | none =>
      have hempty := named_eq_none_iff.mp hid
      simp [Request.seeks?, hid, instructions, hempty, Except.map]
    | some id =>
      obtain ⟨rfl, hne⟩ := named_eq_some_iff.mp hid
      simp only [Request.seeks?, hid, instructions, List.isEmpty_iff, if_neg hne,
        Option.some.injEq, exists_eq_left', ← Sessions.get?_eq_none_iff]
      cases s.sessions.get? message.sessionId with
      | none => simp [Except.map, Refusal.status]
      | some session =>
        cases hstopped : session.stopped <;> cases wait <;>
          simp [hstopped, Except.map, Refusal.status]
  | destroySession message =>
    cases h with
    | handled hhandle =>
      simp only [handle, destroySession, Option.some.injEq, Prod.mk.injEq] at hhandle
      obtain ⟨-, rfl⟩ := hhandle
      split <;> simp [Request.seeks?, Except.map, Refusal.status]

end Answering

section Serving

variable {cap : Int} {template : Machine} {s last : Service} {log : List Exchange}

/-- Whatever was exchanged was answered by a service that had come to it by what was exchanged
before. -/
theorem Served.answers {earlier later : List Exchange} {e : Exchange}
    (h : Served cap template (earlier ++ e :: later) last) :
    ∃ before fresh wait after, Served cap template earlier before ∧
      Answers before fresh wait e.request after e.answer := by
  -- Logs grow at their end, so the induction takes away what came after `e` first.
  generalize hlog : earlier ++ e :: later = log at h
  induction h generalizing later with
  | start => simp at hlog
  | @next log s after fresh wait last hserved hanswers ih =>
    rcases concat_eq_append_cons_iff.mp hlog.symm with ⟨rfl, rfl, -⟩ | ⟨rest, hrest, -⟩
    · exact ⟨s, fresh, wait, after, hserved, hanswers⟩
    · exact ih hrest.symm

/-- A session is there if it was opened and no request to drop it has followed. -/
theorem Served.mem_ids_iff (h : Served cap template log s) (id : Bytes) :
    id ∈ s.sessions.ids ↔ OpenAfter log id := by
  induction h with
  | start => simp [Sessions.ids, OpenAfter]
  | next e _ hanswers ih => rw [openAfter_concat, ← ih, hanswers.changes.mem_ids_iff]

private theorem filterMap_concat (f : Exchange → Option Bytes) (log : List Exchange)
    (e : Exchange) :
    (log ++ [e]).filterMap f = log.filterMap f ++ (f e).toList := by
  cases h : f e <;> simp [h]

/-- The sessions that are there and those that were dropped are those that were opened. -/
theorem Served.perm_opened (h : Served cap template log s)
    (hfresh : (log.filterMap Exchange.opened?).Nodup) :
    (s.sessions.ids ++ log.filterMap Exchange.dropped?).Perm
      (log.filterMap Exchange.opened?) := by
  induction h with
  | start => exact .nil
  | @next log s after fresh wait e _ hanswers ih =>
    rw [filterMap_concat] at hfresh
    rw [filterMap_concat, filterMap_concat]
    have hbefore := ih hfresh.of_append_left
    -- Without an id that was given out twice, a session that is dropped is the only one of its id.
    have hnodup : s.sessions.ids.Nodup :=
      (hbefore.nodup_iff.mpr hfresh.of_append_left).of_append_left
    calc
      List.Perm _ (log.filterMap Exchange.dropped? ++
          (after.sessions.ids ++ e.dropped?.toList)) := List.perm_append_comm_assoc ..
      List.Perm _ (log.filterMap Exchange.dropped? ++ (s.sessions.ids ++ e.opened?.toList)) :=
        (hanswers.changes.perm hnodup).append_left _
      List.Perm _ (s.sessions.ids ++ (log.filterMap Exchange.dropped? ++ e.opened?.toList)) :=
        List.perm_append_comm_assoc ..
      _ = s.sessions.ids ++ log.filterMap Exchange.dropped? ++ e.opened?.toList :=
        (List.append_assoc ..).symm
      List.Perm _ (log.filterMap Exchange.opened? ++ e.opened?.toList) := hbefore.append_right _

/-- Every request to open a session is answered with an id. -/
theorem Served.length_opened (h : Served cap template log s) :
    (log.filterMap Exchange.opened?).length = log.countP (·.request.opens) := by
  induction h with
  | start => rfl
  | next e _ hanswers ih =>
    rw [filterMap_concat, List.length_append, ih, List.countP_append]
    cases hanswers.changes with
    | opens hopens hopened _ _ _ => simp [hopens, hopened]
    | drops hopens hopened _ _ _ _ _ | keeps hopens hopened _ _ _ => simp [hopens, hopened]

/-- Requests with their answers. -/
def exchanges (requests : List (Bytes × Request)) (answers : List Answer) : List Exchange :=
  List.zipWith (fun asked answer => ⟨asked.2, answer⟩) requests answers

theorem Served.handleAll {fuel : Nat} {requests : List (Bytes × Request)} {answers : List Answer}
    (hs : Served cap template log s) (h : handleAll fuel s requests = some (last, answers)) :
    Served cap template (log ++ exchanges requests answers) last := by
  induction requests generalizing s answers log with
  | nil =>
    cases h
    simpa [exchanges] using hs
  | cons request rest ih =>
    obtain ⟨t, answer, more, hhandle, hrest, rfl⟩ := handleAll_cons_eq_some_iff.mp h
    simpa [exchanges] using ih (hs.next ⟨request.2, answer⟩ (.handled hhandle)) hrest

/-- The life of sessions, if no id is given out twice. A request is refused because something was
not found exactly if it needs a session that has not been opened or was dropped since; a request to
drop a session tells that it was there exactly if it was opened and this is the first such request
since, so no session is told twice to have been dropped. The sessions that are there are those that
were opened and not dropped since, nothing else takes one away, and their number is that of the
openings less that of the droppings. -/
theorem sessions_live_until_dropped (h : Served cap template log last)
    (hfresh : (log.filterMap Exchange.opened?).Nodup) :
    (∀ earlier e later, log = earlier ++ e :: later →
      (e.NotFound ↔ ∃ id, e.request.seeks? = some id ∧ ¬ OpenAfter earlier id) ∧
      ∀ id, e.request.drops? = some id → ∃ existed,
        e.answer = .ok (.destroySession { existed }) ∧ (existed = true ↔ OpenAfter earlier id)) ∧
    (log.filterMap Exchange.dropped?).Nodup ∧
    (∀ id, (last.sessions.get? id).isSome = true ↔ OpenAfter log id) ∧
    (∀ fresh wait after (e : Exchange), Answers last fresh wait e.request after e.answer →
      ∀ id, (last.sessions.get? id).isSome = true → e.request.drops? ≠ some id →
        (after.sessions.get? id).isSome = true) ∧
    last.sessions.size + (log.filterMap Exchange.dropped?).length =
      log.countP (·.request.opens) := by
  have hperm := h.perm_opened hfresh
  refine ⟨?_, ?_, ?_, ?_, ?_⟩
  · rintro earlier e later rfl
    obtain ⟨before, fresh, wait, after, hserved, hanswers⟩ := h.answers
    refine ⟨?_, ?_⟩
    · simp only [← hserved.mem_ids_iff]
      exact hanswers.notFound_iff
    · intro id hid
      rw [← hserved.mem_ids_iff]
      cases hanswers.changes with
      | opens _ _ hdrops _ _ | keeps _ _ hdrops _ _ => cases hdrops.symm.trans hid
      | @drops _ existed _ _ hdrops hanswer hexisted _ _ =>
        cases hdrops.symm.trans hid
        exact ⟨existed, hanswer, hexisted⟩
  · exact (hperm.nodup_iff.mpr hfresh).of_append_right
  · intro id
    rw [Sessions.isSome_get?_iff, h.mem_ids_iff]
  · intro fresh wait after e hanswers id hlive hkept
    rw [Sessions.isSome_get?_iff] at hlive ⊢
    exact hanswers.changes.mem_ids_iff.mpr (.inr ⟨hlive, hkept⟩)
  · rw [← h.length_opened, ← hperm.length_eq, List.length_append, Sessions.ids, List.length_map,
      Sessions.size]

end Serving

/-- Of two sessions one breaks off, is dropped twice, and is asked for once more. -/
def dropTwice (a b : Bytes) : List (Bytes × Request) :=
  [(a, .createSession {}), (b, .createSession {}),
    ([], .run { source := utf8 "BREAK", sessionId := b }),
    ([], .destroySession { sessionId := b }), ([], .destroySession { sessionId := b }),
    ([], .run { source := utf8 "EXIT", sessionId := b })]

theorem sessions_live_until_dropped_brittle :
    let a := utf8 "a"
    let b := utf8 "b"
    ∃ last answers, handleAll 9 brittle (dropTwice a b) = some (last, answers) ∧
      let log := exchanges (dropTwice a b) answers
      log.filterMap Exchange.opened? = [a, b] ∧ log.filterMap Exchange.dropped? = [b] ∧
      log.countP (·.request.opens) = 2 ∧ last.sessions.size + 1 = 2 ∧
      ((last.sessions.get? b).isSome = true ↔ OpenAfter log b) := by
  intro a b
  have hrun : ((handleAll 9 brittle (dropTwice a b)).map fun result =>
      let log := exchanges (dropTwice a b) result.2
      (log.filterMap Exchange.opened?, log.filterMap Exchange.dropped?,
        log.countP (·.request.opens))) = some ([a, b], [b], 2) := by decide +kernel
  obtain ⟨⟨last, answers⟩, hlast, hlog⟩ := Option.map_eq_some_iff.mp hrun
  simp only [Prod.mk.injEq] at hlog
  obtain ⟨hopened, hdropped, hopens⟩ := hlog
  have hstart : Served 0 brittle.template [] brittle := .start
  have hserved := hstart.handleAll hlast
  rw [List.nil_append] at hserved
  have hfresh : ((exchanges (dropTwice a b) answers).filterMap Exchange.opened?).Nodup := by
    rw [hopened]
    decide
  obtain ⟨-, -, hlive, -, hsize⟩ := sessions_live_until_dropped hserved hfresh
  rw [hdropped, hopens] at hsize
  exact ⟨last, answers, hlast, hopened, hdropped, hopens, hsize, hlive b⟩

end StackMachine.Service
