import StackMachine.Proofs.Service.Isolation

/-! Services over many requests. What holds of the machine that sessions start with, and stays true
when a program is executed on it, holds of the machine of every session at any time. -/
namespace StackMachine.Service

open Wire (RunRequest RunResponse InstructionsRequest)

/-- A service answers a request, for which it may open a session under the id `fresh`. Whoever asks
for a run may stop it before it ends, and whoever asks something of a session may leave before its
machine has answered. -/
inductive Answers (s : Service) (fresh : Bytes) : Wait → Request → Service → Answer → Prop where
  | handled {fuel : Nat} {request : Request} {after : Service} {answer : Answer} :
      s.handle fuel fresh request = some (after, answer) →
      Answers s fresh .served request after answer
  | awaited {fuel : Nat} {context : Context} {wait : Wait} {message : RunRequest}
      {after : Service} {reply : Except Refusal RunResponse} :
      wait.Permitted context → s.run fuel context message wait = some (after, reply) →
      Answers s fresh wait (.run message) after (reply.map .run)
  | inquired {why : Interruption} {begun : Bool} {message : InstructionsRequest} :
      Answers s fresh (.left why begun) (.instructions message) s
        ((s.instructions message (.left why begun)).map .instructions)

/-- A request to run a program is answered by a run, stopped or not. -/
theorem Answers.exists_run {s after : Service} {fresh : Bytes} {wait : Wait} {message : RunRequest}
    {answer : Answer} (h : Answers s fresh wait (.run message) after answer) :
    ∃ fuel context reply, answer = reply.map .run ∧
      s.run fuel context message wait = some (after, reply) := by
  cases h with
  | handled hhandle =>
    obtain ⟨⟨next, reply⟩, hrun, heq⟩ := Option.map_eq_some_iff.mp hhandle
    cases heq
    exact ⟨_, _, reply, rfl, hrun⟩
  | awaited _ hrun => exact ⟨_, _, _, rfl, hrun⟩

theorem Answers.ran {s after : Service} {fresh : Bytes} {wait : Wait} {message : RunRequest}
    {answer : Answer} (h : Answers s fresh wait (.run message) after answer) :
    ∃ fuel context reply, answer = reply.map .run ∧
      Ran fuel context s message wait after reply := by
  obtain ⟨fuel, context, reply, hanswer, hrun⟩ := h.exists_run
  exact ⟨fuel, context, reply, hanswer, ran_of_run hrun⟩

theorem Answers.ran_of_ok {s after : Service} {fresh : Bytes} {wait : Wait} {message : RunRequest}
    {response : RunResponse}
    (h : Answers s fresh wait (.run message) after (.ok (.run response))) :
    ∃ fuel context, Ran fuel context s message wait after (.ok response) := by
  obtain ⟨fuel, context, reply, hanswer, hran⟩ := h.ran
  cases reply with
  | error refusal => cases hanswer
  | ok response =>
    cases hanswer
    exact ⟨fuel, context, hran⟩

/-- To a request for the instructions that it knows, the service answers in one way or another, and
stays as it was. -/
theorem Answers.eq_instructions {s after : Service} {fresh : Bytes} {wait : Wait}
    {message : InstructionsRequest} {answer : Answer}
    (h : Answers s fresh wait (.instructions message) after answer) :
    after = s ∧ answer = (s.instructions message wait).map .instructions := by
  cases h with
  | handled hhandle =>
    cases hhandle
    exact ⟨rfl, rfl⟩
  | inquired => exact ⟨rfl, rfl⟩

/-- The service was set up without sessions, with a cap and a machine for sessions to start with,
and has come to this by answering requests. -/
inductive Reachable (cap : Int) (template : Machine) : Service → Prop where
  | start : Reachable cap template { stepCap := cap, template }
  | answer {s after : Service} {fresh : Bytes} {wait : Wait} {request : Request}
      {answer : Answer} :
      Reachable cap template s → Answers s fresh wait request after answer →
      Reachable cap template after

/-- What executing a program on a machine does not change. -/
def Lasting (P : Machine → Prop) : Prop :=
  ∀ ⦃fuel context limit m request state work⦄, P m →
    execute fuel context limit m request = some (state, work) → P { m with state }

section Invariants

variable {cap : Int} {template : Machine} {s after : Service} {fresh : Bytes} {wait : Wait}
  {request : Request} {answer : Answer}

theorem Answers.configuration (h : Answers s fresh wait request after answer) :
    after.stepCap = s.stepCap ∧ after.template = s.template := by
  cases h with
  | handled hhandle => exact handle_configuration hhandle
  | awaited _ hrun => cases ran_of_run hrun <;> exact ⟨rfl, rfl⟩
  | inquired => exact ⟨rfl, rfl⟩

theorem Reachable.configuration (h : Reachable cap template s) :
    s.stepCap = cap ∧ s.template = template := by
  induction h with
  | start => exact ⟨rfl, rfl⟩
  | answer _ hanswers ih =>
    obtain ⟨hcap, htemplate⟩ := hanswers.configuration
    exact ⟨hcap.trans ih.1, htemplate.trans ih.2⟩

theorem Reachable.handleAll {fuel : Nat} {last : Service} {requests : List (Bytes × Request)}
    {answers : List Answer} (hs : Reachable cap template s)
    (h : handleAll fuel s requests = some (last, answers)) : Reachable cap template last := by
  induction requests generalizing s answers with
  | nil =>
    cases h
    exact hs
  | cons request rest ih =>
    obtain ⟨t, answer, more, hhandle, hrest, -⟩ := handleAll_cons_eq_some_iff.mp h
    exact ih (hs.answer (.handled hhandle)) hrest

/-- The sessions work, and each has a machine of which `P` holds. -/
def Sound (P : Machine → Prop) (s : Service) : Prop :=
  ∀ id session, s.sessions.get? id = some session → session.stopped = false ∧ P session.machine

theorem Sound.ran {P : Machine → Prop} (hP : Lasting P) (hs : s.Sound P) {fuel : Nat}
    {context : Context} {message : RunRequest} {reply : Except Refusal RunResponse}
    (h : Ran fuel context s message wait after reply) : after.Sound P := by
  cases h with
  | refused _ | alone _ _ _ | missing _ _ _ | stopped _ _ _ _ | unbegun _ _ _ _ _ => exact hs
  | @continued id session state work _ _ hget hrunning hexecute =>
    intro other found hfound
    rw [Sessions.get?_setState] at hfound
    split at hfound
    · rename_i heq
      subst heq
      rw [hget, Option.map_some, Option.some.injEq] at hfound
      subst hfound
      exact ⟨hrunning, hP (hs id session hget).2 hexecute⟩
    · exact hs other found hfound

theorem Sound.answers {P : Machine → Prop} (hP : Lasting P) (htemplate : P s.template)
    (hs : s.Sound P) (h : Answers s fresh wait request after answer) : after.Sound P := by
  cases request with
  | run message =>
    obtain ⟨fuel, context, reply, -, hran⟩ := h.ran
    exact hs.ran hP hran
  | instructions message =>
    obtain ⟨rfl, -⟩ := h.eq_instructions
    exact hs
  | assemble message | disassemble message =>
    cases h with
    | handled hhandle =>
      cases hhandle
      exact hs
  | createSession message =>
    cases h with
    | handled hhandle =>
      cases hhandle
      intro id session hget
      rw [Sessions.get?_insert] at hget
      -- Nothing makes ids fresh: a session that has the id already stays the one that is found.
      cases hold : s.sessions.get? id with
      | some old =>
        rw [hold, Option.some_or, Option.some.injEq] at hget
        exact hget ▸ hs id old hold
      | none =>
        rw [hold, Option.none_or] at hget
        split at hget
        · cases hget
          exact ⟨rfl, htemplate⟩
        · cases hget
  | destroySession message =>
    cases h with
    | handled hhandle =>
      simp only [handle, destroySession, Option.some.injEq, Prod.mk.injEq] at hhandle
      intro id session hget
      rw [← hhandle.1] at hget
      split at hget
      · exact hs id session hget
      · rw [Sessions.get?_erase] at hget
        split at hget
        · cases hget
        · exact hs id session hget

/-- What holds of the machine that sessions start with, and stays true when a program is executed
on it, holds of the machine of every session; and no session is stopped. -/
theorem Reachable.sound {P : Machine → Prop} (hP : Lasting P) (htemplate : P template)
    (h : Reachable cap template s) : s.Sound P := by
  induction h with
  | start =>
    intro id session hget
    cases hget
  | answer hreachable hanswers ih =>
    apply ih.answers hP _ hanswers
    rw [hreachable.configuration.2]
    exact htemplate

/-- Executing a program registers no instruction. -/
theorem lasting_registry (r : Registry) : Lasting fun m => m.registry = r := by
  intro fuel context limit m request state work hm _
  exact hm

theorem Reachable.registry (h : Reachable cap template s) :
    s.Sound fun m => m.registry = template.registry :=
  h.sound (lasting_registry _) rfl

end Invariants

/-- The machine that a request to run a program is for. -/
def machineFor? (s : Service) (request : RunRequest) : Option Machine :=
  match named request.sessionId with
  | none => some .new
  | some id => (s.sessions.get? id).map (·.machine)

/-- The service when the machine of a session has come to a state; a machine of the request's own
is dropped. -/
def keep (s : Service) (id : Bytes) (state : State) : Service :=
  match named id with
  | none => s
  | some id => { s with sessions := s.sessions.setState id state }

theorem get?_keep (s : Service) (id : Bytes) (state : State) (other : Bytes) :
    (s.keep id state).sessions.get? other =
      if named id = some other then
        (s.sessions.get? other).map fun session =>
          { session with machine := { session.machine with state } }
      else s.sessions.get? other := by
  rw [keep]
  cases named id with
  | none => rfl
  | some found => simp [Sessions.get?_setState]

/-- A request that is not refused is executed on its machine. -/
theorem Sound.run_eq {P : Machine → Prop} {s : Service} (hs : s.Sound P) {request : RunRequest}
    {m : Machine} (hrefusal : refusal? request = none) (hm : s.machineFor? request = some m)
    (fuel : Nat) (context : Context) :
    s.run fuel context request =
      (execute fuel context (effectiveLimit s.stepCap request.maxSteps.toInt) m request).map
        fun (state, work) => (s.keep request.sessionId state, .ok work.response) := by
  cases hid : named request.sessionId with
  | none =>
    simp only [machineFor?, hid, Option.some.injEq] at hm
    subst hm
    simp only [run_alone hrefusal hid, keep, hid]
  | some id =>
    simp only [machineFor?, hid] at hm
    obtain ⟨session, hget, rfl⟩ := Option.map_eq_some_iff.mp hm
    simp only [run_on_session hrefusal hid, hget, (hs id session hget).1, Bool.false_eq_true,
      if_false, runOn_served hid, keep, hid]

end StackMachine.Service
