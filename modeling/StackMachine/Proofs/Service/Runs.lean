import StackMachine.Service.Handler

/-! Requests to run a program, by what becomes of them: they are refused, run on a machine of their
own, or run on the machine of the session that they name. -/
namespace StackMachine.Service

open Wire (RunRequest RunResponse)

/-- The session that is named by an id; the empty id names none. -/
def named (id : Bytes) : Option Bytes :=
  if id.isEmpty then none else some id

theorem named_eq_some_iff {id other : Bytes} : named other = some id ↔ other = id ∧ id ≠ [] := by
  unfold named
  cases other with
  | nil =>
    constructor
    · rintro ⟨⟩
    · rintro ⟨rfl, h⟩
      exact absurd rfl h
  | cons b rest =>
    constructor
    · rintro ⟨⟩
      exact ⟨rfl, List.cons_ne_nil b rest⟩
    · rintro ⟨rfl, -⟩
      rfl

theorem named_eq_none_iff {id : Bytes} : named id = none ↔ id.isEmpty = true := by
  simp [named]

/-- Why a request to run a program is refused whatever the service: there is no program, or the
budget is negative. -/
def refusal? (request : RunRequest) : Option Refusal :=
  if request.source.isEmpty ∧ (request.code.getD []).isEmpty then some .programMissing
  else if request.maxSteps < 0 then some .negativeBudget
  else none

variable {fuel : Nat} {context : Context} {s : Service} {request : RunRequest} {wait : Wait}
  {id : Bytes}

theorem run_of_refused {refusal : Refusal} (h : refusal? request = some refusal) :
    s.run fuel context request wait = some (s, .error refusal) := by
  unfold refusal? at h
  unfold run
  split at h
  · rename_i hmissing
    cases h
    rw [if_pos hmissing]
  · rename_i hprogram
    rw [if_neg hprogram]
    split at h
    · rename_i hnegative
      cases h
      rw [if_pos hnegative]
    · cases h

/-- What is told of a program that was run. -/
def workOf (report : Report) : Work :=
  match report.outcome with
  | .crashed message => .crashed message
  | _ => .done (responseOf report)

theorem execute_of_unassembled {m : Machine} {limit : Int} {fault : Fault}
    (h : program m.registry request = .error fault) :
    execute fuel context limit m request =
      some (restore m.state (prepare m.state request),
        .done (unassembled (prepare m.state request) fault)) := by
  simp only [execute, h]

theorem execute_of_program {m : Machine} {limit : Int} {code : Code}
    (h : program m.registry request = .ok code) :
    execute fuel context limit m request =
      (Budget.run fuel context limit m.registry code (prepare m.state request)).map fun report =>
        (restore m.state report.state, workOf report) := by
  simp only [execute, h]
  cases Budget.run fuel context limit m.registry code (prepare m.state request) <;> rfl

private theorem of_refusal?_eq_none (h : refusal? request = none) :
    ¬ (request.source.isEmpty ∧ (request.code.getD []).isEmpty) ∧ ¬ request.maxSteps < 0 := by
  unfold refusal? at h
  split at h
  · cases h
  · split at h
    · cases h
    · exact ⟨‹_›, ‹_›⟩

/-- A run without a session is executed on a new machine, which is dropped. -/
theorem run_alone (h : refusal? request = none) (hid : named request.sessionId = none) :
    s.run fuel context request wait =
      (execute fuel context (effectiveLimit s.stepCap request.maxSteps.toInt) .new request).map
        fun (_, work) => (s, .ok work.response) := by
  obtain ⟨hprogram, hbudget⟩ := of_refusal?_eq_none h
  rw [named_eq_none_iff] at hid
  simp only [run, if_neg hprogram, if_neg hbudget, hid, if_true]

/-- A run on a session: the session may be missing or stopped, or the client leaves before its turn;
otherwise the run is executed on the session's machine, which is left in the state that it
reaches. -/
theorem run_on_session (h : refusal? request = none) (hid : named request.sessionId = some id) :
    s.run fuel context request wait =
      match s.sessions.get? id with
      | none => some (s, .error (.unknownSession id))
      | some session =>
        if session.stopped then some (s, .ok (failedWork Machine.stoppedMessage))
        else runOn fuel context s session request wait := by
  obtain ⟨hprogram, hbudget⟩ := of_refusal?_eq_none h
  obtain ⟨rfl, hne⟩ := named_eq_some_iff.mp hid
  have hsession : ¬ request.sessionId.isEmpty = true := by simpa using hne
  cases hget : s.sessions.get? request.sessionId with
  | none => simp only [run, if_neg hprogram, if_neg hbudget, if_neg hsession, hget]
  | some session => simp only [run, if_neg hprogram, if_neg hbudget, if_neg hsession, hget]

/-- A client that stays is answered when the machine has done its work. -/
theorem runOn_served (hid : named request.sessionId = some id) (session : Session) :
    runOn fuel context s session request .served =
      (execute fuel context (effectiveLimit s.stepCap request.maxSteps.toInt) session.machine
        request).map fun (state, work) =>
          ({ s with sessions := s.sessions.setState id state }, .ok work.response) := by
  obtain ⟨rfl, -⟩ := named_eq_some_iff.mp hid
  rfl

/-- The ways in which a request to run a program can be served: it is refused, it is executed on a
machine of its own, or it names a session, which may be missing or stopped, be left before its turn,
or have the program executed on its machine. -/
inductive Ran (fuel : Nat) (context : Context) (s : Service) (request : RunRequest) (wait : Wait) :
    Service → Except Refusal RunResponse → Prop where
  | refused {refusal : Refusal} : refusal? request = some refusal →
      Ran fuel context s request wait s (.error refusal)
  | alone {state : State} {work : Work} :
      refusal? request = none → named request.sessionId = none →
      execute fuel context (effectiveLimit s.stepCap request.maxSteps.toInt) .new request =
        some (state, work) →
      Ran fuel context s request wait s (.ok work.response)
  | missing {id : Bytes} : refusal? request = none → named request.sessionId = some id →
      s.sessions.get? id = none → Ran fuel context s request wait s (.error (.unknownSession id))
  | stopped {id : Bytes} {session : Session} :
      refusal? request = none → named request.sessionId = some id →
      s.sessions.get? id = some session → session.stopped = true →
      Ran fuel context s request wait s (.ok (failedWork Machine.stoppedMessage))
  | unbegun {id : Bytes} {session : Session} {why : Interruption} :
      refusal? request = none → named request.sessionId = some id →
      s.sessions.get? id = some session → session.stopped = false → wait = .left why false →
      Ran fuel context s request wait s (.ok (abandoned why))
  | continued {id : Bytes} {session : Session} {state : State} {work : Work} :
      refusal? request = none → named request.sessionId = some id →
      s.sessions.get? id = some session → session.stopped = false →
      execute fuel context (effectiveLimit s.stepCap request.maxSteps.toInt) session.machine request =
        some (state, work) →
      Ran fuel context s request wait { s with sessions := s.sessions.setState id state }
        (.ok (wait.response work))

theorem ran_of_runOn {session : Session} {after : Service} {answer : Except Refusal RunResponse}
    (hrefusal : refusal? request = none) (hid : named request.sessionId = some id)
    (hget : s.sessions.get? id = some session) (hrunning : session.stopped = false)
    (h : runOn fuel context s session request wait = some (after, answer)) :
    Ran fuel context s request wait after answer := by
  obtain ⟨rfl, -⟩ := named_eq_some_iff.mp hid
  unfold runOn at h
  split at h
  · cases h
    exact .unbegun hrefusal hid hget hrunning rfl
  · obtain ⟨⟨state, work⟩, hexecute, heq⟩ := Option.map_eq_some_iff.mp h
    cases heq
    exact .continued hrefusal hid hget hrunning hexecute

theorem ran_of_run {after : Service} {answer : Except Refusal RunResponse}
    (h : s.run fuel context request wait = some (after, answer)) :
    Ran fuel context s request wait after answer := by
  cases hrefusal : refusal? request with
  | some refusal =>
    rw [run_of_refused hrefusal] at h
    cases h
    exact .refused hrefusal
  | none =>
    cases hid : named request.sessionId with
    | none =>
      rw [run_alone hrefusal hid] at h
      obtain ⟨⟨state, work⟩, hexecute, heq⟩ := Option.map_eq_some_iff.mp h
      cases heq
      exact .alone hrefusal hid hexecute
    | some id =>
      rw [run_on_session hrefusal hid] at h
      cases hget : s.sessions.get? id with
      | none =>
        simp only [hget] at h
        cases h
        exact .missing hrefusal hid hget
      | some session =>
        simp only [hget] at h
        cases hstopped : session.stopped with
        | true =>
          rw [if_pos hstopped] at h
          cases h
          exact .stopped hrefusal hid hget hstopped
        | false =>
          rw [if_neg (by simp [hstopped])] at h
          exact ran_of_runOn hrefusal hid hget hstopped h

/-- Unless the client leaves before the machine begins, the service is left as it is by a client that
stays. -/
theorem unbegun_or_run_served {after : Service} {reply : Except Refusal RunResponse}
    (h : s.run fuel context request wait = some (after, reply)) :
    (∃ why, wait = .left why false) ∧ after = s ∨
      ∃ told, s.run fuel context request = some (after, told) := by
  cases ran_of_run h with
  | refused hrefusal => exact .inr ⟨_, run_of_refused hrefusal⟩
  | alone hrefusal hid hexecute =>
    exact .inr ⟨_, by rw [run_alone hrefusal hid, hexecute]; rfl⟩
  | missing hrefusal hid hget =>
    exact .inr ⟨_, by rw [run_on_session hrefusal hid, hget]⟩
  | stopped hrefusal hid hget hstopped =>
    exact .inr ⟨_, by rw [run_on_session hrefusal hid, hget]; exact if_pos hstopped⟩
  | unbegun _ _ _ _ hwait => exact .inl ⟨⟨_, hwait⟩, rfl⟩
  | @continued _ session _ work hrefusal hid hget hrunning hexecute =>
    refine .inr ⟨.ok work.response, ?_⟩
    rw [run_on_session hrefusal hid, hget]
    simp only [hrunning, Bool.false_eq_true, if_false, runOn_served hid, hexecute, Option.map_some]

/-- Requests are served one after the other. -/
theorem handleAll_cons_eq_some_iff {fresh : Bytes} {next : Request}
    {rest : List (Bytes × Request)} {last : Service} {answers : List Answer} :
    handleAll fuel s ((fresh, next) :: rest) = some (last, answers) ↔
      ∃ t answer more, s.handle fuel fresh next = some (t, answer) ∧
        handleAll fuel t rest = some (last, more) ∧ answers = answer :: more := by
  rw [handleAll]
  cases s.handle fuel fresh next with
  | none => simp
  | some result =>
    obtain ⟨t, answer⟩ := result
    simp only [Option.some.injEq, Prod.mk.injEq]
    cases hmore : handleAll fuel t rest with
    | none =>
      constructor
      · rintro ⟨⟩
      · rintro ⟨_, _, more, ⟨rfl, -⟩, hsome, -⟩
        rw [hmore] at hsome
        cases hsome
    | some result =>
      obtain ⟨_, more⟩ := result
      constructor
      · rintro ⟨⟩
        exact ⟨t, answer, more, ⟨rfl, rfl⟩, hmore, rfl⟩
      · rintro ⟨_, _, _, ⟨rfl, rfl⟩, hsome, rfl⟩
        rw [hmore] at hsome
        cases hsome
        rfl

end StackMachine.Service
