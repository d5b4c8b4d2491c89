import StackMachine.Proofs.Service.Runs
import StackMachine.Proofs.Service.Sessions

/-! Sessions over many runs. Debug flag and diagnostic writer of a session's machine are after
every run what they were when the session was opened, and a run that clears the machine first
comes to what it would have come to as the first one. -/
namespace StackMachine.Service

open Wire (RunRequest CreateSessionRequest)

/-- The state of a session's machine. -/
def stateOf (s : Service) (id : Bytes) : Option State :=
  (s.sessions.get? id).map (·.machine.state)

section Executing

variable {fuel : Nat} {context : Context} {limit : Int} {request : RunRequest}

/-- A machine that is cleared first starts from a state that tells nothing of the one before. -/
theorem prepare_of_reset (hreset : request.reset = true) (s t : State) :
    prepare s request = prepare t request := by
  simp [prepare, hreset, State.reset]

/-- A run leaves debug flag and diagnostic writer of the machine as they were, however it ends. -/
theorem execute_restores {m : Machine} {state : State} {work : Work}
    (h : execute fuel context limit m request = some (state, work)) :
    state.debug = m.state.debug ∧ state.reported.writer = m.state.reported.writer := by
  cases hprogram : program m.registry request with
  | error fault =>
    rw [execute_of_unassembled hprogram] at h
    cases h
    exact ⟨rfl, rfl⟩
  | ok code =>
    rw [execute_of_program hprogram] at h
    obtain ⟨report, -, heq⟩ := Option.map_eq_some_iff.mp h
    cases heq
    exact ⟨rfl, rfl⟩

/-- Where a program that clears the machine first ends, and what comes of it, before the machine has
its debug flag and its diagnostic writer back. -/
def executeCleared (fuel : Nat) (context : Context) (limit : Int) (r : Registry)
    (request : RunRequest) : Option (State × Work) :=
  let start := prepare {} request
  match program r request with
  | .error fault => some (start, .done (unassembled start fault))
  | .ok code =>
    (Budget.run fuel context limit r code start).map fun report => (report.state, workOf report)

/-- A run that clears the machine first depends on its instructions only, but for the debug flag and
the diagnostic stream that the machine has back afterwards. -/
theorem execute_of_reset (hreset : request.reset = true) (m : Machine) :
    execute fuel context limit m request =
      (executeCleared fuel context limit m.registry request).map fun (reached, work) =>
        (restore m.state reached, work) := by
  unfold executeCleared
  cases hprogram : program m.registry request with
  | error fault =>
    rw [execute_of_unassembled hprogram, prepare_of_reset hreset m.state {}]
    rfl
  | ok code =>
    rw [execute_of_program hprogram, prepare_of_reset hreset m.state {}]
    simp only [Option.map_map]
    rfl

end Executing

/-- The session runs and has its machine from `template`, of which runs have changed at most
counter, stack and output, and what has been written to the diagnostic writers. -/
structure Session.Continues (template : Machine) (session : Session) : Prop where
  running : session.stopped = false
  registry : session.machine.registry = template.registry
  debug : session.machine.state.debug = template.state.debug
  writer : session.machine.state.reported.writer = template.state.reported.writer

/-- The service has a session under the id that continues from `template`. -/
def Holds (s : Service) (id : Bytes) (template : Machine) : Prop :=
  ∃ session, s.sessions.get? id = some session ∧ session.Continues template

section Sessions

variable {fuel : Nat} {context : Context} {id : Bytes} {s after : Service} {template : Machine}
  {request : RunRequest}

theorem holds_createSession (hunused : s.sessions.get? id = none) (message : CreateSessionRequest) :
    (createSession id s message).1.Holds id s.template := by
  refine ⟨{ id, name := message.name, machine := s.template }, ?_, rfl, rfl, rfl, rfl⟩
  simp [createSession, Sessions.get?_insert, hunused]

theorem stateOf_createSession (hunused : s.sessions.get? id = none) (message : CreateSessionRequest) :
    (createSession id s message).1.stateOf id = some s.template.state := by
  simp [stateOf, createSession, Sessions.get?_insert, hunused]

/-- A run on a session that runs is executed on its machine. -/
theorem run_of_running {session : Session} (hget : s.sessions.get? id = some session)
    (hrunning : session.stopped = false) (hid : named request.sessionId = some id)
    (haccepted : refusal? request = none) :
    s.run fuel context request =
      (execute fuel context (effectiveLimit s.stepCap request.maxSteps.toInt) session.machine
        request).map fun (state, work) =>
          ({ s with sessions := s.sessions.setState id state }, .ok work.response) := by
  rw [run_on_session haccepted hid, hget]
  simp only [hrunning, Bool.false_eq_true, if_false]
  exact runOn_served hid session

theorem stateOf_setState {session : Session} (hget : s.sessions.get? id = some session)
    (state : State) :
    stateOf { s with sessions := s.sessions.setState id state } id = some state := by
  rw [stateOf, Sessions.get?_setState, if_pos rfl, hget]
  rfl

/-- A run keeps the cap of the service and the session that it names. -/
theorem holds_run (hholds : s.Holds id template) (hid : named request.sessionId = some id)
    {answer : Except Refusal Wire.RunResponse}
    (h : s.run fuel context request = some (after, answer)) :
    after.stepCap = s.stepCap ∧ after.Holds id template := by
  cases hrefusal : refusal? request with
  | some refusal =>
    rw [run_of_refused hrefusal] at h
    cases h
    exact ⟨rfl, hholds⟩
  | none =>
    have ⟨session, hget, hsession⟩ := hholds
    rw [run_of_running hget hsession.running hid hrefusal] at h
    obtain ⟨⟨state, work⟩, hexecute, heq⟩ := Option.map_eq_some_iff.mp h
    cases heq
    obtain ⟨hdebug, hwriter⟩ := execute_restores hexecute
    refine ⟨rfl, { session with machine := { session.machine with state } }, ?_,
      hsession.running, hsession.registry, hdebug.trans hsession.debug,
      hwriter.trans hsession.writer⟩
    rw [Sessions.get?_setState, if_pos rfl, hget]
    rfl

/-- Runs keep the cap of the service and the session that they name. -/
theorem holds_handleAll (hid : id ≠ []) {history : List RunRequest}
    (hhistory : ∀ q ∈ history, q.sessionId = id) (hholds : s.Holds id template)
    {answers : List Answer}
    (h : handleAll fuel s (history.map fun q => ([], .run q)) = some (after, answers)) :
    after.stepCap = s.stepCap ∧ after.Holds id template := by
  induction history generalizing s answers with
  | nil =>
    cases h
    exact ⟨rfl, hholds⟩
  | cons q rest ih =>
    obtain ⟨hq, hrest⟩ := List.forall_mem_cons.mp hhistory
    obtain ⟨next, _, _, hhandle, hmore, -⟩ := handleAll_cons_eq_some_iff.mp h
    obtain ⟨⟨_, answer⟩, hrun, heq⟩ := Option.map_eq_some_iff.mp hhandle
    cases heq
    obtain ⟨hcap, hnext⟩ := holds_run hholds (named_eq_some_iff.mpr ⟨hq, hid⟩) hrun
    obtain ⟨hcap', hholds'⟩ := ih hrest hnext hmore
    exact ⟨hcap'.trans hcap, hholds'⟩

end Sessions

section Resetting

variable {fuel : Nat} {context : Context} {id other : Bytes} {s t : Service}
  {template template' : Machine} {request : RunRequest}

/-- Runs on sessions whose machines have the same instructions and debug flag come to the same if
they clear the machine first, and leave it in the same state but for its own diagnostic stream, on
which what the run wrote to other writers follows. -/
theorem run_of_reset (hreset : request.reset = true) (hcap : s.stepCap = t.stepCap)
    (hregistry : template.registry = template'.registry)
    (hdebug : template.state.debug = template'.state.debug)
    (hid : named request.sessionId = some id) (hother : named other = some other)
    (hs : s.Holds id template) (ht : t.Holds other template') :
    (s.run fuel context request).map Prod.snd =
      (t.run fuel context { request with sessionId := other }).map Prod.snd ∧
    ∀ after response, s.run fuel context request = some (after, .ok response) →
      ∃ (after' : Service) (σ before before' : State) (reached : Diagnostics),
        t.run fuel context { request with sessionId := other } = some (after', .ok response) ∧
        s.stateOf id = some before ∧ t.stateOf other = some before' ∧
        after.stateOf id = some { σ with reported := before.reported.resume reached } ∧
        after'.stateOf other = some { σ with reported := before'.reported.resume reached } := by
  have hsame : refusal? { request with sessionId := other } = refusal? request := rfl
  cases hrefusal : refusal? request with
  | some refusal =>
    rw [run_of_refused hrefusal, run_of_refused (hsame.trans hrefusal)]
    refine ⟨rfl, fun after response h => ?_⟩
    cases h
  | none =>
    have ⟨a, hgeta, ha⟩ := hs
    have ⟨b, hgetb, hb⟩ := ht
    have hinstructions : b.machine.registry = a.machine.registry :=
      hb.registry.trans (hregistry.symm.trans ha.registry.symm)
    have hflag : b.machine.state.debug = a.machine.state.debug :=
      hb.debug.trans (hdebug.symm.trans ha.debug.symm)
    -- The session that a request names plays no part in its execution.
    have hrun : t.run fuel context { request with sessionId := other } =
        (execute fuel context (effectiveLimit t.stepCap request.maxSteps.toInt) b.machine
          request).map fun (state, work) =>
            ({ t with sessions := t.sessions.setState other state }, .ok work.response) :=
      run_of_running hgetb hb.running hother (hsame.trans hrefusal)
    rw [run_of_running hgeta ha.running hid hrefusal, hrun, execute_of_reset hreset,
      execute_of_reset hreset, hinstructions, hcap]
    cases executeCleared fuel context (effectiveLimit t.stepCap request.maxSteps.toInt)
        a.machine.registry request with
    | none =>
      refine ⟨rfl, fun after response h => ?_⟩
      cases h
    | some result =>
      obtain ⟨reached, work⟩ := result
      refine ⟨rfl, fun after response h => ?_⟩
      cases h
      refine ⟨_, { reached with debug := a.machine.state.debug }, a.machine.state, b.machine.state,
        reached.reported, rfl, ?_, ?_, stateOf_setState hgeta _, ?_⟩
      · rw [stateOf, hgeta]
        rfl
      · rw [stateOf, hgetb]
        rfl
      · rw [← hflag]
        exact stateOf_setState hgetb _

/-- A run that clears the machine of a session with the built-in instructions comes to what it
comes to on a machine of its own. -/
theorem run_of_reset_alone (hreset : request.reset = true) (hcap : s.stepCap = t.stepCap)
    (hregistry : template.registry = .builtins) (hid : named request.sessionId = some id)
    (hs : s.Holds id template) :
    (s.run fuel context request).map Prod.snd =
      (t.run fuel context { request with sessionId := [] }).map Prod.snd := by
  have hsame : refusal? { request with sessionId := [] } = refusal? request := rfl
  cases hrefusal : refusal? request with
  | some refusal =>
    rw [run_of_refused hrefusal, run_of_refused (hsame.trans hrefusal)]
    rfl
  | none =>
    obtain ⟨a, hgeta, ha⟩ := hs
    have hrun : t.run fuel context { request with sessionId := [] } =
        (execute fuel context (effectiveLimit t.stepCap request.maxSteps.toInt) .new request).map
          fun (_, work) => (t, .ok work.response) :=
      run_alone (hsame.trans hrefusal) rfl
    have hinstructions : a.machine.registry = .builtins := ha.registry.trans hregistry
    rw [run_of_running hgeta ha.running hid hrefusal, hrun, execute_of_reset hreset,
      execute_of_reset hreset, hinstructions, hcap]
    simp only [Option.map_map]
    rfl

/-- A run that clears its session's machine first does not depend on the runs before it. After any
runs on a session, its debug flag and diagnostic writer are what they were when it was opened. A
further run with `reset` is answered as if it were the first one of a session that has just been
opened, on any machine with the same instructions and debug flag; unless it is refused for want of
a program or for its budget, which leaves everything as it is, it leaves the machine in the same
state too, each with its own diagnostic stream, on which the same follows: what the run wrote to
writers other than its own.
With the machine that sessions have by default, it is also answered as without a session. -/
theorem reset_run_forgets_runs {fuel : Nat} {s later : Service} {id : Bytes}
    {opening : CreateSessionRequest} {history : List RunRequest} {answers : List Answer}
    (hid : id ≠ []) (hunused : s.sessions.get? id = none)
    (hhistory : ∀ q ∈ history, q.sessionId = id)
    (hlater : handleAll fuel (createSession id s opening).1
      (history.map fun q => ([], .run q)) = some (later, answers)) :
    ∃ before, later.stateOf id = some before ∧ before.debug = s.template.state.debug ∧
      before.reported.writer = s.template.state.reported.writer ∧
    ∀ request : RunRequest, request.sessionId = id → request.reset = true →
      (∀ (t : Service) (other : Bytes) (opening' : CreateSessionRequest), other ≠ [] →
        t.sessions.get? other = none → t.stepCap = s.stepCap →
        t.template.registry = s.template.registry →
        t.template.state.debug = s.template.state.debug →
        let first := (createSession other t opening').1.run fuel .live
          { request with sessionId := other }
        (later.run fuel .live request).map Prod.snd = first.map Prod.snd ∧
        ∀ after response, later.run fuel .live request = some (after, .ok response) →
          ∃ (after' : Service) (σ : State) (reached : Diagnostics),
            first = some (after', .ok response) ∧
            after'.stateOf other =
              some { σ with reported := t.template.state.reported.resume reached } ∧
            after.stateOf id = some { σ with reported := before.reported.resume reached }) ∧
      (∀ after refusal, later.run fuel .live request = some (after, .error refusal) →
        refusal? request = some refusal ∧ after = later) ∧
      (s.template = .new → ∀ t : Service, t.stepCap = s.stepCap →
        (later.run fuel .live request).map Prod.snd =
          (t.run fuel .live { request with sessionId := [] }).map Prod.snd) := by
  obtain ⟨hcap, hholds⟩ := holds_handleAll hid hhistory (holds_createSession hunused opening) hlater
  have ⟨session, hget, hsession⟩ := hholds
  have hstate : later.stateOf id = some session.machine.state := by rw [stateOf, hget]; rfl
  refine ⟨_, hstate, hsession.debug, hsession.writer, fun request hrequest hreset => ?_⟩
  have hnamed : named request.sessionId = some id := named_eq_some_iff.mpr ⟨hrequest, hid⟩
  refine ⟨?_, ?_, ?_⟩
  · intro t other opening' hother hunused' hcap' hregistry hdebug first
    obtain ⟨hanswer, hreached⟩ := run_of_reset (t := (createSession other t opening').1) hreset
      (hcap.trans hcap'.symm) hregistry.symm hdebug.symm hnamed
      (named_eq_some_iff.mpr ⟨rfl, hother⟩) hholds (holds_createSession hunused' opening')
    refine ⟨hanswer, fun after response h => ?_⟩
    obtain ⟨after', σ, before, before', reached, hfirst, hbefore, hbefore', hafter, hafter'⟩ :=
      hreached after response h
    cases hstate.symm.trans hbefore
    cases (stateOf_createSession hunused' opening').symm.trans hbefore'
    exact ⟨after', σ, reached, hfirst, hafter', hafter⟩
  · intro after refusal h
    cases hrefusal : refusal? request with
    | some found =>
      rw [run_of_refused hrefusal] at h
      cases h
      exact ⟨rfl, rfl⟩
    | none =>
      rw [run_of_running hget hsession.running hnamed hrefusal] at h
      obtain ⟨result, -, heq⟩ := Option.map_eq_some_iff.mp h
      cases heq
  · intro hdefault t hcap'
    refine run_of_reset_alone hreset (hcap.trans hcap'.symm) ?_ hnamed hholds
    rw [hdefault]
    rfl

end Resetting

/-- A service whose sessions start traced and with a value on the stack, and have an instruction
that turns tracing round, lets diagnostics go elsewhere and breaks off. -/
def shouting : Service :=
  { template :=
      { registry := Registry.builtins.append ⟨utf8 "SHOUT", fun s _ =>
          { state := { s.setDiagnostics (some (.other 1)) with debug := !s.debug }
            verdict := .crash (utf8 "boom") }⟩
        state := { debug := true, stack := [9] } } }

theorem reset_run_forgets_runs_shouting :
    let a := utf8 "a"
    let b := utf8 "b"
    let history : List RunRequest :=
      [{ source := utf8 "WRITE\nSHOUT", sessionId := a }, { source := utf8 "ADD", sessionId := a }]
    let request : RunRequest :=
      { source := utf8 "LOAD_CONST 2\nPRINT\nSHOUT", debug := true, sessionId := a, reset := true }
    ∃ later answers, handleAll 9 (createSession a shouting {}).1
        (history.map fun q => ([], .run q)) = some (later, answers) ∧
      (∃ σ, later.stateOf a = some σ ∧ σ.debug = true ∧ σ.reported.writer = .standard) ∧
      (later.run 9 .live request).map Prod.snd =
        ((createSession b shouting {}).1.run 9 .live { request with sessionId := b }).map
          Prod.snd := by
  intro a b history request
  have hsome : (handleAll 9 (createSession a shouting {}).1
      (history.map fun q => ([], .run q))).isSome = true := by decide +kernel
  obtain ⟨⟨later, answers⟩, hlater⟩ := Option.isSome_iff_exists.mp hsome
  have hhistory : ∀ q ∈ history, q.sessionId = a := by decide
  obtain ⟨σ, hσ, hdebug, hwriter, hreset⟩ :=
    reset_run_forgets_runs (by decide) rfl hhistory hlater
  exact ⟨later, answers, hlater, ⟨σ, hσ, hdebug, hwriter⟩,
    ((hreset request rfl rfl).1 shouting b {} (by decide) rfl rfl rfl rfl).1⟩

/-- A run that is refused does not clear the machine, even if it was asked to: the session goes on
where it was, unlike one that has just been opened. -/
theorem refused_reset_keeps_state :
    let a := utf8 "a"
    let opened := (createSession a {} {}).1
    let refused : RunRequest := { sessionId := a, reset := true }
    ∃ later answers after after',
      handleAll 9 opened [([], .run { source := utf8 "LOAD_CONST 5\nEXIT", sessionId := a })] =
        some (later, answers) ∧
      later.run 9 .live refused = some (after, .error .programMissing) ∧
      opened.run 9 .live refused = some (after', .error .programMissing) ∧
      after.stateOf a ≠ after'.stateOf a := by
  intro a opened refused
  have hsome : ((handleAll 9 opened
      [([], .run { source := utf8 "LOAD_CONST 5\nEXIT", sessionId := a })]).map
        fun result => result.1.stateOf a) = some (some { pc := 2, stack := [5] }) := by
    decide +kernel
  obtain ⟨⟨later, answers⟩, hlater, hstate⟩ := Option.map_eq_some_iff.mp hsome
  refine ⟨later, answers, later, opened, hlater, run_of_refused rfl, run_of_refused rfl, ?_⟩
  rw [hstate]
  decide +kernel

end StackMachine.Service
