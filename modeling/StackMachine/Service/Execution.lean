import StackMachine.Assembly
import StackMachine.Budget
import StackMachine.Wire.Message

/-! Running a requested program on a machine. A run has its own debug flag, and its diagnostics go
to a buffer of its own; the machine has its flag and its writer back afterwards, however the run
ended. -/
namespace StackMachine.Service

open Wire (RunRequest RunResponse)

/-- What a run on a machine comes to. -/
inductive Work where
  | done (response : RunResponse)
  | crashed (message : Bytes)

/-- The limit of a run: the smaller of the positive ones among the service's cap and the
request; zero is no limit. -/
def effectiveLimit (cap requested : Int) : Int :=
  if cap = 0 then requested
  else if requested = 0 ∨ cap < requested then cap
  else requested

/-- The response with the fault described in its error fields. -/
def describe (response : RunResponse) (fault : Fault) : RunResponse :=
  { response with
    error := fault.message
    errorClass := fault.classify.name
    line := Int64.ofInt fault.line }

/-- The response to a program that does not assemble. -/
def unassembled (s : State) (fault : Fault) : RunResponse :=
  describe { stack := some s.bottomUp, pc := s.pc } fault

/-- The response to a run that ended. -/
def responseOf (report : Report) : RunResponse :=
  let reached : RunResponse :=
    { exit := report.exit
      output := report.output
      diagnostics := report.state.reported.textOf .buffer
      steps := Int64.ofNat report.steps
      stack := some report.state.bottomUp
      pc := report.state.pc }
  if report.fault.isPresent then describe reached report.fault else reached

/-- The code to run: the assembled source, or the given code if there is no source. -/
def program (r : Registry) (request : RunRequest) : Except Fault Code :=
  if request.source.isEmpty then .ok (request.code.getD [])
  else Assembly.assemble r request.source

/-- The state that a request starts from: with a buffer that is still empty. -/
def prepare (s : State) (request : RunRequest) : State :=
  let own := { s with debug := request.debug, reported := { writer := .buffer } }
  if request.reset then own.reset else own

/-- The state after a run, with debug flag and diagnostic writer as before it. What an instruction
wrote to a writer that it brought with it has been written. -/
def restore (before after : State) : State :=
  { after with debug := before.debug, reported := before.reported.resume after.reported }

/-- Runs a request on a machine: the machine's state afterwards and what came of it. `none` if
the fuel runs out before the program ends. -/
def execute (fuel : Nat) (context : Context) (limit : Int) (m : Machine) (request : RunRequest) :
    Option (State × Work) :=
  let start := prepare m.state request
  match program m.registry request with
  | .error fault => some (restore m.state start, .done (unassembled start fault))
  | .ok code =>
    match Budget.run fuel context limit m.registry code start with
    | none => none
    | some report =>
      let work :=
        match report.outcome with
        | .crashed message => Work.crashed message
        | _ => Work.done (responseOf report)
      some (restore m.state report.state, work)

end StackMachine.Service
