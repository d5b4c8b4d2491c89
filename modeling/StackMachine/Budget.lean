import StackMachine.Machine

/-! Runs under limits: a step budget and a context that may ask the run to stop. -/
namespace StackMachine

/-- Why a context asks a run to stop. -/
inductive Interruption where
  | canceled
  | deadlineExceeded
deriving DecidableEq

/-- The fault that an interrupted run reports. -/
def Interruption.fault : Interruption → Fault
  | .canceled => .kind .canceled
  | .deadlineExceeded => .kind .deadlineExceeded

/-- What the caller's context says after a number of steps. -/
abbrev Context := Nat → Option Interruption

namespace Context

/-- A context that never asks. -/
def live : Context := fun _ => none

/-- A context that asked before the run. -/
def done (why : Interruption) : Context := fun _ => some why

end Context

/-- A finished run under limits: the state reached, what was returned (the exit value, the output
and the number of steps), and how it ended. -/
structure Report where
  state : State
  exit : Int64 := 0
  output : Bytes := []
  steps : Nat := 0
  outcome : Outcome

namespace Report

/-- The fault that the run reports. -/
def fault (r : Report) : Fault :=
  match r.outcome with
  | .failed fault => fault
  | _ => .absent

end Report

namespace Budget

/-- The fault of a run that used up its budget. -/
def exhausted (steps : Nat) : Fault :=
  .wrapped (Kind.message .budgetExhausted ++ utf8 " after " ++ Text.Decimal.ofNat steps ++
    utf8 " steps") (.kind .budgetExhausted)

/-- Steps until the run ends, the context asks to stop or the budget is used up, asking the
context first; a budget that is not positive is no limit. `canceled` tells whether an
instruction has cancelled the run. `none` if the fuel runs out before. -/
def runFrom (context : Context) (maxSteps : Int) (r : Registry) (code : Code) :
    Nat → Nat → Bool → State → Option Report
  | 0, _, _, _ => none
  | fuel + 1, steps, canceled, s =>
    match context steps, canceled with
    | some why, _ =>
      some { state := s, output := s.output, steps, outcome := .failed why.fault }
    | none, true =>
      some { state := s, output := s.output, steps,
             outcome := .failed (Interruption.fault .canceled) }
    | none, false =>
      if 0 < maxSteps ∧ maxSteps ≤ steps then
        some { state := s, output := s.output, steps, outcome := .failed (exhausted steps) }
      else
        let result := Machine.step r code s
        match result.signal with
        | .more => runFrom context maxSteps r code fuel (steps + 1) result.cancels result.state
        | .halted =>
          some { state := result.state, exit := result.state.exitValue,
                 output := result.state.output, steps := steps + 1, outcome := .halted }
        | .failed fault =>
          some { state := result.state, output := result.state.output, steps := steps + 1,
                 outcome := .failed fault }
        | .crashed message =>
          some { state := result.state, steps := steps + 1, outcome := .crashed message }

/-- Runs a code as a machine does, within limits. -/
def run (fuel : Nat) (context : Context) (maxSteps : Int) (r : Registry) (code : Code)
    (s : State) : Option Report :=
  runFrom context maxSteps r code fuel 0 false (Machine.announce r code s)

end Budget

end StackMachine
