import StackMachine.Assembly
import StackMachine.Builtin
import StackMachine.Listing

/-! Machines: an instruction set and a state. A machine steps through a code until an
instruction halts, fails or breaks off; with the debug flag set it lists the code first and
traces every instruction on the diagnostic stream. -/
namespace StackMachine

/-- A machine. -/
structure Machine where
  registry : Registry
  state : State := {}

/-- What one step came to. -/
inductive Signal where
  | more
  | halted
  | failed (fault : Fault)
  | crashed (message : Bytes)

/-- The result of one step. -/
structure StepResult where
  state : State
  signal : Signal
  cancels : Bool := false

/-- How a run ended. -/
inductive Outcome where
  /-- An instruction halted it. -/
  | halted
  /-- It failed. -/
  | failed (fault : Fault)
  /-- An instruction broke off, and nothing was returned. -/
  | crashed (message : Bytes)

/-- A finished run: the state reached, the exit value and the output that were returned, and how
it ended. -/
structure Finish where
  state : State
  exit : Int64 := 0
  output : Bytes := []
  outcome : Outcome

namespace Machine

/-- What is said of work for a machine that has been stopped. -/
def stoppedMessage : Bytes := utf8 "vm worker stopped"

/-- The built-in instruction set in its initial state. -/
def new : Machine :=
  { registry := Registry.builtins }

/-- The trace line of an instruction about to be executed. -/
def traceLine (r : Registry) (i : Instruction) (pc : Int64) : Bytes :=
  utf8 "-- exec " ++ r.nameOf i.op ++ utf8 " arg=" ++ Text.Decimal.ofInt64 i.arg ++
    utf8 " at pc=" ++ Text.Decimal.ofInt64 pc ++ [newline]

/-- What announces a traced run. -/
def banner (r : Registry) (code : Code) : Bytes :=
  let listing := Listing.fromIndex Listing.plainLine r 0 code
  utf8 "=== running vm ======================\n" ++ utf8 "disassembly of run code:\n" ++
    listing.text ++
    (if listing.fault.isPresent then
      utf8 "could not disassemble - op_id unknown...\n" ++ utf8 "turning off debug mode.\n"
    else []) ++
    utf8 "=== end of disassembly\n\n"

/-- With the debug flag set, writes the listing of the code to the diagnostic stream; a code
that cannot be listed turns the flag off. -/
def announce (r : Registry) (code : Code) (s : State) : State :=
  if s.debug then
    let listable := code.all fun i => (r.describe i.op).isSome
    { s.report (banner r code) with debug := listable }
  else s

/-- Executes the instruction at the counter. The counter is advanced before the instruction
runs, so that the instruction may set it. -/
def step (r : Registry) (code : Code) (s : State) : StepResult :=
  match code.fetch? s.pc with
  | none => { state := s, signal := .failed (.runtime (.kind .counterOutOfBounds) s.pc 0 []) }
  | some i =>
    let traced := if s.debug then s.report (traceLine r i s.pc) else s
    let advanced := { traced with pc := s.pc + 1 }
    match r.entry? i.op with
    | none =>
      { state := advanced, signal := .failed (.runtime (.kind .unknownOpcode) s.pc i.op []) }
    | some e =>
      let reaction := e.behavior advanced i.arg
      let signal : Signal :=
        match reaction.verdict with
        | .proceed => .more
        | .halt => .halted
        | .fail fault _ => .failed (.runtime fault s.pc i.op e.mnemonic)
        | .crash message => .crashed message
      { state := reaction.state, signal, cancels := reaction.cancels }

/-- Steps until the run ends; `none` if the fuel runs out before. What it returns is filled in where
it ends. -/
def runFrom (r : Registry) (code : Code) : Nat → State → Option Finish
  | 0, _ => none
  | fuel + 1, s =>
    let result := step r code s
    match result.signal with
    | .more => runFrom r code fuel result.state
    | .halted =>
      some { state := result.state, exit := result.state.exitValue, output := result.state.output,
             outcome := .halted }
    | .failed fault =>
      some { state := result.state, output := result.state.output, outcome := .failed fault }
    | .crashed message => some { state := result.state, outcome := .crashed message }

/-- Runs a code from the current counter; `none` if the fuel runs out before it ends. -/
def run (fuel : Nat) (r : Registry) (code : Code) (s : State) : Option Finish :=
  runFrom r code fuel (announce r code s)

end Machine

end StackMachine
