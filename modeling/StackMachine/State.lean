import StackMachine.Diagnostics
import StackMachine.Text.Decimal
import StackMachine.Text.Tape
import StackMachine.Text.Utf8

/-! The state of one machine: counter, debug flag, operand stack, output and diagnostic stream. -/
namespace StackMachine

/-- A machine state. The stack is kept with its top first; `written` holds the output and
`reported` is the diagnostic stream. -/
structure State where
  pc : Int64 := 0
  debug : Bool := false
  stack : List Int64 := []
  written : Text.Tape := {}
  reported : Diagnostics := {}
deriving DecidableEq

namespace State

/-- Puts a value on the stack. -/
def push (s : State) (v : Int64) : State :=
  { s with stack := v :: s.stack }

/-- The top of the stack. -/
def peek? (s : State) : Option Int64 :=
  s.stack.head?

/-- The top of the stack and the state without it. -/
def pop? (s : State) : Option (Int64 × State) :=
  match s.stack with
  | [] => none
  | v :: rest => some (v, { s with stack := rest })

/-- The number of values on the stack. -/
def depth (s : State) : Nat :=
  s.stack.length

/-- The stack with its bottom first. -/
def bottomUp (s : State) : List Int64 :=
  s.stack.reverse

/-- The program's output. -/
def output (s : State) : Bytes :=
  s.written.text

/-- What was written to the present diagnostic writer. -/
def diagnostics (s : State) : Bytes :=
  s.reported.text

/-- Appends to the program's output. -/
def write (s : State) (text : Bytes) : State :=
  { s with written := s.written.append text }

/-- Appends to the diagnostic stream. -/
def report (s : State) (text : Bytes) : State :=
  { s with reported := s.reported.append text }

/-- Lets the diagnostic stream go on to another writer. -/
def setDiagnostics (s : State) (w : Option Writer) : State :=
  { s with reported := s.reported.redirect w }

@[simp]
theorem output_write (s : State) (text : Bytes) : (s.write text).output = s.output ++ text :=
  Text.Tape.text_append _ _

@[simp]
theorem diagnostics_report (s : State) (text : Bytes) :
    (s.report text).diagnostics = s.diagnostics ++ text :=
  Diagnostics.text_append _ _

/-- Clears counter, stack and output; debug flag and diagnostic stream stay. -/
def reset (s : State) : State :=
  { s with pc := 0, stack := [], written := {} }

/-- What a program that halts in this state exits with: the top of the stack, or zero. -/
def exitValue (s : State) : Int64 :=
  s.peek?.getD 0

end State

end StackMachine
