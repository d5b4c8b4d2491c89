import StackMachine.Code
import StackMachine.State

/-! What an instruction does: a function of the state and the operand, which says besides the
new state how the run goes on. -/
namespace StackMachine

/-- How a run goes on after an instruction. -/
inductive Verdict where
  /-- The next instruction follows. -/
  | proceed
  /-- The program ends here. -/
  | halt
  /-- The instruction failed; `more` is what it said about going on. -/
  | fail (fault : Fault) (more : Bool)
  /-- The instruction broke off without a result. -/
  | crash (message : Bytes)

/-- The result of an instruction. `cancels` asks for the surrounding run to be cancelled. -/
structure Reaction where
  state : State
  verdict : Verdict
  cancels : Bool := false

/-- The executable part of an instruction. -/
abbrev Behavior := State → Int64 → Reaction

namespace Reaction

/-- Go on in the state. -/
def proceed (s : State) : Reaction :=
  { state := s, verdict := .proceed }

/-- End in the state. -/
def halt (s : State) : Reaction :=
  { state := s, verdict := .halt }

/-- Fail in the state with a bare kind. -/
def fail (s : State) (k : Kind) : Reaction :=
  { state := s, verdict := .fail (.kind k) false }

end Reaction

end StackMachine
