import StackMachine.Text.Bytes

/-! Texts that grow at their end. -/
namespace StackMachine.Text

/-- A text that is written piece by piece. Its bytes are kept last first, so that writing does
not copy what is there. -/
structure Tape where
  reversed : Bytes := []
deriving DecidableEq

namespace Tape

/-- The text on the tape. -/
def text (t : Tape) : Bytes :=
  t.reversed.reverse

/-- Writes at the end of the tape. -/
def append (t : Tape) (more : Bytes) : Tape :=
  { reversed := more.reverseAux t.reversed }

@[simp]
theorem text_empty : text {} = [] :=
  rfl

@[simp]
theorem text_append (t : Tape) (more : Bytes) : (t.append more).text = t.text ++ more := by
  simp [text, append, List.reverseAux_eq]

/-- A tape is known by its text. -/
theorem eq_of_text_eq {t u : Tape} (h : t.text = u.text) : t = u := by
  cases t
  cases u
  simpa [text] using h

end Tape

end StackMachine.Text
