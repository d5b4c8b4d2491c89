import StackMachine.Text.Bytes

/-! Diagnostic streams. A machine tells what it does to a writer that may be replaced; what was
written is kept for every writer. -/
namespace StackMachine

/-- What a diagnostic stream can go to. -/
inductive Writer where
  /-- The one that is used where none is given. -/
  | standard
  /-- The buffer that a run on a service has for itself. -/
  | buffer
  /-- Any other. -/
  | other (id : Nat)
deriving DecidableEq

/-- A diagnostic stream: the writer that it goes to now, and what went to any writer so far, byte
by byte and last first. -/
structure Diagnostics where
  writer : Writer := .standard
  reversed : List (Writer × UInt8) := []
deriving DecidableEq

namespace Diagnostics

/-- Writes a text to the present writer. -/
def append (d : Diagnostics) (text : Bytes) : Diagnostics :=
  { d with reversed := (text.map fun b => (d.writer, b)).reverseAux d.reversed }

/-- What was written to a writer. -/
def textOf (d : Diagnostics) (w : Writer) : Bytes :=
  ((d.reversed.filter fun (v, _) => v == w).map (·.2)).reverse

/-- What was written to the present writer. -/
def text (d : Diagnostics) : Bytes :=
  d.textOf d.writer

/-- The stream goes on to another writer; where none is given, to the standard one. -/
def redirect (d : Diagnostics) (w : Option Writer) : Diagnostics :=
  { d with writer := w.getD .standard }

/-- The stream as it was before a run with a buffer of its own, with what the run wrote elsewhere. -/
def resume (before after : Diagnostics) : Diagnostics where
  writer := before.writer
  reversed := (after.reversed.filter fun (v, _) => v != .buffer) ++ before.reversed

@[simp]
theorem writer_append (d : Diagnostics) (text : Bytes) : (d.append text).writer = d.writer :=
  rfl

theorem textOf_append (d : Diagnostics) (more : Bytes) (w : Writer) :
    (d.append more).textOf w = d.textOf w ++ if d.writer = w then more else [] := by
  unfold append textOf
  by_cases h : d.writer = w
  · simp [List.reverseAux_eq, List.filter_map, Function.comp_def, h]
  · simp [List.reverseAux_eq, List.filter_map, Function.comp_def, h]

@[simp]
theorem text_append (d : Diagnostics) (more : Bytes) : (d.append more).text = d.text ++ more := by
  rw [text, textOf_append, writer_append, if_pos rfl, text]

theorem append_append (d : Diagnostics) (first second : Bytes) :
    (d.append first).append second = d.append (first ++ second) := by
  simp [append, List.reverseAux_eq]

end Diagnostics

end StackMachine
