import StackMachine.Editor.Assistance
import StackMachine.Proofs.Text.Fields

/-! Line endings. A text keeps its lines when carriage returns are put before its newlines, so
neither assembly nor the editor can tell the two texts apart. -/
namespace StackMachine

namespace Bytes

theorem occurs_iff_infix {part text : Bytes} : occurs part text = true ↔ part <:+: text := by
  induction text with
  | nil => simp [occurs]
  | cons b rest ih =>
    rw [occurs, Bool.or_eq_true, List.isPrefixOf_iff_prefix, ih, List.infix_cons_iff]

theorem replaceAll_singleton (byte : UInt8) (new text : Bytes) :
    replaceAll [byte] new text = text.flatMap fun b => if b = byte then new else [b] := by
  rw [replaceAll]
  induction text with
  | nil => rfl
  | cons b rest ih =>
    rw [replaceAll.go, List.flatMap_cons]
    by_cases hb : b = byte
    · simp [hb, ih]
    · simp [hb, Ne.symm hb, ih]

/-- The text with a carriage return before every newline. -/
def withReturns (text : Bytes) : Bytes :=
  replaceAll [newline] [carriageReturn, newline] text

theorem withReturns_append (s t : Bytes) :
    withReturns (s ++ t) = withReturns s ++ withReturns t := by
  simp only [withReturns, replaceAll_singleton, List.flatMap_append]

theorem withReturns_of_not_mem {p : Bytes} (hp : newline ∉ p) : withReturns p = p := by
  induction p with
  | nil => rfl
  | cons b rest ih =>
    rw [List.mem_cons, not_or] at hp
    obtain ⟨hb, hrest⟩ := hp
    have hfirst : withReturns [b] = [b] := by
      rw [withReturns, replaceAll_singleton]
      simp [Ne.symm hb]
    rw [← List.singleton_append, withReturns_append, hfirst, ih hrest]

/-- A line gets its carriage return at its end. -/
theorem withReturns_append_cons {p : Bytes} (hp : newline ∉ p) (rest : Bytes) :
    withReturns (p ++ newline :: rest) =
      (p ++ [carriageReturn]) ++ newline :: withReturns rest := by
  have hnewline : withReturns [newline] = [carriageReturn, newline] := rfl
  rw [← List.singleton_append, withReturns_append, withReturns_append, withReturns_of_not_mem hp,
    hnewline]
  simp

end Bytes

namespace Text

/-- What is left of the pieces without their final carriage returns. No piece before a newline ends
in a carriage return of its own, so it is the added one that is dropped. -/
private theorem dropFinal_pieces_withReturns {s : Bytes}
    (h : ¬ [carriageReturn, newline] <:+: s) :
    (pieces newline (Bytes.withReturns s)).map (Bytes.dropFinal carriageReturn) =
      (pieces newline s).map (Bytes.dropFinal carriageReturn) := by
  induction s using pieces_induction newline with
  | single p hp => rw [Bytes.withReturns_of_not_mem hp]
  | cons p rest hp ih =>
    have hrest : ¬ [carriageReturn, newline] <:+: rest := by
      intro hinfix
      apply h
      exact hinfix.trans ((List.suffix_cons newline rest).trans (List.suffix_append p _)).isInfix
    have hlast : p.getLast? ≠ some carriageReturn := by
      intro hreturn
      obtain ⟨q, rfl⟩ := List.getLast?_eq_some_iff.mp hreturn
      apply h
      exact ⟨q, rest, by simp⟩
    have hreturned : newline ∉ p ++ [carriageReturn] := by
      rw [List.mem_append, List.mem_singleton]
      exact fun hmem => hmem.elim hp (by decide)
    rw [Bytes.withReturns_append_cons hp, pieces_append_cons, pieces_append_cons,
      pieces_of_not_mem hreturned, pieces_of_not_mem hp, List.map_append, List.map_append, ih hrest,
      List.map_singleton, List.map_singleton, Bytes.dropFinal_concat,
      Bytes.dropFinal_of_getLast? hlast]

/-- A text whose newlines have no carriage returns before them has the same lines if they get
some. -/
theorem lines_withReturns {s : Bytes} (h : Bytes.occurs [carriageReturn, newline] s = false) :
    lines (Bytes.withReturns s) = lines s := by
  by_cases hs : s = []
  · subst hs
    rfl
  · have hne : Bytes.withReturns s ≠ [] := by
      obtain ⟨b, rest, rfl⟩ := List.exists_cons_of_ne_nil hs
      rw [Bytes.withReturns, Bytes.replaceAll_singleton, List.flatMap_cons]
      split <;> simp
    rw [lines_of_ne_nil hs, lines_of_ne_nil hne]
    apply dropFinal_pieces_withReturns
    rw [← Bytes.occurs_iff_infix, h]
    exact Bool.false_ne_true

end Text

namespace Editor

open Assembly (assemble)

/-- With and without carriage returns before its newlines a text is assembled to the same code or
rejected with the same fault. What the editor says of it is the same too: the rejected line, the
fragment and the word at every position, and the target of the jump there. -/
theorem line_endings_unnoticed {s : Bytes}
    (h : Bytes.occurs [carriageReturn, newline] s = false) :
    (∀ r, assemble r (Bytes.withReturns s) = assemble r s ∧
      diagnose r (Bytes.withReturns s) = diagnose r s) ∧
    ∀ pos, fragmentAt (Bytes.withReturns s) pos = fragmentAt s pos ∧
      wordAt (Bytes.withReturns s) pos = wordAt s pos ∧
      jumpTarget (Bytes.withReturns s) pos = jumpTarget s pos := by
  have hlines := Text.lines_withReturns h
  refine ⟨fun r => ?_, fun pos => ?_⟩
  · have hassemble : assemble r (Bytes.withReturns s) = assemble r s := by
      rw [assemble, assemble, hlines]
    refine ⟨hassemble, ?_⟩
    rw [diagnose, diagnose, hassemble]
  · have hline : lineAt (Bytes.withReturns s) pos = lineAt s pos := by
      rw [lineAt, lineAt, hlines]
    have hword : wordAt (Bytes.withReturns s) pos = wordAt s pos := by
      rw [wordAt, wordAt, hline]
    refine ⟨?_, hword, ?_⟩
    · rw [fragmentAt, fragmentAt, hline]
    · rw [jumpTarget, jumpTarget, hword, hlines]

/-- A text with a blank line that ends in a carriage return, and one with carriage returns at odd
places that is rejected in its second line. -/
theorem line_endings_unnoticed_stray :
    let jump := utf8 "JMP +1\n\n EXIT\r"
    let stray := utf8 "ADD\n\rADD\r\r"
    Bytes.occurs [carriageReturn, newline] jump = false ∧
    Bytes.occurs [carriageReturn, newline] stray = false ∧
    assemble .builtins (utf8 "JMP +1\r\n\r\n EXIT\r") = .ok [⟨9, 1⟩, ⟨2, 0⟩] ∧
    jumpTarget (utf8 "JMP +1\r\n\r\n EXIT\r") ⟨0, 80⟩ = some 2 ∧
    diagnose .builtins (utf8 "ADD\r\n\rADD\r\r") =
      [⟨1, 5, utf8 "line 2: unknown instruction: \rADD\r"⟩] := by
  intro jump stray
  have hjump : Bytes.occurs [carriageReturn, newline] jump = false := by decide
  have hstray : Bytes.occurs [carriageReturn, newline] stray = false := by decide
  obtain ⟨hassembled, hcursor⟩ := line_endings_unnoticed hjump
  obtain ⟨hrejected, -⟩ := line_endings_unnoticed hstray
  refine ⟨hjump, hstray, ?_, ?_, ?_⟩
  · exact (hassembled .builtins).1.trans rfl
  · exact (hcursor ⟨0, 80⟩).2.2.trans (by decide +kernel)
  · exact (hrejected .builtins).2.trans (by decide +kernel)

end Editor

end StackMachine
