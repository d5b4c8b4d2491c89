import StackMachine.Editor.Protocol
import StackMachine.Proofs.Assembly.Concatenation
import StackMachine.Service.Execution

/-! The rejected line that an editor shows. It is the first line that assembly rejects: the text up
to it is accepted, the text with it is rejected in the same way as the whole text, and what comes
after it makes no difference. -/
namespace StackMachine

namespace Assembly

/-- The part of a text before the newline of that number, counted from one: nothing for zero, and
all of the text if it has no such newline. -/
def beforeNewline (number : Nat) (text : Bytes) : Bytes :=
  [newline].intercalate ((text.splitOn newline).take number)

/-- The line, whose number is counted from zero, is the first that is rejected, and the fault is
what it is rejected with. -/
structure FirstRejected (r : Registry) (text : Bytes) (fault : Fault) (number : Nat)
    (line : Bytes) : Prop where
  line_eq : (Text.lines text)[number]? = some line
  accepted_before : ∃ code, assemble r (beforeNewline number text) = .ok code
  rejected_with : assemble r (beforeNewline (number + 1) text) = .error fault
  rejected_onward (other : Bytes) :
    assemble r (beforeNewline (number + 1) text ++ newline :: other) = .error fault

variable {r : Registry} {text : Bytes}

/-- The text before a newline has the lines up to there. -/
theorem sourceLines_beforeNewline (number : Nat) (text : Bytes) :
    sourceLines (beforeNewline (number + 1) text) = (sourceLines text).take (number + 1) := by
  have hfree : ∀ p ∈ (text.splitOn newline).take (number + 1), newline ∉ p := by
    intro p hp
    rw [← Text.pieces_eq_splitOn] at hp
    exact (Text.mem_pieces (List.mem_of_mem_take hp)).1
  have hne : (text.splitOn newline).take (number + 1) ≠ [] := by
    rw [ne_eq, List.take_eq_nil_iff, not_or]
    exact ⟨Nat.succ_ne_zero number, List.splitOn_ne_nil newline text⟩
  rw [sourceLines, beforeNewline, List.splitOn_intercalate newline hfree hne, List.map_take]
  rfl

/-- What stands before a newline is assembled as the lines up to there. -/
theorem assemble_beforeNewline (r : Registry) (number : Nat) (text : Bytes) :
    assemble r (beforeNewline number text) = lines r 1 ((sourceLines text).take number) := by
  cases number with
  | zero =>
    -- The empty text has one blank line and not none, and that gives no code either.
    rw [beforeNewline, List.take_zero, List.take_zero]
    rfl
  | succ number => rw [assemble_eq_lines_sourceLines, sourceLines_beforeNewline]

/-- Lines that stand for something each are accepted. -/
theorem exists_lines_eq_ok {ls : List Bytes} (h : ∀ l ∈ ls, ∃ found, Reads r (tokens l) found)
    (number : Nat) : ∃ code, lines r number ls = .ok code := by
  induction ls generalizing number with
  | nil => exact ⟨[], rfl⟩
  | cons line rest ih =>
    obtain ⟨⟨found, hline⟩, hrest⟩ := List.forall_mem_cons.mp h
    obtain ⟨tail, htail⟩ := ih hrest (number + 1)
    exact ⟨found.toList ++ tail, lines_cons_eq_ok_iff.mpr ⟨found, tail, hline, htail, rfl⟩⟩

/-- A text is rejected for the first line that is, and the fault tells that line and its number
from one. -/
theorem exists_firstRejected {fault : Fault} (h : assemble r text = .error fault) :
    ∃ number line kind mnemonic cause, FirstRejected r text fault number line ∧
      fault = .assembly (.kind kind) (number + 1 : Nat) line mnemonic cause := by
  have hne : text ≠ [] := by
    rintro rfl
    cases h
  rw [assemble_eq_lines_sourceLines] at h
  obtain ⟨before, line, after, kind, mnemonic, cause, hls, hbefore, hline, rfl⟩ :=
    lines_eq_error_iff.mp h
  have hupto : (sourceLines text).take before.length = before := by
    rw [hls, List.take_left]
  have hwith : (sourceLines text).take (before.length + 1) = before ++ [line] := by
    rw [hls, List.append_cons]
    exact List.take_left' List.length_append
  have hrejected : lines r 1 (before ++ [line]) =
      .error (.assembly (.kind kind) (before.length + 1 : Nat) line mnemonic cause) :=
    lines_eq_error_iff.mpr ⟨before, line, [], kind, mnemonic, cause, rfl, hbefore, hline, rfl⟩
  refine ⟨before.length, line, kind, mnemonic, cause, ⟨?_, ?_, ?_, fun other => ?_⟩, rfl⟩
  · rw [← sourceLines_eq_lines hne, hls, List.getElem?_append_right (Nat.le_refl _), Nat.sub_self]
    rfl
  · rw [assemble_beforeNewline, hupto]
    exact exists_lines_eq_ok hbefore 1
  · rw [assemble_beforeNewline, hwith]
    exact hrejected
  · rw [assemble_eq_lines_sourceLines, sourceLines_append, sourceLines_beforeNewline, hwith]
    exact lines_append_of_error hrejected _

end Assembly

namespace Editor

open Assembly (assemble beforeNewline FirstRejected)

variable {r : Registry} {text : Bytes}

/-- Nothing is shown of a text exactly if it is accepted. -/
theorem diagnose_eq_nil_iff : diagnose r text = [] ↔ ∃ code, assemble r text = .ok code := by
  unfold diagnose
  cases assemble r text with
  | ok code => simp
  | error fault =>
    dsimp only
    cases fault.assembly? <;> simp

theorem diagnose_of_error {fault why cause : Fault} {number : Nat} {line mnemonic : Bytes}
    (h : assemble r text = .error fault)
    (hfault : fault = .assembly why (number + 1 : Nat) line mnemonic cause) :
    diagnose r text = [⟨number, line.length, fault.message⟩] := by
  have hreport : fault.assembly? = some ⟨(number + 1 : Nat), line, mnemonic, cause⟩ := by
    rw [hfault]
    rfl
  have hfromZero : ((number + 1 : Nat) : Int) - 1 = number := by omega
  simp only [diagnose, h, hreport, hfromZero]

/-- A line and its number fit where the text does. -/
theorem bounds_of_line {number : Nat} {line : Bytes} (h : (Text.lines text)[number]? = some line) :
    number ≤ text.length ∧ line.length ≤ text.length := by
  have hne : text ≠ [] := by
    rintro rfl
    cases h
  constructor
  · have hlt := (List.getElem?_eq_some_iff.mp h).1
    rw [← Assembly.sourceLines_eq_lines hne, Assembly.length_sourceLines] at hlt
    have hcount := List.count_le_length (a := newline) (l := text)
    omega
  · have hmem := List.mem_of_getElem? h
    rw [Text.lines_of_ne_nil hne] at hmem
    obtain ⟨p, hp, rfl⟩ := List.mem_map.mp hmem
    exact Nat.le_trans (Bytes.length_dropFinal_le _ p) (Text.length_le_of_mem_pieces hp)

/-- Nothing is shown of a text that is accepted. Of any other a single line is shown from its first
column to its end, the first one that is rejected, and with the message that the whole text is
rejected with. The number of the line and its width are those that are sent, and the number is one
less than the service tells. Other text after the line does not change what is shown. -/
theorem diagnose_shows_first_rejected (r : Registry) {text : Bytes}
    (h : text.length < UInt32.size) :
    (diagnose r text = [] ↔ ∃ code, assemble r text = .ok code) ∧
    ∀ fault, assemble r text = .error fault → ∃ (number : Nat) (line : Bytes),
      FirstRejected r text fault number line ∧
      diagnose r text = [⟨number, line.length, fault.message⟩] ∧
      (diagnose r text).map (fun d => d.toJson.member? (utf8 "range")) =
        [some (rangeJson number 0 line.length)] ∧
      number < UInt32.size ∧ line.length < UInt32.size ∧
      (∀ response, (Service.describe response fault).line.toInt = number + 1) ∧
      ∀ other, diagnose r (beforeNewline (number + 1) text ++ newline :: other) =
        diagnose r text := by
  refine ⟨diagnose_eq_nil_iff, fun fault hfault => ?_⟩
  obtain ⟨number, line, kind, mnemonic, cause, hfirst, rfl⟩ := Assembly.exists_firstRejected hfault
  have hshown := diagnose_of_error hfault rfl
  obtain ⟨hnumber, hwidth⟩ := bounds_of_line hfirst.line_eq
  refine ⟨number, line, hfirst, hshown, ?_, Nat.lt_of_le_of_lt hnumber h,
    Nat.lt_of_le_of_lt hwidth h, fun response => ?_, fun other => ?_⟩
  · rw [hshown]
    rfl
  · have hsize : UInt32.size = 4294967296 := rfl
    exact Int64.toInt_ofInt_of_le (n := (number + 1 : Nat)) (by omega) (by omega)
  · rw [hshown]
    exact diagnose_of_error (hfirst.rejected_onward other) rfl

/-- A text that is rejected in the third line, after a blank one and before one that would be
rejected too, and the part of it that is accepted. -/
theorem diagnose_shows_first_rejected_typo :
    let clean := utf8 "ADD\r\n"
    let typo := utf8 "ADD\r\n\n FOO 1\r\nADD 5 6\n"
    let shown : List Diagnostic := [⟨2, 6, utf8 "line 3: unknown instruction: FOO"⟩]
    clean.length < UInt32.size ∧ typo.length < UInt32.size ∧ diagnose .builtins clean = [] ∧
    diagnose .builtins typo = shown ∧
    (∃ line, FirstRejected .builtins typo (.assembly (.kind .unknownInstruction) 3 (utf8 " FOO 1")
      (utf8 "FOO") .absent) 2 line) ∧
    ∀ other, diagnose .builtins (utf8 "ADD\r\n\n FOO 1\r" ++ newline :: other) = shown := by
  intro clean typo shown
  have hclean : clean.length < UInt32.size := by decide +kernel
  have htypo : typo.length < UInt32.size := by decide +kernel
  have hassembled : assemble .builtins clean = .ok [⟨4, 0⟩] := by decide +kernel
  have hrejected : assemble .builtins typo =
      .error (.assembly (.kind .unknownInstruction) 3 (utf8 " FOO 1") (utf8 "FOO") .absent) := by
    decide +kernel
  have hupto : beforeNewline 3 typo = utf8 "ADD\r\n\n FOO 1\r" := by decide +kernel
  have hmessage : (Fault.assembly (.kind .unknownInstruction) 3 (utf8 " FOO 1") (utf8 "FOO")
      .absent).message = utf8 "line 3: unknown instruction: FOO" := by
    decide +kernel
  obtain ⟨hnothing, -⟩ := diagnose_shows_first_rejected .builtins hclean
  obtain ⟨-, hsomething⟩ := diagnose_shows_first_rejected .builtins htypo
  obtain ⟨number, line, hfirst, hdiagnosed, -, -, -, htold, hother⟩ := hsomething _ hrejected
  have hnumber : number = 2 := by
    have hthree : (3 : Int) = number + 1 := htold {}
    omega
  subst hnumber
  have hline : line = utf8 " FOO 1" := by
    have hthird : (Text.lines typo)[2]? = some (utf8 " FOO 1") := by decide +kernel
    exact Option.some.inj (hfirst.line_eq.symm.trans hthird)
  subst hline
  rw [hmessage] at hdiagnosed
  refine ⟨hclean, htypo, hnothing.mpr ⟨_, hassembled⟩, hdiagnosed, ⟨_, hfirst⟩, fun other => ?_⟩
  rw [← hupto]
  exact (hother other).trans hdiagnosed

end Editor

end StackMachine
