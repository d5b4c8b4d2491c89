import StackMachine.Builtin
import StackMachine.Proofs.Assembly.Grammar

/-! Program texts one after the other. The codes of two texts are joined; if one of the texts is
rejected, so is the joined one, and the fault differs at most in the number of the line. -/
namespace StackMachine.Assembly

variable {r : Registry} {number : Nat} {ls : List Bytes}

/-- After lines that give a code, assembly goes on with the next number and adds to that code. -/
theorem lines_append_of_ok {code : Code} (h : lines r number ls = .ok code) (more : List Bytes) :
    lines r number (ls ++ more) = (lines r (number + ls.length) more).map (code ++ ·) := by
  induction ls generalizing number code with
  | nil =>
    cases h
    rw [List.nil_append, List.length_nil, Nat.add_zero]
    cases lines r number more <;> rfl
  | cons line rest ih =>
    obtain ⟨found, tail, hline, hrest, rfl⟩ := lines_cons_eq_ok_iff.mp h
    rw [List.cons_append, lines, instruction?_eq_ok_iff.mpr hline, ih hrest, List.length_cons,
      Nat.add_comm rest.length, ← Nat.add_assoc]
    cases lines r (number + 1 + rest.length) more <;> simp [Except.map]

theorem lines_append_of_error {fault : Fault} (h : lines r number ls = .error fault)
    (more : List Bytes) : lines r number (ls ++ more) = .error fault := by
  obtain ⟨before, line, after, kind, mnemonic, cause, rfl, hbefore, hline, rfl⟩ :=
    lines_eq_error_iff.mp h
  exact lines_eq_error_iff.mpr ⟨before, line, after ++ more, kind, mnemonic, cause,
    by simp, hbefore, hline, rfl⟩

/-- What lines are assembled to does not depend on how they are numbered. -/
theorem lines_of_ok {code : Code} (h : lines r number ls = .ok code) (other : Nat) :
    lines r other ls = .ok code :=
  lines_eq_ok_iff.mpr (lines_eq_ok_iff.mp h)

/-- Lines that are rejected are rejected with other numbers too, and only the reported number
changes. -/
theorem lines_add_of_error {fault : Fault} (h : lines r number ls = .error fault) :
    ∃ why line text mnemonic cause, fault = .assembly why line text mnemonic cause ∧
      ∀ n : Nat,
        lines r (number + n) ls = .error (.assembly why (line + n) text mnemonic cause) := by
  obtain ⟨before, text, after, kind, mnemonic, cause, hls, hbefore, htext, rfl⟩ :=
    lines_eq_error_iff.mp h
  refine ⟨_, _, _, _, _, rfl, fun n => lines_eq_error_iff.mpr ?_⟩
  refine ⟨before, text, after, kind, mnemonic, cause, hls, hbefore, htext, ?_⟩
  rw [← Nat.add_assoc, Int.natCast_add (before.length + number)]

theorem sourceLines_append (s t : Bytes) :
    sourceLines (s ++ newline :: t) = sourceLines s ++ sourceLines t := by
  rw [sourceLines, List.splitOn_append_cons_self, List.map_append]
  rfl

theorem length_sourceLines (s : Bytes) : (sourceLines s).length = s.count newline + 1 := by
  rw [sourceLines, List.length_map, ← Text.pieces_eq_splitOn, Text.length_pieces]

/-- Two texts with a newline between them are rejected with the fault of the first, or else with
that of the second, whose line number then counts the lines of the first. If neither is rejected,
their codes are joined. -/
theorem assemble_append_newline (r : Registry) (s t : Bytes) :
    (∀ fault, assemble r s = .error fault → assemble r (s ++ newline :: t) = .error fault) ∧
    (∀ code fault, assemble r s = .ok code → assemble r t = .error fault →
      ∃ why line text mnemonic cause, fault = .assembly why line text mnemonic cause ∧
        assemble r (s ++ newline :: t) =
          .error (.assembly why (line + (s.count newline + 1 : Nat)) text mnemonic cause)) ∧
    ∀ code more, assemble r s = .ok code → assemble r t = .ok more →
      assemble r (s ++ newline :: t) = .ok (code ++ more) := by
  simp only [assemble_eq_lines_sourceLines, sourceLines_append]
  refine ⟨fun fault h => lines_append_of_error h _, fun code fault h ht => ?_,
    fun code more h ht => ?_⟩
  · obtain ⟨why, line, text, mnemonic, cause, rfl, hadd⟩ := lines_add_of_error ht
    refine ⟨why, line, text, mnemonic, cause, rfl, ?_⟩
    rw [lines_append_of_ok h, length_sourceLines, hadd]
    rfl
  · rw [lines_append_of_ok h, lines_of_ok ht]
    rfl

/-- A text that ends in a newline before one that is rejected in its second line, and before one
that is empty; a text that is rejected before an empty one. -/
theorem assemble_append_newline_typo :
    let text := utf8 "ADD\r\n"
    let typo := utf8 "EXIT 7\r\n FOO"
    let fault (line : Int) : Fault :=
      .assembly (.kind .unknownInstruction) line (utf8 " FOO") (utf8 "FOO") .absent
    assemble .builtins text = .ok [⟨4, 0⟩] ∧ assemble .builtins typo = .error (fault 2) ∧
    assemble .builtins (text ++ newline :: typo) = .error (fault 4) ∧
    assemble .builtins (typo ++ newline :: []) = .error (fault 2) ∧
    assemble .builtins (text ++ newline :: []) = .ok [⟨4, 0⟩] := by
  intro text typo fault
  have htext : assemble .builtins text = .ok [⟨4, 0⟩] := by decide +kernel
  have htypo : assemble .builtins typo = .error (fault 2) := by decide +kernel
  obtain ⟨-, hsecond, -⟩ := assemble_append_newline .builtins text typo
  obtain ⟨hfirst, -, -⟩ := assemble_append_newline .builtins typo []
  obtain ⟨-, -, hempty⟩ := assemble_append_newline .builtins text []
  refine ⟨htext, htypo, ?_, hfirst _ htypo, hempty _ _ htext rfl⟩
  obtain ⟨why, line, shown, mnemonic, cause, heq, hmoved⟩ := hsecond _ _ htext htypo
  cases heq
  exact hmoved

end StackMachine.Assembly
