import Mathlib.Data.List.Forall2
import Mathlib.Data.List.ReduceOption
import StackMachine.Assembly
import StackMachine.Proofs.Text.Decimal
import StackMachine.Proofs.Text.Fields

/-! The grammar of program texts. A text is cut into lines and these into tokens; the tokens of
a line stand for an instruction, for nothing, or offend in one way. Assembly follows the grammar
and reports the first line that offends. -/
namespace StackMachine.Assembly

open Text.Decimal (Spells readInt64)

/-- The lines of a program text: what stands between newlines, each without one trailing
carriage return. -/
def sourceLines (source : Bytes) : List Bytes :=
  (source.splitOn newline).map (Bytes.dropFinal carriageReturn)

/-- The longest runs of bytes other than spaces. -/
def tokens (line : Bytes) : List Bytes :=
  (line.splitOn space).filter fun t => !t.isEmpty

/-- What the tokens of a line stand for. -/
inductive Reads (r : Registry) : List Bytes → Option Instruction → Prop where
  | blank : Reads r [] none
  | bare {mnemonic : Bytes} {op : Opcode} :
      r.resolve mnemonic = some op → Reads r [mnemonic] (some ⟨op, 0⟩)
  | full {mnemonic word : Bytes} {op : Opcode} {arg : Int64} :
      r.resolve mnemonic = some op → Spells word arg.toInt →
        Reads r [mnemonic, word] (some ⟨op, arg⟩)

/-- How the tokens of a line offend: the kind, the mnemonic and the cause that are reported.
Too many tokens come before an unknown mnemonic, and that before an operand that spells no
64-bit integer. -/
inductive Offends (r : Registry) : List Bytes → Kind → Bytes → Fault → Prop where
  | crowded {ts : List Bytes} :
      2 < ts.length → Offends r ts .tooManyOperands [] .absent
  | unknown {mnemonic : Bytes} {operands : List Bytes} :
      operands.length ≤ 1 → r.resolve mnemonic = none →
        Offends r (mnemonic :: operands) .unknownInstruction mnemonic .absent
  | unread {mnemonic word : Bytes} {op : Opcode} {problem : Text.Decimal.Problem} :
      r.resolve mnemonic = some op → (∀ v : Int64, ¬ Spells word v.toInt) →
        readInt64 word = .error problem →
        Offends r [mnemonic, word] .invalidOperand []
          (.numeral (utf8 "strconv.ParseInt") word problem)

theorem words_eq_tokens (line : Bytes) : Text.words line = tokens line := by
  rw [Text.words, Text.fields, Text.pieces_eq_splitOn]
  rfl

/-- The tokens of a line stand for something or offend. -/
theorem reads_or_offends (r : Registry) (ts : List Bytes) :
    (∃ found, Reads r ts found) ∨ ∃ kind mnemonic cause, Offends r ts kind mnemonic cause := by
  match ts with
  | [] => exact .inl ⟨_, .blank⟩
  | [mnemonic] =>
    cases hr : r.resolve mnemonic with
    | none => exact .inr ⟨_, _, _, .unknown (Nat.zero_le 1) hr⟩
    | some op => exact .inl ⟨_, .bare hr⟩
  | [mnemonic, word] =>
    cases hr : r.resolve mnemonic with
    | none => exact .inr ⟨_, _, _, .unknown (Nat.le_refl 1) hr⟩
    | some op =>
      cases hw : readInt64 word with
      | ok arg => exact .inl ⟨_, .full hr (Text.Decimal.readInt64_eq_ok_iff.mp hw)⟩
      | error problem =>
        have hs (v : Int64) : ¬ Spells word v.toInt := by
          rw [← Text.Decimal.readInt64_eq_ok_iff, hw]
          exact fun h => nomatch h
        exact .inr ⟨_, _, _, .unread hr hs hw⟩
  | _ :: _ :: _ :: rest => exact .inr ⟨_, _, _, .crowded (by simp)⟩

private theorem instruction?_of_reads {r : Registry} {number : Nat} {line : Bytes}
    {found : Option Instruction} (h : Reads r (tokens line) found) :
    instruction? r number line = .ok found := by
  rw [instruction?, words_eq_tokens]
  generalize tokens line = ts at h
  cases h with
  | blank => rfl
  | bare hr => simp [hr]
  | full hr hs => simp [hr, operand, Text.Decimal.readInt64_eq_ok_iff.mpr hs]

private theorem instruction?_of_offends {r : Registry} {number : Nat} {line : Bytes} {kind : Kind}
    {mnemonic : Bytes} {cause : Fault} (h : Offends r (tokens line) kind mnemonic cause) :
    instruction? r number line = .error (.assembly (.kind kind) number line mnemonic cause) := by
  rw [instruction?, words_eq_tokens]
  generalize tokens line = ts at h
  cases h with
  | crowded hl =>
    match ts, hl with
    | _ :: _ :: _ :: _, _ => rfl
  | unknown hl hr =>
    rename_i operands
    match operands, hl with
    | [], _ => simp [hr]
    | [_], _ => simp [hr]
  | unread hr _ hw => simp [hr, operand, hw]

/-- A line is accepted exactly if its tokens stand for something. -/
theorem instruction?_eq_ok_iff {r : Registry} {number : Nat} {line : Bytes}
    {found : Option Instruction} :
    instruction? r number line = .ok found ↔ Reads r (tokens line) found := by
  refine ⟨fun h => ?_, instruction?_of_reads⟩
  rcases reads_or_offends r (tokens line) with ⟨found', hf⟩ | ⟨kind, mnemonic, cause, ho⟩
  · rw [instruction?_of_reads hf, Except.ok.injEq] at h
    exact h ▸ hf
  · rw [instruction?_of_offends ho] at h
    cases h

/-- A line is rejected exactly if its tokens offend, and with what they offend by. -/
theorem instruction?_eq_error_iff {r : Registry} {number : Nat} {line : Bytes} {fault : Fault} :
    instruction? r number line = .error fault ↔
      ∃ kind mnemonic cause, Offends r (tokens line) kind mnemonic cause ∧
        fault = .assembly (.kind kind) number line mnemonic cause := by
  constructor
  · intro h
    rcases reads_or_offends r (tokens line) with ⟨found, hf⟩ | ⟨kind, mnemonic, cause, ho⟩
    · rw [instruction?_of_reads hf] at h
      cases h
    · rw [instruction?_of_offends ho, Except.error.injEq] at h
      exact ⟨kind, mnemonic, cause, ho, h.symm⟩
  · rintro ⟨kind, mnemonic, cause, ho, rfl⟩
    exact instruction?_of_offends ho

/-- The first line gives its instruction, if any, and the rest the other ones. -/
theorem lines_cons_eq_ok_iff {r : Registry} {number : Nat} {line : Bytes} {rest : List Bytes}
    {code : Code} :
    lines r number (line :: rest) = .ok code ↔
      ∃ found tail, Reads r (tokens line) found ∧ lines r (number + 1) rest = .ok tail ∧
        code = found.toList ++ tail := by
  rw [lines]
  constructor
  · intro h
    cases hi : instruction? r number line with
    | error fault => simp [hi] at h
    | ok found =>
      cases hl : lines r (number + 1) rest with
      | error fault => simp [hi, hl] at h
      | ok tail =>
        simp only [hi, hl, Except.ok.injEq] at h
        exact ⟨found, tail, instruction?_eq_ok_iff.mp hi, rfl, h.symm⟩
  · rintro ⟨found, tail, hline, hrest, rfl⟩
    rw [instruction?_eq_ok_iff.mpr hline, hrest]

/-- Lines are assembled exactly if each of them is accepted; the code has what they stand for
in their order. -/
theorem lines_eq_ok_iff {r : Registry} {number : Nat} {ls : List Bytes} {code : Code} :
    lines r number ls = .ok code ↔
      ∃ found, List.Forall₂ (Reads r) (ls.map tokens) found ∧ found.reduceOption = code := by
  induction ls generalizing number code with
  | nil =>
    simp only [lines, Except.ok.injEq, List.map_nil, List.forall₂_nil_left_iff, exists_eq_left,
      List.reduceOption_nil]
  | cons line rest ih =>
    rw [lines_cons_eq_ok_iff, List.map_cons]
    constructor
    · rintro ⟨first, tail, hline, hrest, rfl⟩
      obtain ⟨found, hf, rfl⟩ := ih.mp hrest
      refine ⟨first :: found, .cons hline hf, ?_⟩
      cases first <;> simp
    · rintro ⟨found, hf, rfl⟩
      obtain ⟨first, found, hline, hrest, rfl⟩ := List.forall₂_cons_left_iff.mp hf
      refine ⟨first, found.reduceOption, hline, ih.mpr ⟨found, hrest, rfl⟩, ?_⟩
      cases first <;> simp

/-- Every instruction of an assembled code stands on one of the lines. -/
theorem exists_line_of_mem {r : Registry} {number : Nat} {ls : List Bytes} {code : Code}
    {i : Instruction} (h : lines r number ls = .ok code) (hi : i ∈ code) :
    ∃ line ∈ ls, Reads r (tokens line) (some i) := by
  obtain ⟨found, hf, rfl⟩ := lines_eq_ok_iff.mp h
  rw [List.reduceOption_mem_iff] at hi
  rw [List.forall₂_map_left_iff] at hf
  clear h
  induction hf with
  | nil => cases hi
  | cons hline _ ih =>
    rcases List.mem_cons.mp hi with rfl | hi
    · exact ⟨_, List.mem_cons_self, hline⟩
    · obtain ⟨line, hmem, hreads⟩ := ih hi
      exact ⟨line, List.mem_cons_of_mem _ hmem, hreads⟩

/-- Lines are rejected exactly if one of them offends, with the fault of the first such one. -/
theorem lines_eq_error_iff {r : Registry} {number : Nat} {ls : List Bytes} {fault : Fault} :
    lines r number ls = .error fault ↔
      ∃ before line after kind mnemonic cause, ls = before ++ line :: after ∧
        (∀ l ∈ before, ∃ found, Reads r (tokens l) found) ∧
        Offends r (tokens line) kind mnemonic cause ∧
        fault = .assembly (.kind kind) (before.length + number : Nat) line mnemonic cause := by
  induction ls generalizing number fault with
  | nil => simp [lines]
  | cons line rest ih =>
    rw [lines]
    constructor
    · intro h
      cases hi : instruction? r number line with
      | error first =>
        simp only [hi, Except.error.injEq] at h
        obtain ⟨kind, mnemonic, cause, ho, rfl⟩ := instruction?_eq_error_iff.mp hi
        refine ⟨[], line, rest, kind, mnemonic, cause, rfl, by simp, ho, ?_⟩
        rw [← h, List.length_nil, Nat.zero_add]
      | ok first =>
        cases hl : lines r (number + 1) rest with
        | ok tail => simp [hi, hl] at h
        | error later =>
          simp only [hi, hl, Except.error.injEq] at h
          obtain ⟨before, bad, after, kind, mnemonic, cause, rfl, hb, ho, rfl⟩ := ih.mp hl
          refine ⟨line :: before, bad, after, kind, mnemonic, cause, rfl, ?_, ho, ?_⟩
          · exact List.forall_mem_cons.mpr ⟨⟨first, instruction?_eq_ok_iff.mp hi⟩, hb⟩
          · rw [← h, List.length_cons, Nat.add_right_comm, Nat.add_assoc]
    · rintro ⟨before, bad, after, kind, mnemonic, cause, hs, hb, ho, rfl⟩
      cases before with
      | nil =>
        obtain ⟨rfl, rfl⟩ := List.cons.inj hs
        rw [instruction?_eq_error_iff.mpr ⟨kind, mnemonic, cause, ho, rfl⟩, List.length_nil,
          Nat.zero_add]
      | cons first before =>
        obtain ⟨rfl, rfl⟩ := List.cons.inj hs
        obtain ⟨⟨found, hf⟩, hb⟩ := List.forall_mem_cons.mp hb
        rw [instruction?_eq_ok_iff.mpr hf,
          ih.mpr ⟨before, bad, after, kind, mnemonic, cause, rfl, hb, ho, rfl⟩,
          List.length_cons, Nat.add_right_comm, Nat.add_assoc]

theorem sourceLines_eq_lines {source : Bytes} (h : source ≠ []) :
    sourceLines source = Text.lines source := by
  rw [Text.lines_of_ne_nil h, Text.pieces_eq_splitOn]
  rfl

/-- The empty text has no lines where the grammar has one without tokens; both are no code. -/
theorem assemble_eq_lines_sourceLines (r : Registry) (source : Bytes) :
    assemble r source = lines r 1 (sourceLines source) := by
  rw [assemble]
  by_cases hs : source = []
  · subst hs
    rfl
  · rw [sourceLines_eq_lines hs]

/-- Assembly accepts exactly the texts of the grammar, with the code that their lines stand for
in order. It rejects any other with the number, the text and the offence of the first line that
offends. -/
theorem assemble_follows_grammar (r : Registry) (source : Bytes) :
    (∀ code, assemble r source = .ok code ↔
      ∃ found, List.Forall₂ (Reads r) ((sourceLines source).map tokens) found ∧
        found.reduceOption = code) ∧
    (∀ fault, assemble r source = .error fault ↔
      ∃ before line after kind mnemonic cause, sourceLines source = before ++ line :: after ∧
        (∀ l ∈ before, ∃ found, Reads r (tokens l) found) ∧
        Offends r (tokens line) kind mnemonic cause ∧
        fault = .assembly (.kind kind) (before.length + 1 : Nat) line mnemonic cause) := by
  rw [assemble_eq_lines_sourceLines]
  exact ⟨fun _ => lines_eq_ok_iff, fun _ => lines_eq_error_iff⟩

end StackMachine.Assembly
