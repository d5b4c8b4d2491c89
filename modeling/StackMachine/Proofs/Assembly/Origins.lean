import StackMachine.Proofs.Assembly.Grammar

/-! Where instructions come from. Lines and addresses are both counted from zero; a line that holds
no instruction has no address. -/
namespace StackMachine.Assembly

/-- The instruction at an address stands on a line. Every line before it counts as one, and every
instruction on these lines has an address before that of the instruction. -/
inductive Origin (r : Registry) : List Bytes → Nat → Nat → Instruction → Prop where
  | here {line : Bytes} {rest : List Bytes} {i : Instruction} :
      Reads r (tokens line) (some i) → Origin r (line :: rest) 0 0 i
  | there {line : Bytes} {rest : List Bytes} {found : Option Instruction} {number address : Nat}
      {i : Instruction} :
      Reads r (tokens line) found → Origin r rest number address i →
        Origin r (line :: rest) (number + 1) (found.toList.length + address) i

variable {r : Registry} {start : Nat} {ls : List Bytes} {code : Code}

theorem Reads.unique {line : Bytes} {found found' : Option Instruction}
    (h : Reads r (tokens line) found) (h' : Reads r (tokens line) found') : found = found' := by
  have hfound : instruction? r 0 line = .ok found := instruction?_eq_ok_iff.mpr h
  have hfound' : instruction? r 0 line = .ok found' := instruction?_eq_ok_iff.mpr h'
  exact Except.ok.inj (hfound.symm.trans hfound')

/-- The first token of a line that holds an instruction names its opcode. -/
theorem Reads.exists_mnemonic {ts : List Bytes} {i : Instruction} (h : Reads r ts (some i)) :
    ∃ mnemonic operands, ts = mnemonic :: operands ∧ r.resolve mnemonic = some i.op := by
  cases h with
  | bare hop => exact ⟨_, [], rfl, hop⟩
  | full hop _ => exact ⟨_, _, rfl, hop⟩

/-- Every line of a text that is assembled stands for something. -/
theorem exists_reads_of_mem (hls : lines r start ls = .ok code) {line : Bytes} (h : line ∈ ls) :
    ∃ found, Reads r (tokens line) found := by
  induction ls generalizing start code with
  | nil => exact absurd h List.not_mem_nil
  | cons first rest ih =>
    obtain ⟨found, tail, hfirst, hrest, -⟩ := lines_cons_eq_ok_iff.mp hls
    rcases List.mem_cons.mp h with rfl | h
    · exact ⟨found, hfirst⟩
    · exact ih hrest h

/-- The line that an instruction stands on is one of the lines, and reads as the instruction. -/
theorem Origin.exists_line {number address : Nat} {i : Instruction}
    (h : Origin r ls number address i) :
    ∃ line, ls[number]? = some line ∧ Reads r (tokens line) (some i) := by
  induction h with
  | here hline => exact ⟨_, rfl, hline⟩
  | there _ _ ih => exact ih

/-- An instruction that stands on a line is found in the code at its address. -/
theorem Origin.getElem?_eq {number address : Nat} {i : Instruction}
    (h : Origin r ls number address i) (hls : lines r start ls = .ok code) :
    code[address]? = some i := by
  induction h generalizing start code with
  | here hline =>
    obtain ⟨found, tail, hfound, -, rfl⟩ := lines_cons_eq_ok_iff.mp hls
    rw [hfound.unique hline]
    rfl
  | there hline _ ih =>
    obtain ⟨found, tail, hfound, hrest, rfl⟩ := lines_cons_eq_ok_iff.mp hls
    rw [hfound.unique hline, List.getElem?_append_right (Nat.le_add_right _ _),
      Nat.add_sub_cancel_left]
    exact ih hrest

/-- Every instruction of a code stands on a line. -/
theorem exists_origin (hls : lines r start ls = .ok code) {address : Nat}
    (h : address < code.length) : ∃ number i, Origin r ls number address i := by
  induction ls generalizing start code address with
  | nil =>
    cases hls
    exact absurd h (Nat.not_lt_zero address)
  | cons line rest ih =>
    obtain ⟨found, tail, hline, hrest, rfl⟩ := lines_cons_eq_ok_iff.mp hls
    by_cases hfirst : address < found.toList.length
    · cases found with
      | none => exact absurd hfirst (Nat.not_lt_zero address)
      | some i =>
        obtain rfl : address = 0 := Nat.lt_one_iff.mp hfirst
        exact ⟨0, i, .here hline⟩
    · obtain ⟨later, rfl⟩ := Nat.exists_eq_add_of_le (Nat.le_of_not_lt hfirst)
      rw [List.length_append] at h
      obtain ⟨number, i, horigin⟩ := ih hrest (Nat.lt_of_add_lt_add_left h)
      exact ⟨number + 1, i, .there hline horigin⟩

end StackMachine.Assembly
