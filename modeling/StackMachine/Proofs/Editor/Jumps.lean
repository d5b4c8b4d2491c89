import StackMachine.Editor.Assistance
import StackMachine.Proofs.Assembly.Origins
import StackMachine.Proofs.Editor.Cursor
import StackMachine.Proofs.Machine.Steps

/-! Targets of jumps. The editor counts instructions as assembly does, so that it leads from the
operand of a jump to the line of the instruction at that address. -/
namespace StackMachine.Editor

open Assembly (assemble instruction? tokens Origin Reads)
open Text.Decimal (Spells isDigit readInt64)

section Lines

variable {r : Registry} {line : Bytes} {rest ls : List Bytes} {code : Code}

/-- A line is blank exactly if it stands for no instruction. -/
theorem isEmpty_words_of_reads {found : Option Instruction} (h : Reads r (tokens line) found) :
    (Text.words line).isEmpty = found.isNone := by
  rw [Assembly.words_eq_tokens]
  generalize tokens line = ts at h
  cases h <;> rfl

theorem lineOfAddress_here {i : Instruction} (h : Reads r (tokens line) (some i)) (start : Nat) :
    lineOfAddress start 0 (line :: rest) = some start := by
  rw [lineOfAddress, isEmpty_words_of_reads h]
  rfl

/-- Addresses past those of the first line are sought on the other lines. -/
theorem lineOfAddress_there {found : Option Instruction} (h : Reads r (tokens line) found)
    (start address : Nat) :
    lineOfAddress start (found.toList.length + address) (line :: rest) =
      lineOfAddress (start + 1) address rest := by
  have hblank := isEmpty_words_of_reads h
  cases found with
  | none => simp [lineOfAddress.eq_def start, hblank]
  | some i => simp [lineOfAddress.eq_def start, hblank, Nat.add_comm 1]

theorem lineOfAddress_of_origin {number address : Nat} {i : Instruction}
    (h : Origin r ls number address i) (start : Nat) :
    lineOfAddress start address ls = some (start + number) := by
  induction h generalizing start with
  | here hline => exact lineOfAddress_here hline start
  | there hline _ ih =>
    rw [lineOfAddress_there hline, ih, Nat.add_right_comm, Nat.add_assoc]

theorem lineOfAddress_of_length_le {first : Nat} (hls : Assembly.lines r first ls = .ok code)
    {address : Nat} (h : code.length ≤ address) (start : Nat) :
    lineOfAddress start address ls = none := by
  induction ls generalizing first code address start with
  | nil => rfl
  | cons line rest ih =>
    obtain ⟨found, tail, hline, hrest, rfl⟩ := Assembly.lines_cons_eq_ok_iff.mp hls
    rw [List.length_append] at h
    obtain ⟨later, rfl⟩ := Nat.exists_eq_add_of_le (Nat.le_of_add_right_le h)
    rw [lineOfAddress_there hline]
    exact ih hrest (Nat.le_of_add_le_add_left h) (start + 1)

/-- The line of an address is the one that its instruction comes from. -/
theorem lineOfAddress_eq_some_iff {first : Nat} (hls : Assembly.lines r first ls = .ok code)
    {number address : Nat} :
    lineOfAddress 0 address ls = some number ↔
      ∃ i, code[address]? = some i ∧ Origin r ls number address i := by
  constructor
  · intro h
    by_cases hinside : address < code.length
    · obtain ⟨number', i, horigin⟩ := Assembly.exists_origin hls hinside
      rw [lineOfAddress_of_origin horigin, Nat.zero_add, Option.some.injEq] at h
      subst h
      exact ⟨i, horigin.getElem?_eq hls, horigin⟩
    · rw [lineOfAddress_of_length_le hls (Nat.le_of_not_lt hinside)] at h
      cases h
  · rintro ⟨i, -, horigin⟩
    rw [lineOfAddress_of_origin horigin, Nat.zero_add]

end Lines

/-- What the editor goes by when it leads from a cursor to a line. -/
theorem jumpTarget_eq_some_iff {text : Bytes} {pos : Position} {number : Nat} :
    jumpTarget text pos = some number ↔
      ∃ line mnemonic operand address, (Text.lines text)[pos.line]? = some line ∧
        Text.words line = [mnemonic, operand] ∧ isJump mnemonic = true ∧
        wordAt text pos ≠ [] ∧ wordAt text pos <:+ operand ∧
        readInt64 operand = .ok address ∧ 0 ≤ address.toInt ∧
        lineOfAddress 0 address.toInt.toNat (Text.lines text) = some number := by
  have hnonneg (address : Int64) : ¬ address < 0 ↔ 0 ≤ address.toInt := by
    rw [Int64.lt_iff_toInt_lt]
    exact Int.not_lt
  rw [jumpTarget]
  constructor
  · intro h
    dsimp only at h
    split at h
    · cases h
    · rename_i hword
      split at h
      · rename_i mnemonic operand hwords
        obtain ⟨line, hline, hwords⟩ := Option.map_eq_some_iff.mp hwords
        split at h
        · rename_i hjump
          rw [Bool.and_eq_true, Bytes.endsWith, List.isSuffixOf_iff_suffix] at hjump
          split at h
          · rename_i address haddress
            split at h
            · cases h
            · rename_i hneg
              exact ⟨line, mnemonic, operand, address, hline, hwords, hjump.1, by simpa using hword,
                hjump.2, haddress, (hnonneg address).mp hneg, h⟩
          · cases h
        · cases h
      · cases h
  · rintro ⟨line, mnemonic, operand, address, hline, hwords, hjump, hword, hsuffix, haddress, hneg,
      h⟩
    have hends : operand.endsWith (wordAt text pos) = true := List.isSuffixOf_iff_suffix.mpr hsuffix
    simpa [hline, hwords, hjump, hword, hends, haddress, (hnonneg address).mpr hneg] using h

/-- A line of the text holds a jump with an operand, and is assembled to the instruction. -/
structure JumpOn (r : Registry) (text : Bytes) (number : Nat) (line mnemonic operand : Bytes)
    (i : Instruction) : Prop where
  stands : (Text.lines text)[number]? = some line
  tokens_eq : tokens line = [mnemonic, operand]
  jumps : mnemonic = utf8 "JMP" ∨ mnemonic = utf8 "JMPZ"
  assembled : instruction? r (number + 1) line = .ok (some i)

/-- The width of the plus sign that an operand may begin with. -/
def plusWidth (operand : Bytes) : Nat :=
  if operand.head? = some 43 then 1 else 0

theorem isWordByte_of_isDigit {b : UInt8} (h : isDigit b = true) : isWordByte b = true := by
  rw [isDigit] at h
  simp [isWordByte, h]

/-- What an operand has after its plus sign is a run of word bytes. -/
theorem exists_run_of_spells {operand : Bytes} {n : Int} (h : Spells operand n) :
    ∃ first word, operand = first ++ word ∧ first.length = plusWidth operand ∧
      (∀ b ∈ first, b = 43) ∧ word ≠ [] ∧ ∀ b ∈ word, isWordByte b = true := by
  cases h with
  | plain hdigits =>
    obtain ⟨hne, hall⟩ := hdigits
    obtain ⟨b, rest, rfl⟩ := List.exists_cons_of_ne_nil hne
    have hplus : b ≠ 43 := by
      rintro rfl
      exact absurd (hall 43 List.mem_cons_self) (by decide)
    exact ⟨[], _, rfl, by simp [plusWidth, hplus], by simp, hne,
      fun c hc => isWordByte_of_isDigit (hall c hc)⟩
  | @plus digits hdigits =>
    exact ⟨[43], digits, rfl, rfl, by simp, hdigits.1,
      fun c hc => isWordByte_of_isDigit (hdigits.2 c hc)⟩
  | @minus digits hdigits =>
    refine ⟨[], 45 :: digits, rfl, rfl, by simp, List.cons_ne_nil _ _, ?_⟩
    exact List.forall_mem_cons.mpr ⟨by decide, fun c hc => isWordByte_of_isDigit (hdigits.2 c hc)⟩

/-- A block of bytes none of which stands before or after a part of the line lies inside that
part. -/
private theorem within_of_append_eq {before block after head body tail : Bytes}
    (h : before ++ block ++ after = head ++ body ++ tail) (hne : block ≠ [])
    (hblock : ∀ b ∈ block, b ∉ head ∧ b ∉ tail) :
    head.length ≤ before.length ∧ before.length + block.length ≤ head.length + body.length := by
  constructor
  · by_contra hlt
    obtain ⟨b, rest, rfl⟩ := List.exists_cons_of_ne_nil hne
    have hb : (before ++ (b :: rest) ++ after)[before.length]? = some b := by simp
    rw [h, List.append_assoc, List.getElem?_append_left (by omega)] at hb
    exact (hblock b List.mem_cons_self).1 (List.mem_of_getElem? hb)
  · by_contra hgt
    obtain ⟨rest, b, rfl⟩ := (List.eq_nil_or_concat' block).resolve_left hne
    have hb : (before ++ (rest ++ [b]) ++ after)[before.length + rest.length]? = some b := by simp
    rw [List.length_append, List.length_singleton] at hgt
    rw [h, List.getElem?_append_right (by rw [List.length_append]; omega)] at hb
    exact (hblock b (by simp)).2 (List.mem_of_getElem? hb)

namespace JumpOn

variable {r : Registry} {text line mnemonic operand : Bytes} {number : Nat} {pos : Position}
  {i : Instruction}

theorem reads (h : JumpOn r text number line mnemonic operand i) :
    Spells operand i.arg.toInt := by
  have hreads := Assembly.instruction?_eq_ok_iff.mp h.assembled
  rw [h.tokens_eq] at hreads
  cases hreads with
  | full _ hspells => exact hspells

/-- Operands have no letters. -/
theorem not_mem_operand (h : JumpOn r text number line mnemonic operand i) {b : UInt8}
    (hb : b ∈ mnemonic) : b ∉ operand := by
  intro hoperand
  have hletters : ∀ c ∈ mnemonic, isDigit c = false ∧ c ≠ 43 ∧ c ≠ 45 := by
    rcases h.jumps with rfl | rfl <;> decide +kernel
  obtain ⟨hdigit, hplus, hminus⟩ := hletters b hb
  rcases Text.Decimal.mem_of_spells h.reads hoperand with hd | rfl | rfl
  · rw [hdigit] at hd
    cases hd
  · exact hplus rfl
  · exact hminus rfl

theorem isWordByte_of_mem (h : JumpOn r text number line mnemonic operand i) :
    ∀ b ∈ mnemonic, isWordByte b = true := by
  rcases h.jumps with rfl | rfl <;> decide +kernel

theorem wordAt_of_touches_mnemonic (h : JumpOn r text pos.line line mnemonic operand i)
    (htouches : pos.Touches line mnemonic 0) : wordAt text pos = mnemonic := by
  have hwhole : pos.Touches line ([] ++ mnemonic) ([] : Bytes).length := htouches
  exact wordAt_of_touches h.stands (by simp) h.isWordByte_of_mem hwhole

/-- The line up to the operand, and what follows it: the operand alone stands between spaces. -/
theorem exists_around_operand (h : JumpOn r text number line mnemonic operand i) :
    ∃ before after, line = before ++ operand ++ after ∧ before.getLast? = some space ∧
      (∀ b ∈ before, b = space ∨ b ∈ mnemonic) ∧ ∀ b ∈ after, b = space := by
  have hwords : Text.words line = [mnemonic, operand] :=
    (Assembly.words_eq_tokens line).trans h.tokens_eq
  obtain ⟨before, between, after, hline, hne, hbefore, hbetween, hafter⟩ :=
    Text.exists_of_words_eq_pair hwords
  refine ⟨before ++ mnemonic ++ between, after, hline, ?_, ?_, hafter⟩
  · rw [List.getLast?_append_of_ne_nil _ hne, List.getLast?_eq_some_getLast hne]
    rw [hbetween _ (List.getLast_mem hne)]
  · intro b hb
    rw [List.mem_append, List.mem_append] at hb
    rcases hb with (hb | hb) | hb
    · exact .inl (hbefore b hb)
    · exact .inr hb
    · exact .inl (hbetween b hb)

/-- If the word under the cursor is an end of the operand, then the cursor touches the operand. The
word has no spaces and no letters, so it can stand nowhere else. -/
theorem touches_of_suffix (h : JumpOn r text pos.line line mnemonic operand i)
    (hne : wordAt text pos ≠ []) (hsuffix : wordAt text pos <:+ operand) :
    pos.Touches line operand (plusWidth operand) := by
  obtain ⟨first, run, hoperand, hfirst, hplus, -, -⟩ := exists_run_of_spells h.reads
  obtain ⟨before, after, hline, hlast, hbefore, hafter⟩ := h.exists_around_operand
  obtain ⟨hword, left, right, hcut, hlow, hhigh⟩ :=
    exists_of_word (Nat.min_le_right pos.character line.length)
  rw [← Position.columnOn, ← wordAt_of_line h.stands] at hword hcut hhigh
  rw [← Position.columnOn] at hlow
  have hsame : left ++ wordAt text pos ++ right = (before ++ first) ++ run ++ after := by
    rw [← hcut, hline, hoperand]
    simp
  have hblock : ∀ b ∈ wordAt text pos, b ∉ before ++ first ∧ b ∉ after := by
    intro b hb
    have hspace : b ≠ space := by
      rintro rfl
      exact Bool.false_ne_true (isWordByte_space.symm.trans (hword space hb))
    refine ⟨fun hmem => ?_, fun hmem => hspace (hafter b hmem)⟩
    rcases List.mem_append.mp hmem with hmem | hmem
    · rcases hbefore b hmem with rfl | hmem
      · exact hspace rfl
      · exact h.not_mem_operand hmem (hsuffix.subset hb)
    · rw [hplus b hmem] at hb
      exact absurd (hword 43 hb) (by decide)
  obtain ⟨hfrom, hto⟩ := within_of_append_eq hsame hne hblock
  have hlength : operand.length = first.length + run.length := by
    rw [hoperand, List.length_append]
  rw [List.length_append, hfirst] at hfrom hto
  refine ⟨before.length, ⟨before, after, hline, rfl, ?_, ?_⟩, by omega, by omega⟩
  · rw [hlast]
    simp
  · exact fun b hb => hafter b (List.mem_of_mem_head? hb)

/-- The word under a cursor that touches the operand after its plus sign is an end of the
operand. -/
theorem suffix_of_touches (h : JumpOn r text pos.line line mnemonic operand i)
    (htouches : pos.Touches line operand (plusWidth operand)) :
    wordAt text pos ≠ [] ∧ wordAt text pos <:+ operand := by
  obtain ⟨first, word, hoperand, hfirst, hplus, hne, hword⟩ := exists_run_of_spells h.reads
  have hnone : ∀ b ∈ first, isWordByte b = false := by
    intro b hb
    rw [hplus b hb]
    rfl
  rw [← hfirst, hoperand] at htouches
  rw [wordAt_of_touches h.stands hnone hword htouches, hoperand]
  exact ⟨hne, List.suffix_append first word⟩

theorem unique {line' mnemonic' operand' : Bytes} {i' : Instruction}
    (h : JumpOn r text number line mnemonic operand i)
    (h' : JumpOn r text number line' mnemonic' operand' i') : i' = i := by
  obtain rfl := Option.some.inj (h.stands.symm.trans h'.stands)
  exact Option.some.inj (Except.ok.inj (h'.assembled.symm.trans h.assembled))

theorem readInt64_operand (h : JumpOn r text number line mnemonic operand i) :
    readInt64 operand = .ok i.arg :=
  Text.Decimal.readInt64_eq_ok_iff.mpr h.reads

theorem isJump_mnemonic (h : JumpOn r text number line mnemonic operand i) :
    isJump mnemonic = true := by
  rcases h.jumps with rfl | rfl <;> decide

end JumpOn

/-- In a text that is assembled, a line with a jump mnemonic and an operand that can be read is a
jump to that address. -/
theorem jumpOn_of_words {r : Registry} {text line mnemonic operand : Bytes} {code : Code}
    {number : Nat} {address : Int64} (h : assemble r text = .ok code)
    (hline : (Text.lines text)[number]? = some line)
    (hwords : Text.words line = [mnemonic, operand]) (hjump : isJump mnemonic = true)
    (haddress : readInt64 operand = .ok address) :
    ∃ op, JumpOn r text number line mnemonic operand ⟨op, address⟩ := by
  rw [Assembly.words_eq_tokens] at hwords
  obtain ⟨found, hreads⟩ := Assembly.exists_reads_of_mem h (List.mem_of_getElem? hline)
  have hfound : instruction? r (number + 1) line = .ok found :=
    Assembly.instruction?_eq_ok_iff.mpr hreads
  rw [hwords] at hreads
  cases hreads with
  | @full _ _ op arg _ hspells =>
    obtain rfl : arg = address :=
      Except.ok.inj ((Text.Decimal.readInt64_eq_ok_iff.mpr hspells).symm.trans haddress)
    refine ⟨op, hline, hwords, ?_, hfound⟩
    rw [isJump, Bool.or_eq_true, beq_iff_eq, beq_iff_eq] at hjump
    exact hjump

section Targets

variable {r : Registry} {text : Bytes} {code : Code} {pos : Position}

/-- A cursor leads to a line exactly if it touches the operand of a jump, after its plus sign if it
has one, and the instruction at that address comes from the line. -/
theorem jumpTarget_eq_some_iff_origin (h : assemble r text = .ok code) {number : Nat} :
    jumpTarget text pos = some number ↔
      ∃ line mnemonic operand i target, JumpOn r text pos.line line mnemonic operand i ∧
        pos.Touches line operand (plusWidth operand) ∧ code.At i.arg target ∧
        Origin r (Text.lines text) number i.arg.toInt.toNat target := by
  rw [jumpTarget_eq_some_iff]
  constructor
  · rintro ⟨line, mnemonic, operand, address, hline, hwords, hjump, hne, hsuffix, haddress, hnonneg,
      htarget⟩
    obtain ⟨op, hon⟩ := jumpOn_of_words h hline hwords hjump haddress
    obtain ⟨target, hfound, horigin⟩ := (lineOfAddress_eq_some_iff h).mp htarget
    have hlt := (List.getElem?_eq_some_iff.mp hfound).1
    have hinside : address.toInt < code.length := by omega
    exact ⟨line, mnemonic, operand, ⟨op, address⟩, target, hon, hon.touches_of_suffix hne hsuffix,
      ⟨hnonneg, hinside, hfound⟩, horigin⟩
  · rintro ⟨line, mnemonic, operand, i, target, hon, htouches, hat, horigin⟩
    obtain ⟨hne, hsuffix⟩ := hon.suffix_of_touches htouches
    exact ⟨line, mnemonic, operand, i.arg, hon.stands,
      (Assembly.words_eq_tokens line).trans hon.tokens_eq, hon.isJump_mnemonic, hne, hsuffix,
      hon.readInt64_operand, hat.nonneg,
      (lineOfAddress_eq_some_iff h).mpr ⟨target, hat.found, horigin⟩⟩

/-- A cursor on the operand of a jump into the code leads to the line of the target. -/
theorem exists_jumpTarget (h : assemble r text = .ok code) {line mnemonic operand : Bytes}
    {i : Instruction} (hon : JumpOn r text pos.line line mnemonic operand i)
    (htouches : pos.Touches line operand (plusWidth operand)) (hnonneg : 0 ≤ i.arg.toInt)
    (hinside : i.arg.toInt < code.length) :
    ∃ number target, jumpTarget text pos = some number ∧ code.At i.arg target ∧
      Origin r (Text.lines text) number i.arg.toInt.toNat target := by
  have hlt : i.arg.toInt.toNat < code.length := by omega
  obtain ⟨number, target, horigin⟩ := Assembly.exists_origin h hlt
  have hat : code.At i.arg target := ⟨hnonneg, hinside, horigin.getElem?_eq h⟩
  have htarget : jumpTarget text pos = some number :=
    (jumpTarget_eq_some_iff_origin h).mpr
      ⟨line, mnemonic, operand, i, target, hon, htouches, hat, horigin⟩
  exact ⟨number, target, htarget, hat, horigin⟩

theorem jumpTarget_of_outside (h : assemble r text = .ok code) {line mnemonic operand : Bytes}
    {i : Instruction} (hon : JumpOn r text pos.line line mnemonic operand i)
    (houtside : i.arg.toInt < 0 ∨ code.length ≤ i.arg.toInt) : jumpTarget text pos = none := by
  cases htarget : jumpTarget text pos with
  | none => rfl
  | some number =>
    obtain ⟨_, _, _, i', target, hon', -, hat, -⟩ := (jumpTarget_eq_some_iff_origin h).mp htarget
    obtain rfl := hon.unique hon'
    have hnonneg := hat.nonneg
    have hinside := hat.inside
    omega

end Targets

theorem JumpOn.jumpTarget_of_touches_mnemonic {r : Registry} {text line mnemonic operand : Bytes}
    {pos : Position} {i : Instruction} (hon : JumpOn r text pos.line line mnemonic operand i)
    (htouches : pos.Touches line mnemonic 0) : jumpTarget text pos = none := by
  cases htarget : jumpTarget text pos with
  | none => rfl
  | some number =>
    obtain ⟨line', _, operand', _, hline, hwords, -, -, hsuffix, -⟩ :=
      jumpTarget_eq_some_iff.mp htarget
    obtain rfl := Option.some.inj (hon.stands.symm.trans hline)
    rw [Assembly.words_eq_tokens, hon.tokens_eq] at hwords
    cases hwords
    rw [hon.wordAt_of_touches_mnemonic htouches] at hsuffix
    have hne : mnemonic ≠ [] := by rcases hon.jumps with rfl | rfl <;> decide
    obtain ⟨b, rest, rfl⟩ := List.exists_cons_of_ne_nil hne
    exact absurd (hsuffix.subset List.mem_cons_self) (hon.not_mem_operand List.mem_cons_self)

/-- Going to the target of a jump agrees with assembly. A cursor leads to a line exactly if it
touches the operand of a jump on its own line, from the first digit or the minus sign to the end,
and the operand is the address of an instruction that was assembled from the other line. For every
jump into the code there is such a line; a jump out of the code leads nowhere, and neither does a
cursor on the mnemonic. -/
theorem jumpTarget_follows_assembly {r : Registry} {text : Bytes} {code : Code}
    (h : assemble r text = .ok code) (pos : Position) :
    (∀ number, jumpTarget text pos = some number ↔
      ∃ line mnemonic operand i target, JumpOn r text pos.line line mnemonic operand i ∧
        pos.Touches line operand (plusWidth operand) ∧ code.At i.arg target ∧
        Origin r (Text.lines text) number i.arg.toInt.toNat target) ∧
    ∀ line mnemonic operand i, JumpOn r text pos.line line mnemonic operand i →
      (pos.Touches line operand (plusWidth operand) → 0 ≤ i.arg.toInt → i.arg.toInt < code.length →
        ∃ number target, jumpTarget text pos = some number ∧ code.At i.arg target ∧
          Origin r (Text.lines text) number i.arg.toInt.toNat target) ∧
      (i.arg.toInt < 0 ∨ code.length ≤ i.arg.toInt → jumpTarget text pos = none) ∧
      (pos.Touches line mnemonic 0 → jumpTarget text pos = none) :=
  ⟨fun _ => jumpTarget_eq_some_iff_origin h, fun _ _ _ _ hon =>
    ⟨exists_jumpTarget h hon, jumpTarget_of_outside h hon, hon.jumpTarget_of_touches_mnemonic⟩⟩

/-- A text with two line endings, a blank line and two signs. The first jump leads to the exit,
which is the third instruction but stands on the fourth line; the mnemonic of the second leads
nowhere. -/
theorem jumpTarget_follows_assembly_signed :
    let text := utf8 "JMP  +2\r\n\n JMPZ -0 \nEXIT"
    let code : Code := [⟨9, 2⟩, ⟨10, 0⟩, ⟨2, 0⟩]
    assemble .builtins text = .ok code ∧
    JumpOn .builtins text 0 (utf8 "JMP  +2") (utf8 "JMP") (utf8 "+2") ⟨9, 2⟩ ∧
    Position.Touches ⟨0, 6⟩ (utf8 "JMP  +2") (utf8 "+2") 1 ∧
    jumpTarget text ⟨0, 6⟩ = some 3 ∧ Origin .builtins (Text.lines text) 3 2 ⟨2, 0⟩ ∧
    JumpOn .builtins text 2 (utf8 " JMPZ -0 ") (utf8 "JMPZ") (utf8 "-0") ⟨10, 0⟩ ∧
    Position.Touches ⟨2, 5⟩ (utf8 " JMPZ -0 ") (utf8 "JMPZ") 0 ∧
    jumpTarget text ⟨2, 5⟩ = none := by
  intro text code
  have hcode : assemble .builtins text = .ok code := rfl
  have hfirst : JumpOn .builtins text 0 (utf8 "JMP  +2") (utf8 "JMP") (utf8 "+2") ⟨9, 2⟩ :=
    ⟨rfl, by decide +kernel, .inl rfl, rfl⟩
  have hsecond : JumpOn .builtins text 2 (utf8 " JMPZ -0 ") (utf8 "JMPZ") (utf8 "-0") ⟨10, 0⟩ :=
    ⟨rfl, by decide +kernel, .inr rfl, rfl⟩
  have hoperand : Position.Touches ⟨0, 6⟩ (utf8 "JMP  +2") (utf8 "+2") 1 :=
    ⟨5, ⟨utf8 "JMP  ", [], rfl, rfl, by decide +kernel, by decide +kernel⟩, by decide, by decide⟩
  have hmnemonic : Position.Touches ⟨2, 5⟩ (utf8 " JMPZ -0 ") (utf8 "JMPZ") 0 :=
    ⟨1, ⟨utf8 " ", utf8 " -0 ", rfl, rfl, by decide +kernel, by decide +kernel⟩, by decide,
      by decide⟩
  obtain ⟨number, target, htarget, hat, horigin⟩ :=
    ((jumpTarget_follows_assembly hcode ⟨0, 6⟩).2 _ _ _ _ hfirst).1 hoperand (by decide) (by decide)
  obtain rfl : target = ⟨2, 0⟩ := (Option.some.inj hat.found).symm
  obtain rfl : number = 3 := by
    have hthree : jumpTarget text ⟨0, 6⟩ = some 3 := by decide +kernel
    exact Option.some.inj (htarget.symm.trans hthree)
  exact ⟨hcode, hfirst, hoperand, htarget, horigin, hsecond, hmnemonic,
    ((jumpTarget_follows_assembly hcode ⟨2, 5⟩).2 _ _ _ _ hsecond).2.2 hmnemonic⟩

end StackMachine.Editor
