import Mathlib.Data.List.Basic
import StackMachine.Proofs.Text.Decimal
import StackMachine.Proofs.Text.Fields
import StackMachine.Text.Quoted
import StackMachine.Text.Utf8

/-! Well-formed texts. A text is well-formed exactly if it is made of characters, so texts can be
put together, and taken apart at any ASCII byte, without leaving the well-formed ones. -/
namespace StackMachine.Text.Utf8

/-- The bytes of one character. -/
inductive Character : Bytes → Prop where
  | one {b : UInt8} : b < 0x80 → Character [b]
  | two {b c lo hi : UInt8} :
      expected b = some (1, lo, hi) → lo ≤ c → c ≤ hi → Character [b, c]
  | three {b c d lo hi : UInt8} :
      expected b = some (2, lo, hi) → lo ≤ c → c ≤ hi → continues d = true → Character [b, c, d]
  | four {b c d e lo hi : UInt8} :
      expected b = some (3, lo, hi) → lo ≤ c → c ≤ hi → continues d = true →
        continues e = true → Character [b, c, d, e]

private theorem expected_ge {b lo hi : UInt8} {n : Nat} (h : expected b = some (n, lo, hi)) :
    ¬ b < 0x80 ∧ ¬ lo < 0x80 := by
  unfold expected at h
  simp only [UInt8.lt_iff_toNat_lt, UInt8.le_iff_toNat_le] at h ⊢
  split at h
  · cases h
  · rename_i hb
    have h128 : (128 : UInt8).toNat = 128 := rfl
    have h194 : (0xC2 : UInt8).toNat = 194 := rfl
    refine ⟨by omega, ?_⟩
    repeat' split at h
    all_goals cases h
    all_goals decide

/-- The bytes of a character other than an ASCII one are all beyond ASCII. -/
theorem Character.eq_singleton_of_mem {c : Bytes} (h : Character c) {b : UInt8} (hb : b ∈ c)
    (hlt : b < 0x80) : c = [b] := by
  have hlow {x lo : UInt8} (hlo : ¬ lo < 0x80) (hx : lo ≤ x) : ¬ x < 0x80 := by
    simp only [UInt8.lt_iff_toNat_lt, UInt8.le_iff_toNat_le] at *
    omega
  have hcont {x : UInt8} (hx : continues x = true) : ¬ x < 0x80 := by
    simp only [continues, Bool.and_eq_true, decide_eq_true_eq] at hx
    exact hlow (by decide) hx.1
  cases h with
  | one _ => rw [List.mem_singleton.mp hb]
  | two he hc _ =>
    obtain ⟨h1, h2⟩ := expected_ge he
    rcases List.mem_pair.mp hb with rfl | rfl
    · exact absurd hlt h1
    · exact absurd hlt (hlow h2 hc)
  | three he hc _ hd =>
    obtain ⟨h1, h2⟩ := expected_ge he
    simp only [List.mem_cons, List.not_mem_nil, or_false] at hb
    rcases hb with rfl | rfl | rfl
    · exact absurd hlt h1
    · exact absurd hlt (hlow h2 hc)
    · exact absurd hlt (hcont hd)
  | four he hc _ hd he' =>
    obtain ⟨h1, h2⟩ := expected_ge he
    simp only [List.mem_cons, List.not_mem_nil, or_false] at hb
    rcases hb with rfl | rfl | rfl | rfl
    · exact absurd hlt h1
    · exact absurd hlt (hlow h2 hc)
    · exact absurd hlt (hcont hd)
    · exact absurd hlt (hcont he')

/-- A character is cut off as one, whatever follows it. -/
theorem Character.runes_append {c : Bytes} (h : Character c) (rest : Bytes) :
    ∃ code, runes (c ++ rest) = ⟨c, some code⟩ :: runes rest := by
  cases h with
  | @one b hb =>
    refine ⟨b.toNat, ?_⟩
    rw [List.singleton_append, runes.eq_def]
    exact if_pos hb
  | @two b c lo hi he hc hc' =>
    refine ⟨b.toNat % 32 * 64 + payload c, ?_⟩
    rw [runes.eq_def]
    simp [(expected_ge he).1, he, hc, hc']
  | @three b c d lo hi he hc hc' hd =>
    refine ⟨b.toNat % 16 * 4096 + payload c * 64 + payload d, ?_⟩
    rw [runes.eq_def]
    simp [(expected_ge he).1, he, hc, hc', hd]
  | @four b c d e lo hi he hc hc' hd he' =>
    refine ⟨b.toNat % 8 * 262144 + payload c * 4096 + payload d * 64 + payload e, ?_⟩
    rw [runes.eq_def]
    simp [(expected_ge he).1, he, hc, hc', hd, he']

/-- What is cut off with a code point is a character. -/
theorem character_of_mem_runes {s : Bytes} {r : Rune} (h : r ∈ runes s)
    (hcode : r.code.isSome = true) : Character r.bytes := by
  fun_induction runes s with
  | case1 => cases h
  | case2 b rest hb ih =>
    rcases List.mem_cons.mp h with rfl | h
    · exact .one hb
    · exact ih h
  | case3 b hb lo hi c rest he hc ih =>
    rcases List.mem_cons.mp h with rfl | h
    · simp only [Bool.and_eq_true, decide_eq_true_eq] at hc
      exact .two he hc.1 hc.2
    · exact ih h
  | case5 b hb lo hi c d rest he hc ih =>
    rcases List.mem_cons.mp h with rfl | h
    · simp only [Bool.and_eq_true, decide_eq_true_eq] at hc
      exact .three he hc.1.1 hc.1.2 hc.2
    · exact ih h
  | case7 b hb lo hi c d e rest he hc ih =>
    rcases List.mem_cons.mp h with rfl | h
    · simp only [Bool.and_eq_true, decide_eq_true_eq] at hc
      exact .four he hc.1.1.1 hc.1.1.2 hc.1.2 hc.2
    · exact ih h
  | case4 _ _ _ _ _ _ _ _ ih | case6 _ _ _ _ _ _ _ _ _ ih | case8 _ _ _ _ _ _ _ _ _ _ ih
  | case9 _ _ _ _ _ _ ih =>
    rcases List.mem_cons.mp h with rfl | h
    · cases hcode
    · exact ih h

/-- Cutting into characters loses nothing. -/
theorem flatMap_bytes_runes (s : Bytes) : (runes s).flatMap (·.bytes) = s := by
  fun_induction runes s <;> simp_all [stray]

private theorem Character.valid_append {c : Bytes} (h : Character c) (rest : Bytes) :
    valid (c ++ rest) = valid rest := by
  obtain ⟨code, hr⟩ := h.runes_append rest
  simp [valid, hr]

/-- A text is well-formed exactly if it is made of characters. -/
theorem valid_iff {s : Bytes} :
    valid s = true ↔ ∃ cs : List Bytes, (∀ c ∈ cs, Character c) ∧ cs.flatten = s := by
  constructor
  · intro h
    rw [valid, List.all_eq_true] at h
    refine ⟨(runes s).map (·.bytes), ?_, ?_⟩
    · rw [List.forall_mem_map]
      exact fun r hr => character_of_mem_runes hr (h r hr)
    · rw [← List.flatMap_def, flatMap_bytes_runes]
  · rintro ⟨cs, hcs, rfl⟩
    induction cs with
    | nil => rfl
    | cons c cs ih =>
      obtain ⟨hc, hcs⟩ := List.forall_mem_cons.mp hcs
      rw [List.flatten_cons, hc.valid_append]
      exact ih hcs

@[simp]
theorem valid_nil : valid [] = true :=
  rfl

/-- What follows a well-formed text decides about both. -/
@[simp]
theorem valid_append_of_valid {s : Bytes} (hs : valid s = true) (t : Bytes) :
    valid (s ++ t) = valid t := by
  obtain ⟨cs, hcs, rfl⟩ := valid_iff.mp hs
  clear hs
  induction cs with
  | nil => rfl
  | cons c cs ih =>
    obtain ⟨hc, hcs⟩ := List.forall_mem_cons.mp hcs
    rw [List.flatten_cons, List.append_assoc, hc.valid_append]
    exact ih hcs

theorem valid_append {s t : Bytes} (hs : valid s = true) (ht : valid t = true) :
    valid (s ++ t) = true := by
  rw [valid_append_of_valid hs, ht]

@[simp]
theorem valid_cons_newline (t : Bytes) : valid (newline :: t) = valid t :=
  (Character.one (by decide)).valid_append t

@[simp]
theorem valid_cons_space (t : Bytes) : valid (space :: t) = valid t :=
  (Character.one (by decide)).valid_append t

theorem Character.valid {c : Bytes} (h : Character c) : valid c = true :=
  valid_iff.mpr ⟨[c], by simpa using h, by simp⟩

theorem valid_flatMap {α : Type} {xs : List α} {f : α → Bytes}
    (h : ∀ x ∈ xs, valid (f x) = true) : valid (xs.flatMap f) = true := by
  induction xs with
  | nil => rfl
  | cons x xs ih =>
    obtain ⟨hx, hxs⟩ := List.forall_mem_cons.mp h
    rw [List.flatMap_cons]
    exact valid_append hx (ih hxs)

theorem valid_of_ascii {s : Bytes} (h : ∀ b ∈ s, b < 0x80) : valid s = true := by
  rw [← List.flatMap_singleton' s]
  exact valid_flatMap fun b hb => (Character.one (h b hb)).valid

/-- An ASCII byte stands for itself, so a well-formed text can be cut there. -/
theorem valid_of_append_cons {s t : Bytes} {b : UInt8} (hb : b < 0x80)
    (h : valid (s ++ b :: t) = true) : valid s = true ∧ valid t = true := by
  obtain ⟨cs, hcs, heq⟩ := valid_iff.mp h
  clear h
  induction cs generalizing s with
  | nil => simp at heq
  | cons c cs ih =>
    obtain ⟨hc, hrest⟩ := List.forall_mem_cons.mp hcs
    rw [List.flatten_cons, List.append_eq_append_iff] at heq
    rcases heq with ⟨s', rfl, heq⟩ | ⟨c', rfl, heq⟩
    · have hih := ih hrest heq
      exact ⟨valid_append hc.valid hih.1, hih.2⟩
    · cases c' with
      | nil =>
        have hih := ih (s := []) hrest heq.symm
        exact ⟨by simpa using hc.valid, hih.2⟩
      | cons x c' =>
        -- The byte lies in a character, which it then is.
        obtain ⟨rfl, rfl⟩ := List.cons.inj heq
        have hone := hc.eq_singleton_of_mem (List.mem_append_right s List.mem_cons_self) hb
        obtain ⟨rfl, rfl⟩ : s = [] ∧ c' = [] := by
          cases s with
          | nil => simpa using hone
          | cons y s => simp at hone
        exact ⟨rfl, valid_iff.mpr ⟨cs, hrest, rfl⟩⟩

/-- The pieces of a well-formed text between ASCII bytes are well-formed. -/
theorem valid_of_mem_pieces {sep : UInt8} (hsep : sep < 0x80) {s p : Bytes}
    (h : valid s = true) (hp : p ∈ pieces sep s) : valid p = true := by
  induction hn : s.length using Nat.strong_induction_on generalizing s with
  | _ n ih =>
    by_cases hm : sep ∈ s
    · obtain ⟨a, b, rfl⟩ := List.append_of_mem hm
      obtain ⟨ha, hb⟩ := valid_of_append_cons hsep h
      rw [List.length_append, List.length_cons] at hn
      rw [pieces_append_cons] at hp
      rcases List.mem_append.mp hp with hp | hp
      · exact ih a.length (by omega) ha hp rfl
      · exact ih b.length (by omega) hb hp rfl
    · rw [pieces_of_not_mem hm, List.mem_singleton] at hp
      rwa [hp]

theorem valid_of_mem_words {line w : Bytes} (h : valid line = true) (hw : w ∈ words line) :
    valid w = true :=
  valid_of_mem_pieces (by decide) h (List.mem_of_mem_filter hw)

theorem valid_of_mem_lines {s line : Bytes} (h : valid s = true) (hl : line ∈ lines s) :
    valid line = true := by
  by_cases hs : s = []
  · simp [lines, hs] at hl
  rw [lines_of_ne_nil hs] at hl
  obtain ⟨p, hp, rfl⟩ := List.mem_map.mp hl
  have hv := valid_of_mem_pieces (by decide) h hp
  unfold Bytes.dropFinal
  split
  · rename_i hlast
    obtain ⟨init, rfl⟩ := List.getLast?_eq_some_iff.mp hlast
    rw [List.dropLast_concat]
    exact (valid_of_append_cons (t := []) (by decide) hv).1
  · exact hv

private theorem toNat_byte {n : Nat} (h : n < 256) : (UInt8.ofNat n).toNat = n := by
  rw [UInt8.toNat_ofNat']
  omega

private theorem ascii_byte {n : Nat} (h : n < 0x80) : UInt8.ofNat n < 0x80 := by
  rw [UInt8.lt_iff_toNat_lt, toNat_byte (by omega)]
  exact h

private theorem byte_between (lo n hi : Nat) (hhi : hi < 256) (h : lo ≤ n) (h' : n ≤ hi) :
    UInt8.ofNat lo ≤ UInt8.ofNat n ∧ UInt8.ofNat n ≤ UInt8.ofNat hi := by
  simp only [UInt8.le_iff_toNat_le]
  rw [toNat_byte hhi, toNat_byte (by omega), toNat_byte (by omega)]
  exact ⟨h, h'⟩

private theorem continues_byte {n : Nat} (h : n < 64) :
    continues (UInt8.ofNat (0x80 + n)) = true := by
  simp only [continues, Bool.and_eq_true, decide_eq_true_eq]
  exact byte_between 0x80 _ 0xBF (by omega) (by omega) (by omega)

private theorem expected_byte {n : Nat} (h : n < 256) :
    expected (UInt8.ofNat n) =
      if n < 0xC2 then none
      else if n ≤ 0xDF then some (1, 0x80, 0xBF)
      else if n = 0xE0 then some (2, 0xA0, 0xBF)
      else if n = 0xED then some (2, 0x80, 0x9F)
      else if n ≤ 0xEF then some (2, 0x80, 0xBF)
      else if n = 0xF0 then some (3, 0x90, 0xBF)
      else if n ≤ 0xF3 then some (3, 0x80, 0xBF)
      else if n = 0xF4 then some (3, 0x80, 0x8F)
      else none := by
  unfold expected
  simp only [UInt8.lt_iff_toNat_lt, UInt8.le_iff_toNat_le, ← UInt8.toNat_inj, toNat_byte h,
    UInt8.reduceToNat]

private theorem encode_eq (code : Nat) :
    encode code =
      if code < 0x80 then [UInt8.ofNat code]
      else if code < 0x800 then [UInt8.ofNat (0xC0 + code / 64), UInt8.ofNat (0x80 + code % 64)]
      else if !isScalar code then replacement
      else if code < 0x10000 then
        [UInt8.ofNat (0xE0 + code / 4096), UInt8.ofNat (0x80 + code / 64 % 64),
          UInt8.ofNat (0x80 + code % 64)]
      else
        [UInt8.ofNat (0xF0 + code / 262144), UInt8.ofNat (0x80 + code / 4096 % 64),
          UInt8.ofNat (0x80 + code / 64 % 64), UInt8.ofNat (0x80 + code % 64)] :=
  rfl

private theorem character_of_lt_0x10000 {code : Nat} (h : ¬ code < 0x800)
    (hs : isScalar code = true) (hlt : code < 0x10000) :
    Character [UInt8.ofNat (0xE0 + code / 4096), UInt8.ofNat (0x80 + code / 64 % 64),
      UInt8.ofNat (0x80 + code % 64)] := by
  have hscalar : code < 0xD800 ∨ 0xE000 ≤ code := by
    simp only [isScalar, Bool.or_eq_true, Bool.and_eq_true, decide_eq_true_eq] at hs
    omega
  -- The lead byte of the lowest block rules out overlong forms, that of the block of the
  -- surrogates rules these out.
  obtain ⟨lo, hi, hexp, hhi, hlo, hle⟩ : ∃ lo hi : Nat,
      expected (UInt8.ofNat (0xE0 + code / 4096)) = some (2, UInt8.ofNat lo, UInt8.ofNat hi) ∧
        hi < 256 ∧ lo ≤ 0x80 + code / 64 % 64 ∧ 0x80 + code / 64 % 64 ≤ hi := by
    rw [expected_byte (by omega), if_neg (by omega), if_neg (by omega)]
    by_cases h0 : code / 4096 = 0
    · exact ⟨0xA0, 0xBF, if_pos (by omega), by omega, by omega, by omega⟩
    rw [if_neg (by omega)]
    by_cases hd : code / 4096 = 13
    · exact ⟨0x80, 0x9F, if_pos (by omega), by omega, by omega, by omega⟩
    · rw [if_neg (by omega)]
      exact ⟨0x80, 0xBF, if_pos (by omega), by omega, by omega, by omega⟩
  obtain ⟨h1, h2⟩ := byte_between _ _ _ hhi hlo hle
  exact .three hexp h1 h2 (continues_byte (Nat.mod_lt _ (by omega)))

private theorem character_of_ge_0x10000 {code : Nat} (h : ¬ code < 0x10000)
    (hlt : code < 0x110000) :
    Character [UInt8.ofNat (0xF0 + code / 262144), UInt8.ofNat (0x80 + code / 4096 % 64),
      UInt8.ofNat (0x80 + code / 64 % 64), UInt8.ofNat (0x80 + code % 64)] := by
  obtain ⟨lo, hi, hexp, hhi, hlo, hle⟩ : ∃ lo hi : Nat,
      expected (UInt8.ofNat (0xF0 + code / 262144)) = some (3, UInt8.ofNat lo, UInt8.ofNat hi) ∧
        hi < 256 ∧ lo ≤ 0x80 + code / 4096 % 64 ∧ 0x80 + code / 4096 % 64 ≤ hi := by
    rw [expected_byte (by omega), if_neg (by omega), if_neg (by omega), if_neg (by omega),
      if_neg (by omega), if_neg (by omega)]
    by_cases h0 : code / 262144 = 0
    · exact ⟨0x90, 0xBF, if_pos (by omega), by omega, by omega, by omega⟩
    rw [if_neg (by omega)]
    by_cases hf : code / 262144 = 4
    · rw [if_neg (by omega)]
      exact ⟨0x80, 0x8F, if_pos (by omega), by omega, by omega, by omega⟩
    · exact ⟨0x80, 0xBF, if_pos (by omega), by omega, by omega, by omega⟩
  obtain ⟨h1, h2⟩ := byte_between _ _ _ hhi hlo hle
  exact .four hexp h1 h2 (continues_byte (Nat.mod_lt _ (by omega)))
    (continues_byte (Nat.mod_lt _ (by omega)))

theorem character_replacement : Character replacement :=
  .three (show expected 0xEF = some (2, 0x80, 0xBF) from rfl) (by decide) (by decide) rfl

/-- The bytes that a code point is written with are a character. -/
theorem character_encode (code : Nat) : Character (encode code) := by
  rw [encode_eq]
  split
  · rename_i h
    exact .one (ascii_byte h)
  split
  · have hexp := expected_byte (n := 0xC0 + code / 64) (by omega)
    rw [if_neg (by omega), if_pos (by omega)] at hexp
    obtain ⟨h1, h2⟩ := byte_between 0x80 (0x80 + code % 64) 0xBF
      (by omega) (by omega) (by omega)
    exact .two hexp h1 h2
  cases hs : isScalar code with
  | false => exact character_replacement
  | true =>
    rw [if_neg (by simp)]
    split
    · rename_i h800 hlt
      exact character_of_lt_0x10000 h800 hs hlt
    · rename_i h800 hge
      refine character_of_ge_0x10000 hge ?_
      simp only [isScalar, Bool.or_eq_true, Bool.and_eq_true, decide_eq_true_eq] at hs
      omega

@[simp]
theorem valid_encode (code : Nat) : valid (encode code) = true :=
  (character_encode code).valid

/-- What is no scalar value is written as U+FFFD. -/
theorem encode_of_not_isScalar {code : Nat} (h : isScalar code = false) :
    encode code = replacement := by
  have hrange : 0xD800 ≤ code := by
    simp only [isScalar, Bool.or_eq_false_iff, decide_eq_false_iff_not] at h
    omega
  rw [encode_eq, if_neg (by omega), if_neg (by omega), h]
  rfl

/-- The library's characters are written as their code points are. -/
theorem utf8EncodeChar_eq_encode (c : Char) :
    String.utf8EncodeChar c = encode c.val.toNat := by
  have hvalid : c.val.toNat < 0xD800 ∨ 0xDFFF < c.val.toNat ∧ c.val.toNat < 0x110000 := c.valid
  have hscalar : isScalar c.val.toNat = true := by
    simp only [isScalar, Bool.or_eq_true, Bool.and_eq_true, decide_eq_true_eq]
    omega
  rw [encode_eq, String.utf8EncodeChar, hscalar]
  generalize c.val.toNat = v at hvalid
  simp only [Bool.not_true, Bool.false_eq_true, if_false]
  by_cases h1 : v < 0x80
  · rw [if_pos h1, if_pos (show v ≤ 0x7f by omega)]
  rw [if_neg h1, if_neg (show ¬ v ≤ 0x7f by omega)]
  by_cases h2 : v < 0x800
  · rw [if_pos h2, if_pos (show v ≤ 0x7ff by omega), Nat.mod_eq_of_lt (by omega), Nat.add_comm,
      Nat.add_comm (v % 0x40)]
  rw [if_neg h2, if_neg (show ¬ v ≤ 0x7ff by omega)]
  by_cases h3 : v < 0x10000
  · rw [if_pos h3, if_pos (show v ≤ 0xffff by omega), Nat.mod_eq_of_lt (b := 0x10) (by omega),
      Nat.add_comm, Nat.add_comm (v % 0x40), Nat.add_comm (v / 64 % 0x40)]
  · rw [if_neg h3, if_neg (show ¬ v ≤ 0xffff by omega), Nat.mod_eq_of_lt (b := 0x08) (by omega),
      Nat.add_comm, Nat.add_comm (v % 0x40), Nat.add_comm (v / 64 % 0x40),
      Nat.add_comm (v / 4096 % 0x40)]

/-- Text constants are well-formed. -/
@[simp]
theorem valid_utf8 (text : String) : valid (utf8 text) = true := by
  refine valid_flatMap fun c _ => ?_
  rw [utf8EncodeChar_eq_encode]
  exact valid_encode _

theorem valid_of_spells {word : Bytes} {n : Int} (h : Decimal.Spells word n) :
    valid word = true := by
  refine valid_of_ascii fun b hb => ?_
  rcases Decimal.mem_of_spells h hb with hd | rfl | rfl
  · simp only [Decimal.isDigit, Bool.and_eq_true, decide_eq_true_eq, UInt8.le_iff_toNat_le] at hd
    rw [UInt8.lt_iff_toNat_lt]
    exact Nat.lt_of_le_of_lt hd.2 (by decide)
  · decide
  · decide

@[simp]
theorem valid_ofInt (n : Int) : valid (Decimal.ofInt n) = true :=
  valid_of_spells (Decimal.spells_ofInt n)

@[simp]
theorem valid_ofInt64 (n : Int64) : valid (Decimal.ofInt64 n) = true :=
  valid_ofInt n.toInt

@[simp]
theorem valid_ofNat (n : Nat) : valid (Decimal.ofNat n) = true :=
  valid_of_spells (.plain (Decimal.isNumeral_ofNat n))

private theorem ascii_shortEscape {code : Nat} {letter : UInt8}
    (h : Quoted.shortEscape? code = some letter) : letter < 0x80 := by
  unfold Quoted.shortEscape? at h
  split at h <;> cases h <;> decide

private theorem valid_hex (width n : Nat) : valid (Quoted.hex width n) = true := by
  induction width generalizing n with
  | zero => rfl
  | succ width ih =>
    rw [Quoted.hex]
    refine valid_append (ih (n / 16)) (valid_of_ascii fun b hb => ?_)
    obtain rfl := List.mem_singleton.mp hb
    have hmod : n % 16 < 16 := Nat.mod_lt n (by omega)
    refine ascii_byte (n := if n % 16 < 10 then 48 + n % 16 else 87 + n % 16) ?_
    split <;> omega

/-- What a character is quoted as is well-formed, and a stray byte is quoted by its number. -/
theorem valid_escape {s : Bytes} {r : Rune} (h : r ∈ runes s) :
    valid (Quoted.escape r) = true := by
  unfold Quoted.escape
  cases hc : r.code with
  | none => exact valid_append (valid_utf8 _) (valid_flatMap fun b _ => valid_hex 2 b.toNat)
  | some code =>
    simp only
    split
    · rename_i hq
      refine valid_of_ascii (List.forall_mem_cons.mpr ⟨by decide, ?_⟩)
      simp only [Bool.or_eq_true, decide_eq_true_eq] at hq
      simpa using ascii_byte (n := code) (by omega)
    split
    · exact (character_of_mem_runes h (by simp [hc])).valid
    split
    · rename_i letter hletter
      refine valid_of_ascii (List.forall_mem_cons.mpr ⟨by decide, ?_⟩)
      simpa using ascii_shortEscape hletter
    · repeat' split
      all_goals exact valid_append (valid_utf8 _) (valid_hex _ _)

/-- Every text is quoted as a well-formed one. -/
@[simp]
theorem valid_quote (s : Bytes) : valid (Quoted.quote s) = true := by
  have hmark : Character [34] := .one (by decide)
  have hbody : valid ((runes s).flatMap Quoted.escape) = true :=
    valid_flatMap fun r hr => valid_escape hr
  exact valid_append (valid_append hmark.valid hbody) hmark.valid

end StackMachine.Text.Utf8
