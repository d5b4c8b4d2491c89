import Mathlib.Data.Nat.Basic
import StackMachine.Text.Decimal

/-! What decimal texts mean. A word spells an integer if it is an optional sign and digits;
the reader accepts exactly the words that spell a 64-bit integer, among them every written one,
and integers are written as the library prints them. -/
namespace StackMachine

theorem utf8_append (s t : String) : utf8 (s ++ t) = utf8 s ++ utf8 t := by
  rw [utf8, String.toList_append, List.flatMap_append]
  rfl

namespace Text.Decimal

/-- The number that digits spell after digits that spell `start`. -/
def valueFrom (start : Nat) (digits : Bytes) : Nat :=
  digits.foldl (fun n b => n * 10 + (b.toNat - 48)) start

/-- The number that digits spell. -/
def value (digits : Bytes) : Nat :=
  valueFrom 0 digits

/-- One or more decimal digits. -/
def IsNumeral (digits : Bytes) : Prop :=
  digits ≠ [] ∧ ∀ b ∈ digits, isDigit b = true

/-- The word is an optional sign and a numeral, and spells the integer. -/
inductive Spells : Bytes → Int → Prop where
  | plain {digits : Bytes} : IsNumeral digits → Spells digits (value digits)
  | plus {digits : Bytes} : IsNumeral digits → Spells (43 :: digits) (value digits)
  | minus {digits : Bytes} : IsNumeral digits → Spells (45 :: digits) (-(value digits : Int))

theorem le_valueFrom (start : Nat) (digits : Bytes) : start ≤ valueFrom start digits := by
  induction digits generalizing start with
  | nil => exact Nat.le_refl start
  | cons b rest ih => exact Nat.le_trans (by omega) (ih (start * 10 + (b.toNat - 48)))

private theorem digitValue?_isDigit {b : UInt8} (h : isDigit b = true) :
    digitValue? b = some (b.toNat - 48) ∧ b.toNat - 48 < 10 := by
  refine ⟨by simp [digitValue?, h], ?_⟩
  simp only [isDigit, Bool.and_eq_true, decide_eq_true_eq, UInt8.le_iff_toNat_le] at h
  have h57 : b.toNat ≤ 57 := h.2
  omega

private theorem isDigit_of_digitValue? {b : UInt8} {d : Nat} (h : digitValue? b = some d)
    (hd : d < 10) : isDigit b = true := by
  by_contra hb
  rw [digitValue?, if_neg hb] at h
  split at h
  · rename_i hr
    simp only [Bool.and_eq_true, decide_eq_true_eq, UInt8.le_iff_toNat_le] at hr
    have h97 : 97 ≤ b.toNat := hr.1
    have := Option.some.inj h
    omega
  · split at h
    · rename_i hr
      simp only [Bool.and_eq_true, decide_eq_true_eq, UInt8.le_iff_toNat_le] at hr
      have h65 : 65 ≤ b.toNat := hr.1
      have := Option.some.inj h
      omega
    · cases h

/-- Digits are read exactly if the number that they spell can be carried. The magnitude is
checked at every digit; as it only grows, the check at the last one decides. -/
theorem readDigits_eq_ok_iff {start n : Nat} {digits : Bytes} (hs : start ≤ maxMagnitude) :
    readDigits 10 start digits = .ok n ↔
      (∀ b ∈ digits, isDigit b = true) ∧ n = valueFrom start digits ∧ n ≤ maxMagnitude := by
  induction digits generalizing start with
  | nil =>
    simp only [readDigits, Except.ok.injEq, List.not_mem_nil, false_implies, implies_true,
      true_and, valueFrom, List.foldl_nil]
    constructor
    · rintro rfl
      exact ⟨rfl, hs⟩
    · rintro ⟨rfl, _⟩
      rfl
  | cons b rest ih =>
    rw [readDigits, List.forall_mem_cons]
    by_cases hb : isDigit b = true
    · obtain ⟨hv, hlt⟩ := digitValue?_isDigit hb
      simp only [hv, hlt, if_true, hb, true_and]
      by_cases hm : start * 10 + (b.toNat - 48) ≤ maxMagnitude
      · rw [if_pos hm, ih hm]
        rfl
      · rw [if_neg hm]
        simp only [reduceCtorEq, false_iff, not_and]
        rintro _ rfl hle
        exact hm (Nat.le_trans (le_valueFrom _ rest) hle)
    · refine ⟨fun h => ?_, fun h => absurd h.1.1 hb⟩
      cases hv : digitValue? b with
      | none => simp [hv] at h
      | some d =>
        have hd : ¬ d < 10 := fun hd => hb (isDigit_of_digitValue? hv hd)
        simp [hv, hd] at h

/-- A sign and a magnitude give the 64-bit integer that they denote, if there is one. -/
theorem signed_eq_ok_iff {negative : Bool} {magnitude : Nat} {v : Int64} :
    signed negative magnitude = .ok v ↔
      v.toInt = if negative then -(magnitude : Int) else magnitude := by
  have hlo := v.le_toInt
  have hhi := v.toInt_lt
  cases negative
  · simp only [signed, Bool.false_eq_true, if_false]
    by_cases hm : magnitude < 0x8000000000000000
    · rw [if_pos hm, Except.ok.injEq, ← Int64.toInt_inj,
        Int64.toInt_ofInt_of_le (by omega) (by omega)]
      exact eq_comm
    · rw [if_neg hm]
      simp only [reduceCtorEq, false_iff]
      omega
  · simp only [signed, if_true]
    by_cases hm : magnitude ≤ 0x8000000000000000
    · rw [if_pos hm, Except.ok.injEq, ← Int64.toInt_inj,
        Int64.toInt_ofInt_of_le (by omega) (by omega)]
      exact eq_comm
    · rw [if_neg hm]
      simp only [reduceCtorEq, false_iff]
      omega

private theorem splitSign_numeral {digits : Bytes} (h : IsNumeral digits) :
    splitSign digits = (false, digits) := by
  obtain ⟨hne, hd⟩ := h
  cases digits with
  | nil => exact absurd rfl hne
  | cons b rest =>
    have hb := hd b List.mem_cons_self
    unfold splitSign
    split
    · rename_i heq
      cases heq
      exact absurd hb (by decide)
    · rename_i heq
      cases heq
      exact absurd hb (by decide)
    · rfl

private theorem readInt64_unfold {text digits : Bytes} {negative : Bool}
    (h : splitSign text = (negative, digits)) (hne : digits ≠ []) :
    readInt64 text =
      match readDigits 10 0 digits with
      | .ok magnitude => signed negative magnitude
      | .error problem => .error problem := by
  cases digits with
  | nil => exact absurd rfl hne
  | cons b rest =>
    cases hd : readDigits 10 0 (b :: rest) <;> simp only [readInt64, h, hd]

private theorem splitSign_cases (text : Bytes) :
    (∃ rest, text = 43 :: rest) ∨ (∃ rest, text = 45 :: rest) ∨
      splitSign text = (false, text) := by
  unfold splitSign
  split
  · exact .inl ⟨_, rfl⟩
  · exact .inr (.inl ⟨_, rfl⟩)
  · exact .inr (.inr rfl)

private theorem readInt64_eq_ok_iff_of_splitSign {text digits : Bytes} {negative : Bool}
    {v : Int64} (h : splitSign text = (negative, digits)) :
    readInt64 text = .ok v ↔
      IsNumeral digits ∧ v.toInt = if negative then -(value digits : Int) else value digits := by
  by_cases hne : digits = []
  · subst hne
    simp [readInt64, h, IsNumeral]
  rw [readInt64_unfold h hne]
  constructor
  · intro hr
    cases hd : readDigits 10 0 digits with
    | error problem => simp [hd] at hr
    | ok magnitude =>
      rw [hd] at hr
      obtain ⟨hall, rfl, _⟩ := (readDigits_eq_ok_iff (Nat.zero_le _)).mp hd
      exact ⟨⟨hne, hall⟩, signed_eq_ok_iff.mp hr⟩
  · rintro ⟨⟨_, hall⟩, hv⟩
    -- A value of 64 bits is far below the magnitude that the digits are read up to.
    have hle : value digits ≤ maxMagnitude := by
      have hlo := v.le_toInt
      have hhi := v.toInt_lt
      unfold maxMagnitude
      cases negative <;> simp only [Bool.false_eq_true, if_false, if_true] at hv <;> omega
    rw [(readDigits_eq_ok_iff (Nat.zero_le _)).mpr ⟨hall, rfl, hle⟩]
    exact signed_eq_ok_iff.mpr hv

/-- The reader accepts exactly the words that spell a 64-bit integer. -/
theorem readInt64_eq_ok_iff {text : Bytes} {v : Int64} :
    readInt64 text = .ok v ↔ Spells text v.toInt := by
  constructor
  · intro h
    rcases splitSign_cases text with ⟨rest, rfl⟩ | ⟨rest, rfl⟩ | hs
    · obtain ⟨hd, hv⟩ := (readInt64_eq_ok_iff_of_splitSign rfl).mp h
      rw [hv]
      exact .plus hd
    · obtain ⟨hd, hv⟩ := (readInt64_eq_ok_iff_of_splitSign rfl).mp h
      rw [hv]
      exact .minus hd
    · obtain ⟨hd, hv⟩ := (readInt64_eq_ok_iff_of_splitSign hs).mp h
      rw [hv]
      exact .plain hd
  · intro h
    generalize hn : v.toInt = n at h
    cases h with
    | plain hd =>
      rw [readInt64_eq_ok_iff_of_splitSign (splitSign_numeral hd)]
      exact ⟨hd, hn⟩
    | plus hd =>
      rw [readInt64_eq_ok_iff_of_splitSign rfl]
      exact ⟨hd, hn⟩
    | minus hd =>
      rw [readInt64_eq_ok_iff_of_splitSign rfl]
      exact ⟨hd, hn⟩

private theorem toNat_digit {d : Nat} (h : d < 10) : (digit d).toNat = 48 + d := by
  rw [digit, UInt8.toNat_ofNat']
  omega

/-- Digits that end in the digit of `d` spell ten times the number before it and `d`. -/
theorem value_append_digit (digits : Bytes) {d : Nat} (h : d < 10) :
    value (digits ++ [digit d]) = value digits * 10 + d := by
  simp [value, valueFrom, toNat_digit h]

theorem isDigit_digit {d : Nat} (h : d < 10) : isDigit (digit d) = true := by
  simp only [isDigit, Bool.and_eq_true, decide_eq_true_eq, UInt8.le_iff_toNat_le, toNat_digit h]
  constructor
  · exact Nat.le_add_right 48 d
  · exact Nat.add_le_add_left (Nat.le_of_lt_succ h) 48

private theorem digitsWithin_spec (fuel : Nat) {n : Nat} (h : n < fuel) :
    IsNumeral (digitsWithin fuel n) ∧ value (digitsWithin fuel n) = n := by
  induction fuel generalizing n with
  | zero => omega
  | succ fuel ih =>
    rw [digitsWithin]
    by_cases hn : n < 10
    · rw [if_pos hn]
      refine ⟨⟨List.cons_ne_nil _ _, ?_⟩, ?_⟩
      · simpa using isDigit_digit hn
      · simpa [value, valueFrom] using value_append_digit [] hn
    · rw [if_neg hn]
      have hmod : n % 10 < 10 := Nat.mod_lt n (by omega)
      obtain ⟨hnum, hval⟩ := ih (n := n / 10) (by omega)
      refine ⟨⟨by simp, ?_⟩, ?_⟩
      · intro b hb
        rcases List.mem_append.mp hb with hb | hb
        · exact hnum.2 b hb
        · rw [List.mem_singleton.mp hb]
          exact isDigit_digit hmod
      · rw [value_append_digit _ hmod, hval]
        omega

/-- A natural number is written as a numeral that spells it. -/
theorem isNumeral_ofNat (n : Nat) : IsNumeral (ofNat n) :=
  (digitsWithin_spec (n + 1) (Nat.lt_succ_self n)).1

@[simp]
theorem value_ofNat (n : Nat) : value (ofNat n) = n :=
  (digitsWithin_spec (n + 1) (Nat.lt_succ_self n)).2

/-- An integer is written as a word that spells it. -/
theorem spells_ofInt (n : Int) : Spells (ofInt n) n := by
  unfold ofInt
  have hs := isNumeral_ofNat n.natAbs
  split
  · have h := Spells.minus hs
    rwa [value_ofNat, show -(n.natAbs : Int) = n by omega] at h
  · have h := Spells.plain hs
    rwa [value_ofNat, show (n.natAbs : Int) = n by omega] at h

/-- What is written for a 64-bit integer is read as it. -/
theorem readInt64_ofInt64 (n : Int64) : readInt64 (ofInt64 n) = .ok n :=
  readInt64_eq_ok_iff.mpr (spells_ofInt n.toInt)

/-- Words that spell integers hold digits and signs alone. -/
theorem mem_of_spells {word : Bytes} {n : Int} (h : Spells word n) {b : UInt8} (hb : b ∈ word) :
    isDigit b = true ∨ b = 43 ∨ b = 45 := by
  cases h with
  | plain hd => exact .inl (hd.2 b hb)
  | plus hd =>
    rcases List.mem_cons.mp hb with rfl | hb
    · exact .inr (.inl rfl)
    · exact .inl (hd.2 b hb)
  | minus hd =>
    rcases List.mem_cons.mp hb with rfl | hb
    · exact .inr (.inr rfl)
    · exact .inl (hd.2 b hb)

theorem ofInt64_ne_nil (n : Int64) : ofInt64 n ≠ [] := by
  have h := (isNumeral_ofNat n.toInt.natAbs).1
  unfold ofInt64 ofInt
  split
  · exact List.cons_ne_nil _ _
  · exact h

private theorem utf8EncodeChar_digitChar {d : Nat} (h : d < 10) :
    String.utf8EncodeChar d.digitChar = [digit d] := by
  revert d
  decide

private theorem digitsWithin_eq_flatMap (fuel : Nat) {n : Nat} (h : n < fuel) :
    digitsWithin fuel n = (Nat.toDigits 10 n).flatMap String.utf8EncodeChar := by
  induction fuel generalizing n with
  | zero => omega
  | succ fuel ih =>
    rw [digitsWithin]
    by_cases hn : n < 10
    · rw [if_pos hn, Nat.toDigits_of_lt_base hn, List.flatMap_singleton,
        utf8EncodeChar_digitChar hn]
    · have hmod : n % 10 < 10 := Nat.mod_lt n (by omega)
      rw [if_neg hn, ih (n := n / 10) (by omega),
        Nat.toDigits_of_base_le (b := 10) (n := n) (by decide) (Nat.le_of_not_lt hn),
        List.flatMap_append, List.flatMap_singleton, utf8EncodeChar_digitChar hmod]

/-- Natural numbers are written as the library prints them. -/
theorem ofNat_eq_utf8 (n : Nat) : ofNat n = utf8 (toString n) := by
  rw [ofNat, digitsWithin_eq_flatMap (n + 1) (Nat.lt_succ_self n), utf8,
    Nat.toString_eq_ofList_toDigits, String.toList_ofList]

/-- Integers are written as the library prints them. -/
theorem ofInt_eq_utf8 (n : Int) : ofInt n = utf8 (toString n) := by
  cases n with
  | ofNat m => exact ofNat_eq_utf8 m
  | negSucc m =>
    have hprinted : toString (Int.negSucc m) = "-" ++ toString (m + 1) := rfl
    rw [hprinted, utf8_append, ← ofNat_eq_utf8, ofInt, if_pos (Int.negSucc_lt_zero m)]
    rfl

theorem padded_eq_leftpad (width n : Nat) :
    padded width n = (utf8 (toString n)).leftpad width 48 := by
  rw [← ofNat_eq_utf8]
  rfl

theorem not_mem_padded {width n : Nat} {b : UInt8} (h : isDigit b = false) :
    b ∉ padded width n := by
  intro hmem
  rcases List.mem_append.mp hmem with hzero | hdigit
  · rw [List.eq_of_mem_replicate hzero] at h
    cases h
  · rw [(isNumeral_ofNat n).2 b hdigit] at h
    cases h

theorem padded_ne_nil (width n : Nat) : padded width n ≠ [] := by
  intro hnil
  exact (isNumeral_ofNat n).1 (List.append_eq_nil_iff.mp hnil).2

end Text.Decimal

end StackMachine
