import Mathlib.Data.List.Basic
import StackMachine.Proofs.Text.Fields

/-! Cutting a text into fields and lines loses nothing and invents nothing. One scan of the text
finds the positions between which its fields stand; only the texts that have these in order, with
separators between, have the same. A line is found by the number of newlines before it. -/
namespace StackMachine.Text

/-- The positions of a text from one on that are before another. -/
structure Span where
  start : Nat
  stop : Nat

namespace Span

def Covers (span : Span) (position : Nat) : Prop :=
  span.start ≤ position ∧ position < span.stop

/-- The bytes of a text at the positions. -/
def bytes (span : Span) (s : Bytes) : Bytes :=
  (s.take span.stop).drop span.start

/-- The span between two positions, if there is any position in it. -/
def between (start stop : Nat) : List Span :=
  if start < stop then [⟨start, stop⟩] else []

end Span

/-- Scans the bytes from `position` on, where the field that is being read began at `start`. A
separator ends that field and the next one begins after it; the last one ends with the text. -/
def spansFrom (sep : UInt8) (start position : Nat) : Bytes → List Span
  | [] => Span.between start position
  | b :: rest =>
    if b = sep then
      Span.between start position ++ spansFrom sep (position + 1) (position + 1) rest
    else spansFrom sep start (position + 1) rest

/-- Where the fields of a text stand, by scanning it once. -/
def spans (sep : UInt8) (s : Bytes) : List Span :=
  spansFrom sep 0 0 s

/-- The bytes at the two positions fall in the same field. -/
def Together (sep : UInt8) (s : Bytes) (i j : Nat) : Prop :=
  ∃ span ∈ spans sep s, span.Covers i ∧ span.Covers j

/-- A separator stands between the two positions. -/
def Parted (sep : UInt8) (s : Bytes) (i j : Nat) : Prop :=
  ∃ k, min i j < k ∧ k < max i j ∧ s[k]? = some sep

/-- The piece stands between separators or ends of the text, after as many separators as its index
says. -/
def PieceAt (sep : UInt8) (s : Bytes) (index : Nat) (piece : Bytes) : Prop :=
  ∃ before after, s = before ++ piece ++ after ∧ sep ∉ piece ∧ before.count sep = index ∧
    (∀ b ∈ before.getLast?, b = sep) ∧ ∀ b ∈ after.head?, b = sep

section Scan

variable {sep : UInt8} {start position low high : Nat}

/-- What a scan has read since the last separator is cut out as a field, if it is any. -/
theorem map_bytes_between {begun : Bytes} (hbegun : sep ∉ begun) (before after : Bytes) :
    (Span.between before.length (before.length + begun.length)).map
      (·.bytes (before ++ begun ++ after)) = fields sep begun := by
  by_cases hne : begun = []
  · subst hne
    rw [Span.between, if_neg (by simp)]
    rfl
  · have hlt : before.length < before.length + begun.length :=
      Nat.lt_add_of_pos_right (List.length_pos_iff.mpr hne)
    rw [Span.between, if_pos hlt, fields_of_not_mem hbegun hne, List.map_singleton, Span.bytes,
      List.take_left' List.length_append, List.drop_left]

/-- What a scan cuts out from here on are the fields of the rest, the first of which it may have
begun. -/
theorem map_bytes_spansFrom {begun : Bytes} (hbegun : sep ∉ begun) (before rest : Bytes) :
    (spansFrom sep before.length (before.length + begun.length) rest).map
      (·.bytes (before ++ begun ++ rest)) = fields sep (begun ++ rest) := by
  induction rest generalizing before begun with
  | nil =>
    rw [spansFrom, map_bytes_between hbegun, List.append_nil]
  | cons b rest ih =>
    rw [spansFrom]
    by_cases hb : b = sep
    · subst hb
      have hrest := ih List.not_mem_nil (before ++ begun ++ [b])
      simp only [List.length_append, List.length_singleton, List.length_nil, Nat.add_zero,
        List.append_nil, List.nil_append, List.append_assoc, List.singleton_append] at hrest
      rw [if_pos rfl, List.map_append, map_bytes_between hbegun, fields_append_cons,
        List.append_assoc, Nat.add_assoc, hrest]
    · have hbegun' : sep ∉ begun ++ [b] := by simp [hbegun, Ne.symm hb]
      have hrest := ih hbegun' before
      simp only [List.length_append, List.length_singleton, List.append_assoc,
        List.singleton_append] at hrest
      rw [if_neg hb, List.append_assoc, Nat.add_assoc, hrest]

/-- The fields are the bytes in the spans. -/
theorem map_bytes_spans (sep : UInt8) (s : Bytes) :
    (spans sep s).map (·.bytes s) = fields sep s :=
  map_bytes_spansFrom List.not_mem_nil [] s

theorem exists_mem_between_iff (hle : low ≤ high) :
    (∃ span ∈ Span.between start position, span.start ≤ low ∧ high < span.stop) ↔
      start ≤ low ∧ high < position := by
  unfold Span.between
  split
  · simp only [List.mem_singleton, exists_eq_left]
  · simp only [List.not_mem_nil, false_and, exists_false, false_iff]
    omega

/-- Two positions are in one span that is still to be cut out exactly if neither is before the field
that is being read and no separator that is still to be read stands at one of them or between
them. -/
theorem exists_mem_spansFrom_iff (hstart : start ≤ position) (hle : low ≤ high) (rest : Bytes) :
    (∃ span ∈ spansFrom sep start position rest, span.start ≤ low ∧ high < span.stop) ↔
      start ≤ low ∧ high < position + rest.length ∧
        ∀ k, low ≤ position + k → position + k ≤ high → rest[k]? ≠ some sep := by
  induction rest generalizing start position with
  | nil => simp [spansFrom, exists_mem_between_iff hle]
  | cons b rest ih =>
    rw [spansFrom, ← Nat.and_forall_add_one]
    simp only [List.getElem?_cons_zero, List.getElem?_cons_succ, Nat.add_zero, ne_eq,
      Option.some.injEq, List.length_cons, ← Nat.add_assoc, Nat.add_right_comm _ _ 1]
    split
    · rename_i hb
      -- No span goes across the separator, so both positions are before it or both behind it.
      simp only [List.mem_append, or_and_right, exists_or, exists_mem_between_iff hle,
        ih (Nat.le_refl _), ne_eq]
      constructor
      · rintro (⟨hlow, hhigh⟩ | ⟨hlow, hhigh, hfree⟩)
        · exact ⟨hlow, by omega, by omega, fun k _ hk => absurd hk (by omega)⟩
        · exact ⟨by omega, hhigh, by omega, hfree⟩
      · rintro ⟨hlow, hhigh, hhere, hfree⟩
        by_cases hbefore : high < position
        · exact .inl ⟨hlow, hbefore⟩
        · have hbehind : ¬ low ≤ position := fun h => hhere h (Nat.le_of_not_lt hbefore) hb
          exact .inr ⟨Nat.lt_of_not_le hbehind, hhigh, hfree⟩
    · rename_i hb
      simp only [ih (Nat.le_succ_of_le hstart), hb, not_false_eq_true, implies_true, true_and,
        ne_eq]

/-- Two bytes other than separators fall in one field exactly if no separator stands between
them. -/
theorem together_iff_not_parted {s : Bytes} {i j : Nat} {b c : UInt8} (hi : s[i]? = some b)
    (hj : s[j]? = some c) (hb : b ≠ sep) (hc : c ≠ sep) :
    Together sep s i j ↔ ¬ Parted sep s i j := by
  have hcovers (span : Span) : span.Covers i ∧ span.Covers j ↔
      span.start ≤ min i j ∧ max i j < span.stop := by
    unfold Span.Covers
    omega
  have hinside : max i j < s.length :=
    Nat.max_lt.mpr ⟨(List.getElem?_eq_some_iff.mp hi).1, (List.getElem?_eq_some_iff.mp hj).1⟩
  have hends (k : Nat) (hk : k = i ∨ k = j) : s[k]? ≠ some sep := by
    rcases hk with rfl | rfl
    · simp [hi, hb]
    · simp [hj, hc]
  have hle : min i j ≤ max i j := by omega
  simp only [Together, spans, hcovers, Parted, exists_mem_spansFrom_iff (Nat.le_refl 0) hle,
    Nat.zero_add]
  constructor
  · rintro ⟨-, -, hfree⟩ ⟨k, hlow, hhigh, hsep⟩
    exact hfree k (Nat.le_of_lt hlow) (Nat.le_of_lt hhigh) hsep
  · intro hnone
    refine ⟨Nat.zero_le _, hinside, fun k hlow hhigh hsep => hends k ?_ hsep⟩
    -- A separator at neither position would stand between them.
    by_contra hk
    exact hnone ⟨k, by omega, by omega, hsep⟩

end Scan

theorem flatten_fields_of_not_mem {sep : UInt8} {s : Bytes} (h : sep ∉ s) :
    (fields sep s).flatten = s := by
  by_cases hne : s = []
  · subst hne
    rfl
  · rw [fields_of_not_mem h hne, List.flatten_singleton]

/-- The fields one after the other are the text without its separators. -/
theorem flatten_fields (sep : UInt8) (s : Bytes) :
    (fields sep s).flatten = s.filter (· ≠ sep) := by
  have hkept {p : Bytes} (hp : sep ∉ p) : p.filter (· ≠ sep) = p :=
    List.filter_eq_self.mpr fun b hb => by simpa using ne_of_mem_of_not_mem hb hp
  induction s using pieces_induction sep with
  | single p hp => rw [flatten_fields_of_not_mem hp, hkept hp]
  | cons p rest hp ih =>
    rw [fields_append_cons, List.flatten_append, flatten_fields_of_not_mem hp, ih,
      List.filter_append, hkept hp, List.filter_cons_of_neg (by simp)]

section Lines

variable {sep : UInt8} {s : Bytes}

/-- What ends in a separator, or is empty, has as many pieces before the rest of the text as there
are separators in it. -/
theorem exists_pieces_append {before : Bytes} (hbefore : ∀ b ∈ before.getLast?, b = sep)
    (rest : Bytes) :
    ∃ front, front.length = before.count sep ∧
      pieces sep (before ++ rest) = front ++ pieces sep rest := by
  rcases List.eq_nil_or_concat' before with rfl | ⟨init, b, rfl⟩
  · exact ⟨[], rfl, rfl⟩
  · obtain rfl : b = sep := hbefore b (by simp)
    refine ⟨pieces b init, ?_, ?_⟩
    · rw [length_pieces, List.count_append, List.count_singleton_self]
    · rw [List.append_assoc, List.singleton_append, pieces_append_cons]

/-- The pieces of a text, by the number of separators before them. -/
theorem getElem?_pieces_eq_some_iff {index : Nat} {piece : Bytes} :
    (pieces sep s)[index]? = some piece ↔ PieceAt sep s index piece := by
  constructor
  · intro h
    induction s using pieces_induction sep generalizing index with
    | single p hp =>
      rw [pieces_of_not_mem hp] at h
      cases index with
      | succ index => cases h
      | zero =>
        obtain rfl := Option.some.inj h
        exact ⟨[], [], by simp, hp, rfl, by simp, by simp⟩
    | cons p rest hp ih =>
      rw [pieces_append_cons, pieces_of_not_mem hp, List.singleton_append] at h
      cases index with
      | zero =>
        obtain rfl := Option.some.inj h
        exact ⟨[], sep :: rest, by simp, hp, rfl, by simp, by simp⟩
      | succ index =>
        obtain ⟨before, after, rfl, hpiece, rfl, hbefore, hafter⟩ := ih h
        refine ⟨p ++ sep :: before, after, by simp, hpiece, ?_, ?_, hafter⟩
        · rw [List.count_append, List.count_eq_zero.mpr hp, List.count_cons_self, Nat.zero_add]
        · intro b hb
          rw [List.getLast?_append, List.getLast?_cons, Option.some_or, Option.mem_some_iff] at hb
          subst hb
          cases hlast : before.getLast? with
          | none => rfl
          | some c => exact hbefore c hlast
  · rintro ⟨before, after, rfl, hpiece, rfl, hbefore, hafter⟩
    obtain ⟨front, hlength, hpieces⟩ := exists_pieces_append hbefore (piece ++ after)
    rw [List.append_assoc, hpieces, ← hlength, List.getElem?_append_right (Nat.le_refl _),
      Nat.sub_self]
    cases after with
    | nil =>
      rw [List.append_nil, pieces_of_not_mem hpiece]
      rfl
    | cons b rest =>
      obtain rfl := hafter b rfl
      rw [pieces_append_cons, pieces_of_not_mem hpiece]
      rfl

/-- The lines of a text that is not empty, by the number of newlines before them: each is what
stands there, without its last byte if that is a carriage return. -/
theorem getElem?_lines_eq_some_iff (h : s ≠ []) {index : Nat} {line : Bytes} :
    (lines s)[index]? = some line ↔
      ∃ piece, PieceAt newline s index piece ∧
        (piece = line ++ [carriageReturn] ∨
          piece = line ∧ piece.getLast? ≠ some carriageReturn) := by
  rw [lines_of_ne_nil h, List.getElem?_map, Option.map_eq_some_iff]
  simp only [getElem?_pieces_eq_some_iff, Bytes.dropFinal_eq_iff]

end Lines

/-- Cutting a text into fields loses no byte but separators and invents none: the fields are not
empty and free of separators, one after the other they are the text without its separators, and
they are the bytes in the spans of a scan, where two bytes of the text fall in the same one exactly
if no separator stands between them. The texts with the same fields are those that have them in
order, with one or more separators between two of them and any number at either end.

Of a text that is not empty, there is one line more than there are newlines. No line has one, and
each is what stands between two of them, less one carriage return at its end if there is any. -/
theorem cutting_loses_nothing (s : Bytes) :
    (∀ sep : UInt8,
      (∀ field ∈ fields sep s, field ≠ [] ∧ sep ∉ field) ∧
      (fields sep s).flatten = s.filter (· ≠ sep) ∧
      (spans sep s).map (·.bytes s) = fields sep s ∧
      (∀ (i j : Nat) (b c : UInt8), s[i]? = some b → s[j]? = some c → b ≠ sep → c ≠ sep →
        (Together sep s i j ↔ ¬ Parted sep s i j)) ∧
      ∀ t, fields sep t = fields sep s ↔ Spaced sep (fields sep s) t) ∧
    (s ≠ [] →
      (lines s).length = s.count newline + 1 ∧
      (∀ line ∈ lines s, newline ∉ line) ∧
      ∀ index line, (lines s)[index]? = some line ↔
        ∃ piece, PieceAt newline s index piece ∧
          (piece = line ++ [carriageReturn] ∨
            piece = line ∧ piece.getLast? ≠ some carriageReturn)) := by
  refine ⟨fun sep => ⟨fun field hfield => ?_, flatten_fields sep s, map_bytes_spans sep s, ?_, ?_⟩,
    fun hne => ⟨?_, fun line hline => (mem_lines hline).1, ?_⟩⟩
  · obtain ⟨hfull, hfree, -⟩ := mem_fields hfield
    exact ⟨hfull, hfree⟩
  · intro i j b c hi hj hb hc
    exact together_iff_not_parted hi hj hb hc
  · exact fun t => fields_eq_fields_iff
  · rw [lines_of_ne_nil hne, List.length_map, length_pieces]
  · exact fun index line => getElem?_lines_eq_some_iff hne

/-- Spaces at the front and in a row, a blank line, and lines that end in carriage returns. -/
def ragged : Bytes :=
  utf8 "  7\r\r\n\n JMP  x\r"

theorem cutting_loses_nothing_ragged :
    Together space ragged 8 10 ∧ ¬ Together space ragged 10 13 ∧
    fields space (utf8 "7\r\r\n\n JMP x\r   ") = fields space ragged ∧
    ragged ≠ [] ∧ (lines ragged).length = 3 ∧ (lines ragged)[0]? = some (utf8 "  7\r") := by
  obtain ⟨hfields, hlines⟩ := cutting_loses_nothing ragged
  obtain ⟨-, -, -, htogether, hspaced⟩ := hfields space
  have hne : ragged ≠ [] := by decide
  obtain ⟨hlength, -, hline⟩ := hlines hne
  have hwords : fields space ragged = [utf8 "7\r\r\n\n", utf8 "JMP", utf8 "x\r"] := by decide
  refine ⟨?_, ?_, ?_, hne, hlength, ?_⟩
  · refine (htogether 8 10 74 80 (by decide) (by decide) (by decide) (by decide)).mpr ?_
    rintro ⟨k, hlow, hhigh, hsep⟩
    obtain rfl : k = 9 := by omega
    revert hsep
    decide
  · refine mt (htogether 10 13 80 120 (by decide) (by decide) (by decide) (by decide)).mp ?_
    exact not_not_intro ⟨11, by decide, by decide, by decide⟩
  · rw [hspaced, hwords]
    exact .next 0 (utf8 "7\r\r\n\n") (.next 0 (utf8 "JMP") (.next 0 (utf8 "x\r") (.blank 2)))
  · refine (hline 0 _).mpr ⟨utf8 "  7\r\r", ?_, .inl (by decide)⟩
    refine ⟨[], utf8 "\n\n JMP  x\r", by decide, by decide, rfl, (fun b hb => nomatch hb), ?_⟩
    exact fun b hb => (Option.some.inj hb).symm

end StackMachine.Text
