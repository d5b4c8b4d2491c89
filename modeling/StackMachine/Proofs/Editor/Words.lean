import Mathlib.Data.List.DropRight
import StackMachine.Proofs.Editor.Cursor

/-! Words under cursors, read byte by byte. Two scans start from the column of the cursor, which is
inside the line or at its end, and neither reads a byte outside the line. What they cut out is the
longest run of word bytes that the column touches; what comes before the column is the fragment
that is completed. -/
namespace StackMachine.Editor

/-- Goes back from a column over word bytes and tells where they begin; `none` if a byte is read
outside the line. -/
def scanBack (row : Bytes) : Nat → Option Nat
  | 0 => some 0
  | column + 1 =>
    match row[column]? with
    | none => none
    | some b => if isWordByte b then scanBack row column else some (column + 1)

/-- Goes on from a column over word bytes and tells where they end; `none` if a byte is read outside
the line. -/
def scanOn (row : Bytes) (column : Nat) : Option Nat :=
  if column < row.length then
    match row[column]? with
    | none => none
    | some b => if isWordByte b then scanOn row (column + 1) else some column
  else some column
termination_by row.length - column

/-- The bytes between two columns; `none` if they are not in order or not inside the line. -/
def slice? (row : Bytes) (start stop : Nat) : Option Bytes :=
  if start ≤ stop ∧ stop ≤ row.length then some ((row.take stop).drop start) else none

/-- The part of the word under the cursor that stands before it, by scanning; `none` if that leaves
the line. -/
def scanFragment (text : Bytes) (pos : Position) : Option Bytes :=
  match lineAt text pos with
  | none => some []
  | some (row, column) => (scanBack row column).bind fun start => slice? row start column

/-- The word under the cursor, by scanning in both directions; `none` if that leaves the line. -/
def scanWord (text : Bytes) (pos : Position) : Option Bytes :=
  match lineAt text pos with
  | none => some []
  | some (row, column) =>
    (scanBack row column).bind fun start => (scanOn row column).bind fun stop =>
      slice? row start stop

/-- All bytes between two columns belong to words, and a third column touches them: it lies between
the two or is one of them. -/
structure RunAt (row : Bytes) (column start stop : Nat) : Prop where
  start_le : start ≤ column
  le_stop : column ≤ stop
  inside : stop ≤ row.length
  words : ∀ (k : Nat) (b : UInt8), start ≤ k → k < stop → row[k]? = some b → isWordByte b = true

/-- No run that touches the column goes beyond this one in either direction. -/
structure LongestAt (row : Bytes) (column start stop : Nat) : Prop where
  run : RunAt row column start stop
  longest : ∀ start' stop', RunAt row column start' stop' → start ≤ start' ∧ stop' ≤ stop

/-- No byte next to the column belongs to a word. -/
def BareAt (row : Bytes) (column : Nat) : Prop :=
  (∀ (k : Nat) (b : UInt8), k + 1 = column → row[k]? = some b → isWordByte b = false) ∧
    ∀ b : UInt8, row[column]? = some b → isWordByte b = false

section Line

variable {row : Bytes} {column : Nat}

theorem wordBefore_concat (s : Bytes) (b : UInt8) :
    wordBefore (s ++ [b]) = if isWordByte b then wordBefore s ++ [b] else [] :=
  List.rtakeWhile_concat ..

theorem wordAfter_cons (b : UInt8) (s : Bytes) :
    wordAfter (b :: s) = if isWordByte b then b :: wordAfter s else [] :=
  List.takeWhile_cons

theorem take_succ_of_getElem? {b : UInt8} (h : row[column]? = some b) :
    row.take (column + 1) = row.take column ++ [b] := by
  rw [List.take_add_one, h]
  rfl

/-- Going back, every byte is read inside the line, and the scan stops where the word begins. -/
theorem scanBack_eq (hcolumn : column ≤ row.length) :
    ∃ start, scanBack row column = some start ∧
      start + (wordBefore (row.take column)).length = column := by
  induction column with
  | zero => exact ⟨0, rfl, rfl⟩
  | succ column ih =>
    have hread : row[column]? = some row[column] := List.getElem?_eq_getElem hcolumn
    obtain ⟨start, hscan, hstart⟩ := ih (Nat.le_of_succ_le hcolumn)
    simp only [scanBack, hread, take_succ_of_getElem? hread, wordBefore_concat]
    cases isWordByte row[column] with
    | true =>
      refine ⟨start, hscan, ?_⟩
      rw [if_pos rfl, List.length_append, List.length_singleton, ← Nat.add_assoc, hstart]
    | false => exact ⟨column + 1, rfl, rfl⟩

/-- Going on, every byte is read inside the line, and the scan stops where the word ends. -/
theorem scanOn_eq (hcolumn : column ≤ row.length) :
    scanOn row column = some (column + (wordAfter (row.drop column)).length) := by
  fun_induction scanOn row column with
  | case1 column hlt hread =>
    rw [List.getElem?_eq_getElem hlt] at hread
    cases hread
  | case2 column hlt b hread hword ih =>
    obtain ⟨_, rfl⟩ := List.getElem?_eq_some_iff.mp hread
    rw [ih hlt, List.drop_eq_getElem_cons hlt, wordAfter_cons, if_pos hword, List.length_cons,
      Nat.add_assoc, Nat.add_comm 1]
  | case3 column hlt b hread hword =>
    obtain ⟨_, rfl⟩ := List.getElem?_eq_some_iff.mp hread
    rw [List.drop_eq_getElem_cons hlt, wordAfter_cons, if_neg hword]
    rfl
  | case4 column hge =>
    rw [List.drop_of_length_le (Nat.le_of_not_lt hge)]
    rfl

/-- The word at a column stands in the line between bytes that belong to no word, and the column
divides it into what is before and what is after it. -/
theorem exists_around_word (row : Bytes) (column : Nat) :
    ∃ before after, row.take column = before ++ wordBefore (row.take column) ∧
      row.drop column = wordAfter (row.drop column) ++ after ∧
      (∀ b ∈ before.getLast?, isWordByte b = false) ∧ ∀ b ∈ after.head?, isWordByte b = false := by
  have hstops (s : Bytes) : ∀ b ∈ (s.dropWhile isWordByte).head?, isWordByte b = false := by
    intro b hb
    have hhead := List.head?_dropWhile_not isWordByte s
    rwa [hb] at hhead
  refine ⟨(row.take column).rdropWhile isWordByte, (row.drop column).dropWhile isWordByte,
    List.rdropWhile_append_rtakeWhile.symm, List.takeWhile_append_dropWhile.symm, ?_, hstops _⟩
  rw [List.rdropWhile, List.getLast?_reverse]
  exact hstops _

theorem slice?_append (before word after : Bytes) :
    slice? (before ++ word ++ after) before.length (before.length + word.length) = some word := by
  have hinside : before.length + word.length ≤ (before ++ word ++ after).length := by
    simp only [List.length_append]
    omega
  rw [slice?, if_pos ⟨Nat.le_add_right _ _, hinside⟩, List.take_left' List.length_append,
    List.drop_left]

/-- A run of word bytes between bytes that are none is the longest one at each column that touches
it. -/
theorem longestAt_of_around {before word after : Bytes} (hword : ∀ b ∈ word, isWordByte b = true)
    (hbefore : ∀ b ∈ before.getLast?, isWordByte b = false)
    (hafter : ∀ b ∈ after.head?, isWordByte b = false) (hlow : before.length ≤ column)
    (hhigh : column ≤ before.length + word.length) :
    LongestAt (before ++ word ++ after) column before.length (before.length + word.length) := by
  refine ⟨⟨hlow, hhigh, ?_, ?_⟩, fun start stop hrun => ⟨?_, ?_⟩⟩
  · simp only [List.length_append]
    omega
  · intro k b hk hk' hread
    rw [List.append_assoc, List.getElem?_append_right hk,
      List.getElem?_append_left (by omega)] at hread
    exact hword b (List.mem_of_getElem? hread)
  · -- A run that began before would take in the last byte before the word.
    by_contra hlt
    have hne : before ≠ [] := by
      rintro rfl
      exact hlt (Nat.zero_le start)
    obtain ⟨init, b, rfl⟩ := (List.eq_nil_or_concat' before).resolve_left hne
    rw [List.length_append, List.length_singleton] at hlow hlt
    have hstop := hrun.le_stop
    have hread : (init ++ [b] ++ word ++ after)[init.length]? = some b := by simp
    have hb := hrun.words init.length b (by omega) (by omega) hread
    rw [hbefore b (by simp)] at hb
    cases hb
  · -- One that ended behind would take in the first byte after it.
    by_contra hlt
    have hinside := hrun.inside
    have hstart := hrun.start_le
    have hne : after ≠ [] := by
      rintro rfl
      simp only [List.length_append, List.length_nil] at hinside
      omega
    obtain ⟨b, rest, rfl⟩ := List.exists_cons_of_ne_nil hne
    have hread : (before ++ word ++ b :: rest)[before.length + word.length]? = some b := by simp
    have hb := hrun.words (before.length + word.length) b (by omega) (by omega) hread
    rw [hafter b rfl] at hb
    cases hb

/-- Both scans succeed and come to the ends of the longest run that touches the column, which is the
word there. -/
theorem exists_scan (hcolumn : column ≤ row.length) :
    ∃ start stop, scanBack row column = some start ∧ scanOn row column = some stop ∧
      LongestAt row column start stop ∧
      slice? row start stop =
        some (wordBefore (row.take column) ++ wordAfter (row.drop column)) ∧
      slice? row start column = some (wordBefore (row.take column)) := by
  obtain ⟨start, hback, hstart⟩ := scanBack_eq hcolumn
  have hon := scanOn_eq hcolumn
  obtain ⟨before, after, htake, hdrop, hbefore, hafter⟩ := exists_around_word row column
  obtain ⟨hword, -⟩ := exists_of_word hcolumn
  have hline : row = before ++ (wordBefore (row.take column) ++ wordAfter (row.drop column)) ++
      after := by
    rw [← List.append_assoc before, ← htake, List.append_assoc, ← hdrop, List.take_append_drop]
  have hlength := congrArg List.length htake
  rw [List.length_take, Nat.min_eq_left hcolumn, List.length_append] at hlength
  obtain rfl : start = before.length := by omega
  generalize wordBefore (row.take column) = front at *
  generalize wordAfter (row.drop column) = back at *
  have hstop : column + back.length = before.length + (front ++ back).length := by
    rw [List.length_append, ← Nat.add_assoc, hstart]
  refine ⟨before.length, column + back.length, hback, hon, ?_, ?_, ?_⟩
  · rw [hstop, hline]
    exact longestAt_of_around hword hbefore hafter (by omega) (by omega)
  · rw [hstop, hline]
    exact slice?_append before (front ++ back) after
  · rw [← hstart, hline, ← List.append_assoc before, List.append_assoc _ back]
    exact slice?_append before front (back ++ after)

theorem wordBefore_eq_nil_iff (hcolumn : column ≤ row.length) :
    wordBefore (row.take column) = [] ↔
      ∀ (k : Nat) (b : UInt8), k + 1 = column → row[k]? = some b → isWordByte b = false := by
  cases column with
  | zero => exact iff_of_true rfl fun k _ hk => nomatch hk
  | succ column =>
    have hread : row[column]? = some row[column] := List.getElem?_eq_getElem hcolumn
    rw [take_succ_of_getElem? hread, wordBefore_concat]
    constructor
    · intro hnil k b hk hb
      obtain rfl := Nat.succ.inj hk
      obtain rfl := Option.some.inj (hread.symm.trans hb)
      simpa using hnil
    · intro hnone
      rw [hnone column _ rfl hread]
      rfl

theorem wordAfter_eq_nil_iff :
    wordAfter (row.drop column) = [] ↔
      ∀ b : UInt8, row[column]? = some b → isWordByte b = false := by
  rw [← List.head?_drop]
  cases row.drop column with
  | nil => simp [wordAfter]
  | cons b rest => simp [wordAfter_cons]

end Line

section Cursor

variable {text row : Bytes} {pos : Position}

theorem lineAt_of_line (h : (Text.lines text)[pos.line]? = some row) :
    lineAt text pos = some (row, pos.columnOn row) := by
  rw [lineAt, h]
  rfl

theorem fragmentAt_of_line (h : (Text.lines text)[pos.line]? = some row) :
    fragmentAt text pos = wordBefore (row.take (pos.columnOn row)) := by
  rw [fragmentAt, lineAt_of_line h]

theorem columnOn_of_length_le (h : row.length ≤ pos.character) :
    pos.columnOn row = row.length :=
  Nat.min_eq_right h

end Cursor

/-- The word under a cursor and the fragment before it, whatever the bytes of the text and wherever
the cursor is: scanning for them reads and cuts inside the line only, and finds them. On a line of
the text the word is the longest run of word bytes that the column touches, empty if neither
neighbour of the column is a word byte, and the fragment is the part of the run before the column,
with which the word begins. All columns from the end of the line on have the same word and fragment.
Where there is no line, both are empty. -/
theorem words_under_cursor (text : Bytes) (pos : Position) :
    scanWord text pos = some (wordAt text pos) ∧
    scanFragment text pos = some (fragmentAt text pos) ∧
    fragmentAt text pos <+: wordAt text pos ∧
    match (Text.lines text)[pos.line]? with
    | none => wordAt text pos = [] ∧ fragmentAt text pos = []
    | some row =>
      (∃ start stop, LongestAt row (pos.columnOn row) start stop ∧
        slice? row start stop = some (wordAt text pos) ∧
        slice? row start (pos.columnOn row) = some (fragmentAt text pos)) ∧
      (wordAt text pos = [] ↔ BareAt row (pos.columnOn row)) ∧
      ∀ character, row.length ≤ character →
        wordAt text ⟨pos.line, character⟩ = wordAt text ⟨pos.line, row.length⟩ ∧
        fragmentAt text ⟨pos.line, character⟩ = fragmentAt text ⟨pos.line, row.length⟩ := by
  cases hline : (Text.lines text)[pos.line]? with
  | none =>
    have hnone : lineAt text pos = none := by
      rw [lineAt, hline]
      rfl
    simp [scanWord, scanFragment, wordAt, fragmentAt, hnone]
  | some row =>
    have hcolumn : pos.columnOn row ≤ row.length := Nat.min_le_right _ _
    obtain ⟨start, stop, hback, hon, hlongest, hword, hfragment⟩ := exists_scan hcolumn
    simp only [scanWord, scanFragment, lineAt_of_line hline, hback, hon, Option.bind_some,
      wordAt_of_line hline, fragmentAt_of_line hline]
    refine ⟨hword, hfragment, List.prefix_append _ _, ⟨start, stop, hlongest, hword, hfragment⟩,
      ?_, ?_⟩
    · rw [List.append_eq_nil_iff, wordBefore_eq_nil_iff hcolumn, wordAfter_eq_nil_iff, BareAt]
    · intro character hpast
      have hhere : (Text.lines text)[(⟨pos.line, character⟩ : Position).line]? = some row := hline
      have hend : (Text.lines text)[(⟨pos.line, row.length⟩ : Position).line]? = some row := hline
      rw [wordAt_of_line hhere, wordAt_of_line hend, fragmentAt_of_line hhere,
        fragmentAt_of_line hend, columnOn_of_length_le hpast, columnOn_of_length_le (Nat.le_refl _)]
      exact ⟨rfl, rfl⟩

/-- Bytes are looked at one by one, so that the first byte of a dash, which is the number of a
letter, belongs to the word before it. -/
example : wordAt (utf8 "POP\n JMP-1—\r\n") ⟨1, 40⟩ = [] ∧
    wordAt (utf8 "POP\n JMP-1—\r\n") ⟨1, 4⟩ = utf8 "JMP-1" ++ [0xE2] := by
  decide

end StackMachine.Editor
