import Mathlib.Data.List.TakeWhile
import StackMachine.Editor.Cursor
import StackMachine.Proofs.Text.Fields

/-! Cursors on tokens. The word under a cursor is the run of word bytes that the cursor touches;
where a token of the line is such a run, it is the token. -/
namespace StackMachine.Editor

/-- The token stands in the line from a column on, with spaces or the ends of the line around it. -/
def TokenAt (line token : Bytes) (start : Nat) : Prop :=
  ∃ before after, line = before ++ token ++ after ∧ before.length = start ∧
    (∀ b ∈ before.getLast?, b = space) ∧ ∀ b ∈ after.head?, b = space

namespace Position

/-- The column of the cursor on a line, which has none past its end. -/
def columnOn (pos : Position) (line : Bytes) : Nat :=
  min pos.character line.length

/-- The cursor is on a token of the line or at its end, but not before its first `skipped` bytes. -/
def Touches (pos : Position) (line token : Bytes) (skipped : Nat) : Prop :=
  ∃ start, TokenAt line token start ∧ start + skipped ≤ pos.columnOn line ∧
    pos.columnOn line ≤ start + token.length

end Position

theorem isWordByte_space : isWordByte space = false := by decide

theorem wordAfter_append {word after : Bytes} (hword : ∀ b ∈ word, isWordByte b = true)
    (hafter : ∀ b ∈ after.head?, isWordByte b = false) : wordAfter (word ++ after) = word := by
  have hstops : after.takeWhile isWordByte = [] := by
    cases after with
    | nil => rfl
    | cons b rest => exact List.takeWhile_cons_of_neg (by simp [hafter b rfl])
  rw [wordAfter, List.takeWhile_append_of_pos hword, hstops, List.append_nil]

theorem wordBefore_append {before word : Bytes} (hword : ∀ b ∈ word, isWordByte b = true)
    (hbefore : ∀ b ∈ before.getLast?, isWordByte b = false) :
    wordBefore (before ++ word) = word := by
  -- Read backwards, the word comes first.
  have hreversed : wordAfter (word.reverse ++ before.reverse) = word.reverse :=
    wordAfter_append (fun b hb => hword b (List.mem_reverse.mp hb))
      (by rwa [List.head?_reverse])
  rw [wordBefore, List.reverse_append]
  exact (congrArg List.reverse hreversed).trans (List.reverse_reverse word)

/-- A column that touches a run of word bytes between others has the run as its word. -/
theorem word_of_run {before word after : Bytes} (hword : ∀ b ∈ word, isWordByte b = true)
    (hbefore : ∀ b ∈ before.getLast?, isWordByte b = false)
    (hafter : ∀ b ∈ after.head?, isWordByte b = false) {column : Nat}
    (hlow : before.length ≤ column) (hhigh : column ≤ before.length + word.length) :
    wordBefore ((before ++ word ++ after).take column) ++
      wordAfter ((before ++ word ++ after).drop column) = word := by
  obtain ⟨size, rfl⟩ := Nat.exists_eq_add_of_le hlow
  have hcut : before ++ word ++ after =
      (before ++ word.take size) ++ (word.drop size ++ after) := by
    rw [List.append_assoc, List.append_assoc, ← List.append_assoc (word.take size),
      List.take_append_drop]
  have hlength : (before ++ word.take size).length = before.length + size := by
    rw [List.length_append, List.length_take, Nat.min_eq_left (by omega)]
  rw [hcut, List.take_left' hlength, List.drop_left' hlength,
    wordBefore_append (fun b hb => hword b (List.mem_of_mem_take hb)) hbefore,
    wordAfter_append (fun b hb => hword b (List.mem_of_mem_drop hb)) hafter,
    List.take_append_drop]

theorem wordAfter_prefix (s : Bytes) : wordAfter s <+: s :=
  List.takeWhile_prefix isWordByte

theorem wordBefore_suffix (s : Bytes) : wordBefore s <:+ s := by
  rw [← List.reverse_prefix, wordBefore, List.reverse_reverse]
  exact List.takeWhile_prefix isWordByte

/-- The word at a column stands in the line, and the column touches it. -/
theorem exists_of_word {line : Bytes} {column : Nat} (hcolumn : column ≤ line.length) :
    let word := wordBefore (line.take column) ++ wordAfter (line.drop column)
    (∀ b ∈ word, isWordByte b = true) ∧ ∃ before after, line = before ++ word ++ after ∧
      before.length ≤ column ∧ column ≤ before.length + word.length := by
  intro word
  refine ⟨fun b hb => ?_, ?_⟩
  · rcases List.mem_append.mp hb with hb | hb
    · exact List.mem_takeWhile_imp (List.mem_reverse.mp hb)
    · exact List.mem_takeWhile_imp hb
  · obtain ⟨before, hbefore⟩ := wordBefore_suffix (line.take column)
    obtain ⟨after, hafter⟩ := wordAfter_prefix (line.drop column)
    have hline : line = before ++ word ++ after := by
      rw [← List.append_assoc before, hbefore, List.append_assoc, hafter, List.take_append_drop]
    have hlength := congrArg List.length hbefore
    rw [List.length_append, List.length_take, Nat.min_eq_left hcolumn] at hlength
    refine ⟨before, after, hline, by omega, ?_⟩
    rw [List.length_append]
    omega

variable {text line : Bytes} {pos : Position}

theorem wordAt_of_line (h : (Text.lines text)[pos.line]? = some line) :
    wordAt text pos = wordBefore (line.take (pos.columnOn line)) ++
      wordAfter (line.drop (pos.columnOn line)) := by
  rw [wordAt, lineAt, h]
  rfl

/-- If a token ends in a run of word bytes, and what comes before the run is none of them, then the
run is the word under every cursor that touches the token from the run on. -/
theorem wordAt_of_touches {first word : Bytes} (h : (Text.lines text)[pos.line]? = some line)
    (hfirst : ∀ b ∈ first, isWordByte b = false) (hword : ∀ b ∈ word, isWordByte b = true)
    (htouches : pos.Touches line (first ++ word) first.length) : wordAt text pos = word := by
  obtain ⟨start, ⟨before, after, hline, rfl, hbefore, hafter⟩, hlow, hhigh⟩ := htouches
  have hboundary : ∀ b ∈ (before ++ first).getLast?, isWordByte b = false := by
    intro b hb
    rw [List.getLast?_append, Option.mem_def, Option.or_eq_some_iff] at hb
    rcases hb with hb | ⟨-, hb⟩
    · exact hfirst b (List.mem_of_getLast? hb)
    · rw [hbefore b hb]
      exact isWordByte_space
  have hend : ∀ b ∈ after.head?, isWordByte b = false := by
    intro b hb
    rw [hafter b hb]
    exact isWordByte_space
  rw [wordAt_of_line h]
  generalize pos.columnOn line = column at hlow hhigh ⊢
  rw [List.length_append] at hhigh
  rw [hline, ← List.append_assoc before]
  apply word_of_run hword hboundary hend
  · rwa [List.length_append]
  · rwa [List.length_append, Nat.add_assoc]

end StackMachine.Editor
