import StackMachine.Text.Fields

/-! Cutting and joining. Pieces are what the library's splitting gives, so that joining
undoes cutting; words and lines inherit what they are free of. Fields are what stands in a text
with separators between. -/
namespace StackMachine

/-- Joining with one byte is interspersing it. -/
theorem Bytes.join_eq_intercalate (sep : Bytes) (ts : List Bytes) :
    Bytes.join sep ts = sep.intercalate ts := by
  induction ts with
  | nil => rfl
  | cons t rest ih =>
    cases rest with
    | nil => simp [Bytes.join]
    | cons u rest =>
      rw [Bytes.join, ih, List.intercalate_cons_cons, List.append_assoc]
      simp

/-- At most one byte is dropped, so what is left stood there before. -/
theorem Bytes.mem_of_mem_dropFinal {byte b : UInt8} {text : Bytes}
    (h : b ∈ Bytes.dropFinal byte text) : b ∈ text := by
  unfold Bytes.dropFinal at h
  split at h
  · exact List.dropLast_subset text h
  · exact h

theorem Bytes.length_dropFinal_le (byte : UInt8) (text : Bytes) :
    (dropFinal byte text).length ≤ text.length := by
  unfold dropFinal
  split
  · rw [List.length_dropLast]
    exact Nat.sub_le _ _
  · exact Nat.le_refl _

theorem Bytes.dropFinal_concat (byte : UInt8) (text : Bytes) :
    dropFinal byte (text ++ [byte]) = text := by
  simp [dropFinal]

theorem Bytes.dropFinal_of_getLast? {byte : UInt8} {text : Bytes}
    (h : text.getLast? ≠ some byte) : Bytes.dropFinal byte text = text :=
  if_neg h

/-- What is left is the text before a final byte, or all of a text that does not end in one. -/
theorem Bytes.dropFinal_eq_iff {byte : UInt8} {text left : Bytes} :
    Bytes.dropFinal byte text = left ↔
      text = left ++ [byte] ∨ text = left ∧ text.getLast? ≠ some byte := by
  by_cases h : text.getLast? = some byte
  · obtain ⟨init, rfl⟩ := List.getLast?_eq_some_iff.mp h
    simp [dropFinal_concat]
  · have hne : text ≠ left ++ [byte] := by
      rintro rfl
      exact h List.getLast?_concat
    simp [dropFinal_of_getLast? h, h, hne]

namespace Text

/-- The words stand in the text in their order. Between two of them there are one or more
separators, and any number before the first and after the last. -/
inductive Spaced (sep : UInt8) : List Bytes → Bytes → Prop where
  | blank (count : Nat) : Spaced sep [] (List.replicate count sep)
  | last (before : Nat) (word : Bytes) :
      Spaced sep [word] (List.replicate before sep ++ word)
  | next (before : Nat) (word : Bytes) {words : List Bytes} {text : Bytes} :
      Spaced sep words text →
        Spaced sep (word :: words) (List.replicate before sep ++ word ++ sep :: text)

theorem pieces_eq_splitOn (sep : UInt8) (s : Bytes) : pieces sep s = s.splitOn sep := by
  induction s with
  | nil => simp [pieces]
  | cons b rest ih =>
    rw [pieces, ih, List.splitOn_cons_eq_if_modifyHead]
    by_cases hb : b = sep
    · simp [hb]
    · cases hp : rest.splitOn sep with
      | nil => exact absurd hp (List.splitOn_ne_nil sep rest)
      | cons p ps => simp [hb]

theorem pieces_ne_nil (sep : UInt8) (s : Bytes) : pieces sep s ≠ [] := by
  rw [pieces_eq_splitOn]
  exact List.splitOn_ne_nil sep s

/-- A separator divides the pieces before it from those after it. -/
theorem pieces_append_cons (sep : UInt8) (s t : Bytes) :
    pieces sep (s ++ sep :: t) = pieces sep s ++ pieces sep t := by
  simp only [pieces_eq_splitOn, List.splitOn_append_cons_self]

theorem pieces_of_not_mem {sep : UInt8} {s : Bytes} (h : sep ∉ s) : pieces sep s = [s] := by
  rw [pieces_eq_splitOn, List.splitOn_eq_singleton h]

/-- Texts without the separator come back from between separators. -/
theorem pieces_join {sep : UInt8} {ts : List Bytes} (hne : ts ≠ []) (h : ∀ t ∈ ts, sep ∉ t) :
    pieces sep (Bytes.join [sep] ts) = ts := by
  rw [pieces_eq_splitOn, Bytes.join_eq_intercalate, List.splitOn_intercalate sep h hne]

/-- A text is one piece, or a piece and a separator before a text. -/
theorem pieces_induction (sep : UInt8) {motive : Bytes → Prop}
    (single : ∀ p, sep ∉ p → motive p)
    (cons : ∀ p rest, sep ∉ p → motive rest → motive (p ++ sep :: rest)) (s : Bytes) :
    motive s := by
  -- What has been read of the first piece is carried along.
  have hfrom (p : Bytes) (hp : sep ∉ p) : motive (p ++ s) := by
    induction s generalizing p with
    | nil =>
      rw [List.append_nil]
      exact single p hp
    | cons b rest ih =>
      by_cases hb : b = sep
      · subst hb
        exact cons p rest hp (ih [] List.not_mem_nil)
      · have hpb : sep ∉ p ++ [b] := by simp [hp, Ne.symm hb]
        have hmotive := ih (p ++ [b]) hpb
        rwa [List.append_assoc, List.singleton_append] at hmotive
  exact hfrom [] List.not_mem_nil

/-- There is one piece more than there are separators. -/
theorem length_pieces (sep : UInt8) (s : Bytes) : (pieces sep s).length = s.count sep + 1 := by
  induction s using pieces_induction sep with
  | single p hp => rw [pieces_of_not_mem hp, List.count_eq_zero.mpr hp, List.length_singleton]
  | cons p rest hp ih =>
    rw [pieces_append_cons, pieces_of_not_mem hp, List.length_append, ih, List.count_append,
      List.count_eq_zero.mpr hp, List.count_cons_self, List.length_singleton]
    omega

/-- No piece is longer than the text. -/
theorem length_le_of_mem_pieces {sep : UInt8} {s p : Bytes} (h : p ∈ pieces sep s) :
    p.length ≤ s.length := by
  induction s using pieces_induction sep with
  | single q hq =>
    rw [pieces_of_not_mem hq, List.mem_singleton] at h
    exact Nat.le_of_eq (congrArg List.length h)
  | cons q rest hq ih =>
    rw [pieces_append_cons, pieces_of_not_mem hq, List.singleton_append, List.mem_cons] at h
    rw [List.length_append, List.length_cons]
    rcases h with rfl | hrest
    · omega
    · have hle := ih hrest
      omega

/-- A separator divides the fields before it from those after it. -/
theorem fields_append_cons (sep : UInt8) (s t : Bytes) :
    fields sep (s ++ sep :: t) = fields sep s ++ fields sep t := by
  rw [fields, pieces_append_cons, List.filter_append]
  rfl

theorem fields_of_not_mem {sep : UInt8} {s : Bytes} (h : sep ∉ s) (hne : s ≠ []) :
    fields sep s = [s] := by
  rw [fields, pieces_of_not_mem h]
  simp [hne]

theorem fields_cons_self (sep : UInt8) (s : Bytes) : fields sep (sep :: s) = fields sep s :=
  fields_append_cons sep [] s

theorem fields_replicate_append (sep : UInt8) (n : Nat) (s : Bytes) :
    fields sep (List.replicate n sep ++ s) = fields sep s := by
  induction n with
  | zero => rfl
  | succ n ih => rw [List.replicate_succ, List.cons_append, fields_cons_self, ih]

/-- A piece holds bytes of the text, and no separator. -/
theorem mem_pieces {sep : UInt8} {s p : Bytes} (h : p ∈ pieces sep s) :
    sep ∉ p ∧ ∀ b ∈ p, b ∈ s := by
  induction s generalizing p with
  | nil =>
    rw [pieces, List.mem_singleton] at h
    simp [h]
  | cons b rest ih =>
    rw [pieces] at h
    split at h
    · rcases List.mem_cons.mp h with rfl | h
      · simp
      · exact ⟨(ih h).1, fun c hc => List.mem_cons_of_mem b ((ih h).2 c hc)⟩
    · rename_i hb
      cases hp : pieces sep rest with
      | nil => exact absurd hp (pieces_ne_nil sep rest)
      | cons q qs =>
        rw [hp] at h ih
        rcases List.mem_cons.mp h with rfl | h
        · have hq := ih List.mem_cons_self
          refine ⟨fun hs => ?_, fun c hc => ?_⟩
          · rcases List.mem_cons.mp hs with rfl | hs
            · exact hb rfl
            · exact hq.1 hs
          · rcases List.mem_cons.mp hc with rfl | hc
            · exact List.mem_cons_self
            · exact List.mem_cons_of_mem b (hq.2 c hc)
        · have hr := ih (List.mem_cons_of_mem q h)
          exact ⟨hr.1, fun c hc => List.mem_cons_of_mem b (hr.2 c hc)⟩

/-- A field is a piece that is not empty. -/
theorem mem_fields {sep : UInt8} {s w : Bytes} (h : w ∈ fields sep s) :
    w ≠ [] ∧ sep ∉ w ∧ ∀ b ∈ w, b ∈ s := by
  rw [fields, List.mem_filter] at h
  exact ⟨by simpa using h.2, mem_pieces h.1⟩

section Spacing

variable {sep : UInt8} {s t : Bytes} {ws : List Bytes}

/-- Words with separators between them are the fields of their text. -/
theorem Spaced.fields_eq (h : Spaced sep ws t) (hws : ∀ w ∈ ws, w ≠ [] ∧ sep ∉ w) :
    fields sep t = ws := by
  induction h with
  | blank count =>
    rw [← List.append_nil (List.replicate count sep), fields_replicate_append]
    rfl
  | last before word =>
    obtain ⟨hne, hsep⟩ := hws word List.mem_cons_self
    rw [fields_replicate_append, fields_of_not_mem hsep hne]
  | next before word _ ih =>
    obtain ⟨⟨hne, hsep⟩, hothers⟩ := List.forall_mem_cons.mp hws
    rw [fields_append_cons, fields_replicate_append, fields_of_not_mem hsep hne, ih hothers,
      List.singleton_append]

/-- One more separator before the words leaves them apart. -/
theorem Spaced.cons (h : Spaced sep ws t) : Spaced sep ws (sep :: t) := by
  cases h with
  | blank count => exact .blank (count + 1)
  | last before word => exact .last (before + 1) word
  | next before word htail => exact .next (before + 1) word htail

/-- The fields of a text stand in it with separators between them. -/
theorem spaced_fields (sep : UInt8) (s : Bytes) : Spaced sep (fields sep s) s := by
  induction s using pieces_induction sep with
  | single p hp =>
    by_cases hne : p = []
    · subst hne
      exact .blank 0
    · rw [fields_of_not_mem hp hne]
      exact .last 0 p
  | cons p rest hp ih =>
    rw [fields_append_cons]
    by_cases hne : p = []
    · subst hne
      exact ih.cons
    · rw [fields_of_not_mem hp hne]
      exact .next 0 p ih

/-- The texts with the same fields are those in which these stand with separators between them. -/
theorem fields_eq_fields_iff : fields sep t = fields sep s ↔ Spaced sep (fields sep s) t := by
  constructor
  · intro h
    rw [← h]
    exact spaced_fields sep t
  · exact fun h => h.fields_eq fun w hw => ⟨(mem_fields hw).1, (mem_fields hw).2.1⟩

/-- The first field stands after separators and before one or the end; the other fields are those
of what follows it. -/
theorem exists_of_fields_eq_cons {w : Bytes} (h : fields sep s = w :: ws) :
    ∃ before after, s = before ++ w ++ after ∧ (∀ b ∈ before, b = sep) ∧
      (∀ b ∈ after.head?, b = sep) ∧ fields sep after = ws := by
  have hws : ∀ u ∈ ws, u ≠ [] ∧ sep ∉ u := fun u hu =>
    have hmem := mem_fields (h ▸ List.mem_cons_of_mem w hu)
    ⟨hmem.1, hmem.2.1⟩
  have hspaced : Spaced sep (w :: ws) s := h ▸ spaced_fields sep s
  cases hspaced with
  | last before => exact ⟨List.replicate before sep, [], by simp, by simp, by simp, rfl⟩
  | next before _ htail =>
    refine ⟨List.replicate before sep, _, rfl, by simp, by simp, ?_⟩
    rw [fields_cons_self, htail.fields_eq hws]

end Spacing

/-- A word is a text without spaces, and not an empty one. -/
theorem mem_words {line w : Bytes} (h : w ∈ words line) :
    w ≠ [] ∧ space ∉ w ∧ ∀ b ∈ w, b ∈ line :=
  mem_fields h

/-- Two words with a space between them are the words of their line. -/
theorem words_pair {u v : Bytes} (hu : u ≠ []) (hus : space ∉ u) (hv : v ≠ [])
    (hvs : space ∉ v) : words (u ++ [space] ++ v) = [u, v] := by
  have hspaced : Spaced space [u, v] (u ++ space :: v) := .next 0 u (.last 0 v)
  rw [words, List.append_assoc, List.singleton_append]
  exact hspaced.fields_eq (by simp [hu, hus, hv, hvs])

/-- The two words of a line stand between spaces, with at least one of these between them. -/
theorem exists_of_words_eq_pair {line u v : Bytes} (h : words line = [u, v]) :
    ∃ before between after, line = before ++ u ++ between ++ v ++ after ∧ between ≠ [] ∧
      (∀ b ∈ before, b = space) ∧ (∀ b ∈ between, b = space) ∧ ∀ b ∈ after, b = space := by
  have hspaced : Spaced space [u, v] line := h ▸ spaced_fields space line
  cases hspaced with
  | next before _ htail =>
    cases htail with
    | last between =>
      exact ⟨List.replicate before space, space :: List.replicate between space, [],
        by simp, by simp, by simp, by simp, by simp⟩
    | next between _ htail =>
      cases htail with
      | blank after =>
        exact ⟨List.replicate before space, space :: List.replicate between space,
          space :: List.replicate after space, by simp, by simp, by simp, by simp, by simp⟩

/-- Lines as they stand between newlines, where the empty text is one blank line. -/
theorem lines_of_ne_nil {s : Bytes} (h : s ≠ []) :
    lines s = (pieces newline s).map (Bytes.dropFinal carriageReturn) := by
  rw [lines, if_neg (by simpa using h)]

theorem mem_lines {s line : Bytes} (h : line ∈ lines s) :
    newline ∉ line ∧ ∀ b ∈ line, b ∈ s := by
  by_cases hs : s = []
  · simp [lines, hs] at h
  · rw [lines_of_ne_nil hs] at h
    obtain ⟨p, hp, rfl⟩ := List.mem_map.mp h
    have hm := mem_pieces hp
    exact ⟨fun hn => hm.1 (Bytes.mem_of_mem_dropFinal hn),
      fun b hb => hm.2 b (Bytes.mem_of_mem_dropFinal hb)⟩

/-- Texts of one line each, none of which ends in a carriage return, are the lines of the
text that has them between newlines. A lone empty text is the exception. -/
theorem lines_join {ts : List Bytes} (hn : ∀ t ∈ ts, newline ∉ t)
    (hr : ∀ t ∈ ts, t.getLast? ≠ some carriageReturn) (he : ∀ t ∈ ts, t ≠ []) :
    lines (Bytes.join [newline] ts) = ts := by
  cases ts with
  | nil => rfl
  | cons t rest =>
    have hj : Bytes.join [newline] (t :: rest) ≠ [] := by
      have ht := he t List.mem_cons_self
      cases rest <;> simp [Bytes.join, ht]
    rw [lines_of_ne_nil hj, pieces_join (List.cons_ne_nil t rest) hn]
    exact (List.map_congr_left fun u hu => Bytes.dropFinal_of_getLast? (hr u hu)).trans
      (List.map_id _)

end Text

end StackMachine
