import Mathlib.Data.List.Induction
import StackMachine.Builtin

/-! The two tables of a registry, and what its two directions have to do with each other: a
mnemonic names an opcode exactly if the opcode was registered under it last. Every registration
keeps the tables in agreement. -/
namespace StackMachine.Registry

section Ids

/-- A name means what was written for it last. -/
theorem Ids.lookup_assign (ids : Ids) (name m : Bytes) (op : Opcode) :
    (Ids.assign name op ids).lookup m = if name = m then some op else ids.lookup m := by
  induction ids with
  | nil =>
    by_cases h : name = m
    · simp [Ids.assign, h]
    · simp [Ids.assign, List.lookup_cons, beq_eq_false_iff_ne.mpr (Ne.symm h), h]
  | cons pair rest ih =>
    obtain ⟨n, o⟩ := pair
    rw [Ids.assign]
    by_cases hn : n = name
    · subst hn
      by_cases h : n = m
      · simp [h]
      · simp [List.lookup_cons, beq_eq_false_iff_ne.mpr (Ne.symm h), h]
    · rw [if_neg hn, List.lookup_cons, List.lookup_cons, ih]
      by_cases h : m = n
      · simp [h, Ne.symm hn]
      · simp [beq_eq_false_iff_ne.mpr h]

/-- The names that mean something, in the order in which they came up. -/
theorem Ids.keys_assign (ids : Ids) (name : Bytes) (op : Opcode) :
    (Ids.assign name op ids).map Prod.fst =
      if name ∈ ids.map Prod.fst then ids.map Prod.fst else ids.map Prod.fst ++ [name] := by
  induction ids with
  | nil => rfl
  | cons pair rest ih =>
    obtain ⟨n, o⟩ := pair
    rw [Ids.assign]
    by_cases hn : n = name
    · simp [hn]
    · rw [if_neg hn, List.map_cons, ih, List.map_cons]
      by_cases h : name ∈ rest.map Prod.fst
      · rw [if_pos h, if_pos (List.mem_cons_of_mem _ h)]
      · rw [if_neg h, if_neg (by simpa [Ne.symm hn] using h), List.cons_append]

end Ids

section Agreement

/-- The position of the last entry with the mnemonic. -/
def lastIndex (mnemonic : Bytes) : List Entry → Option Nat
  | [] => none
  | e :: rest =>
    match lastIndex mnemonic rest with
    | some i => some (i + 1)
    | none => if e.mnemonic = mnemonic then some 0 else none

theorem lastIndex_append (m : Bytes) (entries : List Entry) (e : Entry) :
    lastIndex m (entries ++ [e]) =
      if e.mnemonic = m then some entries.length else lastIndex m entries := by
  induction entries with
  | nil => simp [lastIndex]
  | cons first rest ih =>
    rw [List.cons_append, lastIndex, ih]
    by_cases h : e.mnemonic = m
    · simp [h]
    · simp [h, lastIndex]

/-- The two tables agree: the names that mean something are those of the entries, each of them
stands there once, and it means the opcode of the last entry with it. -/
structure Tables.Agree (t : Tables) : Prop where
  nodup : (t.ids.map Prod.fst).Nodup
  named (m : Bytes) : m ∈ t.ids.map Prod.fst ↔ m ∈ t.entries.map (·.mnemonic)
  latest (m : Bytes) : t.ids.lookup m = (lastIndex m t.entries).map UInt32.ofNat

theorem Tables.agree_empty : Tables.Agree {} where
  nodup := List.nodup_nil
  named _ := Iff.rfl
  latest _ := rfl

/-- An entry that is written to both tables leaves them in agreement. -/
theorem Tables.Agree.add {t : Tables} (h : t.Agree) (e : Entry) : (t.add e).Agree where
  nodup := by
    rw [Tables.add, Ids.keys_assign]
    split
    · exact h.nodup
    · rename_i hnew
      exact List.nodup_append.mpr ⟨h.nodup, by simp, fun a ha b hb hab =>
        hnew (List.mem_singleton.mp hb ▸ hab ▸ ha)⟩
  named m := by
    rw [Tables.entries_add, List.map_append, List.mem_append, ← h.named, Tables.add,
      Ids.keys_assign]
    split
    · rename_i hold
      refine ⟨.inl, fun hm => hm.elim id fun hm => ?_⟩
      rw [List.mem_singleton.mp hm]
      exact hold
    · exact List.mem_append
  latest m := by
    rw [Tables.entries_add, lastIndex_append, Tables.add, Ids.lookup_assign, h.latest]
    split
    · rfl
    · rfl

theorem Tables.Agree.register {t next : Tables} (h : t.Agree) {mnemonic : Bytes}
    {behavior : Option Behavior} {op : Opcode}
    (hr : t.register mnemonic behavior = .ok (op, next)) : next.Agree := by
  rw [Tables.register] at hr
  cases he : Entry.make mnemonic behavior with
  | error fault =>
    rw [he] at hr
    cases hr
  | ok e =>
    rw [he] at hr
    cases hr
    exact h.add e

/-- What holds of the empty registry and is kept when an entry is added holds of every one. -/
theorem append_induction {motive : Registry → Prop} (empty : motive empty)
    (append : ∀ r e, motive r → motive (r.append e)) (r : Registry) : motive r := by
  have hall (entries : List Entry) : motive (ofEntries entries) := by
    induction entries using List.reverseRecOn with
    | nil => exact empty
    | append_singleton init e ih =>
      have hconcat : ofEntries (init ++ [e]) = (ofEntries init).append e :=
        eq_of_entries (by simp)
      rw [hconcat]
      exact append _ e ih
  have hr : r = ofEntries r.entries := eq_of_entries (entries_ofEntries _).symm
  rw [hr]
  exact hall r.entries

/-- The tables of a registry agree. -/
theorem agree (r : Registry) : r.Agree := by
  induction r using append_induction with
  | empty => exact Tables.agree_empty
  | append r e ih => exact ih.add e

theorem resolve_eq_lastIndex (r : Registry) (m : Bytes) :
    r.resolve m = (lastIndex m r.entries).map UInt32.ofNat :=
  r.agree.latest m

end Agreement

section Reachability

/-- The registries that successful registrations lead to from the empty one. -/
inductive Reachable : Registry → Prop where
  | empty : Reachable empty
  | register {r next : Registry} {mnemonic : Bytes} {behavior : Option Behavior} {op : Opcode} :
      Reachable r → r.register mnemonic behavior = .ok (op, next) → Reachable next

/-- A registration that succeeds adds a named entry at the next opcode. -/
theorem register_eq_ok_iff {r next : Registry} {mnemonic : Bytes} {behavior : Option Behavior}
    {op : Opcode} :
    r.register mnemonic behavior = .ok (op, next) ↔
      mnemonic ≠ [] ∧ op = UInt32.ofNat r.size ∧
        ∃ b, behavior = some b ∧ next = r.append ⟨mnemonic, b⟩ := by
  unfold register Entry.make
  by_cases hm : mnemonic = []
  · simp [hm, Except.map]
  · cases behavior with
    | none => simp [hm, Except.map]
    | some b =>
      rw [if_neg (by simpa using hm)]
      simp only [Except.map, Except.ok.injEq, Prod.mk.injEq, Option.some.injEq, exists_eq_left']
      exact ⟨fun h => ⟨hm, h.1.symm, h.2.symm⟩, fun h => ⟨h.2.1.symm, h.2.2.symm⟩⟩

/-- Every registry whose entries have names can be reached, and no other. -/
theorem reachable_iff {r : Registry} : r.Reachable ↔ ∀ e ∈ r.entries, e.mnemonic ≠ [] := by
  constructor
  · intro h
    induction h with
    | empty => exact fun e he => nomatch he
    | register _ hreg ih =>
      obtain ⟨hm, _, b, _, rfl⟩ := register_eq_ok_iff.mp hreg
      intro e he
      rcases List.mem_append.mp he with he | he
      · exact ih e he
      · rw [List.mem_singleton.mp he]
        exact hm
  · induction r using append_induction with
    | empty => exact fun _ => .empty
    | append r e ih =>
      intro h
      have hr : r.Reachable := ih fun e' he' => h e' (List.mem_append_left _ he')
      have he : e.mnemonic ≠ [] := h e (List.mem_append_right _ List.mem_cons_self)
      exact hr.register (register_eq_ok_iff.mpr ⟨he, rfl, e.behavior, rfl, rfl⟩)

theorem entries_addBuiltins (r : Registry) :
    r.addBuiltins.entries = r.entries ++ Builtin.all.map Builtin.entry := by
  have hfold (bs : List Builtin) (r : Registry) :
      (bs.foldl (fun registry b => registry.append b.entry) r).entries =
        r.entries ++ bs.map Builtin.entry := by
    induction bs generalizing r with
    | nil => simp
    | cons b rest ih => rw [List.foldl_cons, ih, entries_append]; simp
  exact hfold _ r

theorem mem_builtins {e : Entry} (h : e ∈ builtins.entries) : ∃ b : Builtin, e = b.entry := by
  rw [builtins, entries_addBuiltins] at h
  obtain ⟨b, _, rfl⟩ := List.mem_map.mp h
  exact ⟨b, rfl⟩

end Reachability

section Names

/-- There is no last entry with a mnemonic if there is none at all. -/
theorem lastIndex_eq_none_iff {mnemonic : Bytes} {entries : List Entry} :
    lastIndex mnemonic entries = none ↔ ∀ e ∈ entries, e.mnemonic ≠ mnemonic := by
  induction entries with
  | nil => simp [lastIndex]
  | cons e rest ih =>
    rw [lastIndex, List.forall_mem_cons]
    cases hr : lastIndex mnemonic rest with
    | some i =>
      constructor
      · intro h
        cases h
      · intro h
        rw [ih.mpr h.2] at hr
        cases hr
    | none => simpa using fun _ => ih.mp hr

private theorem forall_lt_succ {k : Nat} {p : Nat → Prop} :
    (∀ j, k + 1 < j → p j) ↔ ∀ j, k < j → p (j + 1) := by
  constructor
  · exact fun h j hj => h (j + 1) (by omega)
  · intro h j hj
    obtain ⟨j, rfl⟩ : ∃ i, j = i + 1 := ⟨j - 1, by omega⟩
    exact h j (by omega)

/-- The last entry with a mnemonic is one with it after which there is none. -/
theorem lastIndex_eq_some_iff {mnemonic : Bytes} {entries : List Entry} {k : Nat} :
    lastIndex mnemonic entries = some k ↔
      (entries[k]?).map (·.mnemonic) = some mnemonic ∧
        ∀ j, k < j → (entries[j]?).map (·.mnemonic) ≠ some mnemonic := by
  induction entries generalizing k with
  | nil => simp [lastIndex]
  | cons e rest ih =>
    rw [lastIndex]
    cases hr : lastIndex mnemonic rest with
    | some i =>
      cases k with
      | zero =>
        simp only [Option.some.injEq, Nat.add_eq_zero_iff, Nat.one_ne_zero, and_false, false_iff]
        intro h
        exact h.2 (i + 1) (Nat.succ_pos i) (ih.mp hr).1
      | succ k =>
        rw [Option.some.injEq, Nat.add_right_cancel_iff, ← Option.some.injEq, ← hr, ih,
          forall_lt_succ]
        rfl
    | none =>
      have hnone := lastIndex_eq_none_iff.mp hr
      have hrest (j : Nat) : (rest[j]?).map (·.mnemonic) ≠ some mnemonic := by
        intro h
        obtain ⟨e', he', hm⟩ := Option.map_eq_some_iff.mp h
        exact hnone e' (List.mem_of_getElem? he') hm
      cases k with
      | zero =>
        have htail : ∀ j, 0 < j → ((e :: rest)[j]?).map (·.mnemonic) ≠ some mnemonic := by
          intro j hj
          obtain ⟨j, rfl⟩ : ∃ i, j = i + 1 := ⟨j - 1, by omega⟩
          exact hrest j
        simpa using fun _ => htail
      | succ k =>
        refine ⟨fun h => ?_, fun h => absurd h.1 (hrest k)⟩
        by_cases he : e.mnemonic = mnemonic
        · simp [he] at h
        · simp [he] at h

private theorem toNat_ofNat_lastIndex {r : Registry} (hsize : r.size < UInt32.size)
    {mnemonic : Bytes} {k : Nat} (h : lastIndex mnemonic r.entries = some k) :
    (UInt32.ofNat k).toNat = k := by
  obtain ⟨e, he, _⟩ := Option.map_eq_some_iff.mp (lastIndex_eq_some_iff.mp h).1
  have hk : k < r.size := (List.getElem?_eq_some_iff.mp he).1
  exact UInt32.toNat_ofNat_of_lt' (Nat.lt_trans hk hsize)

/-- The opcode that a mnemonic names was registered under it. -/
theorem describe_of_resolve {r : Registry} (hsize : r.size < UInt32.size) {mnemonic : Bytes}
    {op : Opcode} (h : r.resolve mnemonic = some op) : r.describe op = some mnemonic := by
  rw [resolve_eq_lastIndex] at h
  obtain ⟨k, hk, rfl⟩ := Option.map_eq_some_iff.mp h
  rw [Tables.describe, Tables.entry?, toNat_ofNat_lastIndex hsize hk]
  exact (lastIndex_eq_some_iff.mp hk).1

/-- A mnemonic names a registered opcode, even where there are more entries than opcodes. -/
theorem isSome_describe_of_resolve {r : Registry} {mnemonic : Bytes} {op : Opcode}
    (h : r.resolve mnemonic = some op) : (r.describe op).isSome = true := by
  rw [resolve_eq_lastIndex] at h
  obtain ⟨k, hk, rfl⟩ := Option.map_eq_some_iff.mp h
  obtain ⟨e, he, _⟩ := Option.map_eq_some_iff.mp (lastIndex_eq_some_iff.mp hk).1
  have hlt : k < r.entries.length := (List.getElem?_eq_some_iff.mp he).1
  have hle : (UInt32.ofNat k).toNat ≤ k := Nat.mod_le k _
  rw [Tables.describe, Option.isSome_map, Tables.entry?,
    List.getElem?_eq_getElem (Nat.lt_of_le_of_lt hle hlt), Option.isSome_some]

/-- An opcode is named by its mnemonic unless it is shadowed. -/
theorem isShadowed_eq_false_iff {r : Registry} {mnemonic : Bytes} {op : Opcode}
    (h : r.describe op = some mnemonic) :
    r.isShadowed op = false ↔ r.resolve mnemonic = some op := by
  have hnamed : ∃ op', r.resolve mnemonic = some op' := by
    obtain ⟨e, he, rfl⟩ := Option.map_eq_some_iff.mp h
    rw [resolve_eq_lastIndex]
    cases hlast : lastIndex e.mnemonic r.entries with
    | none => exact absurd rfl (lastIndex_eq_none_iff.mp hlast e (List.mem_of_getElem? he))
    | some i => exact ⟨_, rfl⟩
  obtain ⟨op', hop'⟩ := hnamed
  simp [Tables.isShadowed, h, hop']

theorem nameOf_of_describe {r : Registry} {mnemonic : Bytes} {op : Opcode}
    (h : r.describe op = some mnemonic) : r.nameOf op = mnemonic := by
  rw [Tables.nameOf, h, Option.getD_some]

/-- In a reachable registry no opcode has the empty mnemonic. -/
theorem Reachable.describe_ne_nil {r : Registry} (hr : r.Reachable) {mnemonic : Bytes}
    {op : Opcode} (h : r.describe op = some mnemonic) : mnemonic ≠ [] := by
  obtain ⟨e, he, rfl⟩ := Option.map_eq_some_iff.mp h
  exact reachable_iff.mp hr e (List.mem_of_getElem? he)

end Names

end StackMachine.Registry
