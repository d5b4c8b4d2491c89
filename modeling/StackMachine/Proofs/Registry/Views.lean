import Mathlib.Algebra.BigOperators.Group.List.Lemmas
import Mathlib.Algebra.GroupWithZero.Nat
import Mathlib.Data.List.Induction
import StackMachine.Proofs.Registry

/-! The views of a registry. Whatever was registered and refused before, opcodes are given out in
order and keep their meaning, the two tables agree, and names and opcodes are told of in one way by
every view. -/
namespace StackMachine.Registry

/-- A registration that is asked for. -/
structure Proposal where
  mnemonic : Bytes
  behavior : Option Behavior

/-- The entry that a proposal leads to: none without a name or without a behavior. -/
def Proposal.outcome (p : Proposal) : Option Entry :=
  if p.mnemonic = [] then none else p.behavior.map fun b => ⟨p.mnemonic, b⟩

/-- The entries that proposals lead to. -/
def accepted (proposals : List Proposal) : List Entry :=
  proposals.filterMap Proposal.outcome

/-- Registers what is proposed, in order: the tables that this leads to, and the opcodes that the
successful registrations returned. A refused proposal changes nothing. -/
def Tables.registerAll (t : Tables) : List Proposal → Tables × List Opcode
  | [] => (t, [])
  | p :: rest =>
    match t.register p.mnemonic p.behavior with
    | .error _ => t.registerAll rest
    | .ok (op, next) =>
      let (last, ops) := next.registerAll rest
      (last, op :: ops)

/-- Registers what is proposed to a registry. -/
def registerAll (r : Registry) : List Proposal → Registry × List Opcode
  | [] => (r, [])
  | p :: rest =>
    match r.register p.mnemonic p.behavior with
    | .error _ => r.registerAll rest
    | .ok (op, next) =>
      let (last, ops) := next.registerAll rest
      (last, op :: ops)

section Registering

/-- An entry is made as the proposal says, or none is. -/
theorem make_of_outcome {p : Proposal} {e : Entry} (h : p.outcome = some e) :
    Entry.make p.mnemonic p.behavior = .ok e := by
  unfold Proposal.outcome at h
  split at h
  · cases h
  · rename_i hname
    obtain ⟨b, hb, rfl⟩ := Option.map_eq_some_iff.mp h
    simp [Entry.make, hname, hb]

theorem make_of_refused {p : Proposal} (h : p.outcome = none) :
    ∃ fault, Entry.make p.mnemonic p.behavior = .error fault := by
  unfold Proposal.outcome at h
  unfold Entry.make
  by_cases hname : p.mnemonic = []
  · exact ⟨.emptyMnemonic, by rw [hname]; rfl⟩
  · rw [if_neg hname, Option.map_eq_none_iff] at h
    exact ⟨.missingBehavior p.mnemonic, by rw [if_neg (by simpa using hname), h]⟩

theorem register_of_outcome {r : Registry} {p : Proposal} {e : Entry} (h : p.outcome = some e) :
    r.register p.mnemonic p.behavior = .ok (UInt32.ofNat r.size, r.append e) := by
  rw [register, make_of_outcome h]
  rfl

theorem register_of_refused {r : Registry} {p : Proposal} (h : p.outcome = none) :
    ∃ fault, r.register p.mnemonic p.behavior = .error fault := by
  obtain ⟨fault, hmake⟩ := make_of_refused h
  exact ⟨fault, by rw [register, hmake]; rfl⟩

/-- What registrations do to a registry they do to its tables. -/
theorem toTables_registerAll (r : Registry) (proposals : List Proposal) :
    r.toTables.registerAll proposals =
      ((r.registerAll proposals).1.toTables, (r.registerAll proposals).2) := by
  induction proposals generalizing r with
  | nil => rfl
  | cons p rest ih =>
    rw [registerAll, Tables.registerAll, register, Tables.register]
    cases hp : p.outcome with
    | none =>
      obtain ⟨fault, hr⟩ := make_of_refused hp
      rw [hr]
      exact ih r
    | some e =>
      have hrest := ih (r.append e)
      rw [show (r.append e).toTables = r.toTables.add e from rfl] at hrest
      rw [make_of_outcome hp]
      simp only [Except.map, hrest]

/-- Registrations add the accepted entries, and return the opcodes that follow. -/
theorem registerAll_eq (r : Registry) (proposals : List Proposal) :
    r.registerAll proposals =
      (ofEntries (r.entries ++ accepted proposals),
        (List.range' r.size (accepted proposals).length).map UInt32.ofNat) := by
  induction proposals generalizing r with
  | nil =>
    simp only [registerAll, accepted, List.filterMap_nil, List.append_nil, List.length_nil,
      List.range'_zero, List.map_nil, Prod.mk.injEq, and_true]
    exact eq_of_entries (entries_ofEntries _).symm
  | cons p rest ih =>
    rw [registerAll]
    cases hp : p.outcome with
    | none =>
      obtain ⟨fault, hr⟩ := register_of_refused (r := r) hp
      have hacc : accepted (p :: rest) = accepted rest := List.filterMap_cons_none hp
      rw [hr, hacc]
      exact ih r
    | some e =>
      have hacc : accepted (p :: rest) = e :: accepted rest := List.filterMap_cons_some hp
      have hsize : (r.append e).size = r.size + 1 := List.length_append
      rw [register_of_outcome hp, hacc]
      simp only [ih, hsize, entries_append, List.append_assoc, List.singleton_append,
        List.length_cons, List.range'_succ, List.map_cons]

theorem entries_registerAll (r : Registry) (proposals : List Proposal) :
    (r.registerAll proposals).1.entries = r.entries ++ accepted proposals := by
  rw [registerAll_eq, entries_ofEntries]

end Registering

section Views

variable {r : Registry}

theorem registrations_append (r : Registry) (e : Entry) (m : Bytes) :
    (r.append e).registrations m =
      r.registrations m ++ if e.mnemonic = m then [UInt32.ofNat r.size] else [] := by
  by_cases h : e.mnemonic = m <;>
    simp [Tables.registrations, append, Tables.size, List.zipIdx_append, h]

/-- A name means the entry that was added last under it. -/
theorem resolve_append (r : Registry) (e : Entry) (m : Bytes) :
    (r.append e).resolve m =
      if e.mnemonic = m then some (UInt32.ofNat r.size) else r.resolve m :=
  Ids.lookup_assign r.ids e.mnemonic m _

/-- A name means the last of the opcodes registered under it. -/
theorem resolve_eq_getLast? (r : Registry) (m : Bytes) :
    r.resolve m = (r.registrations m).getLast? := by
  induction r using append_induction with
  | empty => rfl
  | append r e ih =>
    rw [resolve_append, registrations_append, List.getLast?_append, ← ih]
    by_cases h : e.mnemonic = m <;> simp [h]

/-- The opcodes registered under a name are those that are described by it. -/
theorem mem_registrations_iff (hsize : r.size < UInt32.size) {m : Bytes} {op : Opcode} :
    op ∈ r.registrations m ↔ r.describe op = some m := by
  have hentry (e : Entry) (i : Nat) (h : r.entries[i]? = some e) :
      (UInt32.ofNat i).toNat = i :=
    UInt32.toNat_ofNat_of_lt' (Nat.lt_trans (List.getElem?_eq_some_iff.mp h).1 hsize)
  simp only [Tables.registrations, List.mem_map, List.mem_filter, Prod.exists, beq_iff_eq,
    List.mem_zipIdx_iff_getElem?, Tables.describe, Tables.entry?, Option.map_eq_some_iff]
  constructor
  · rintro ⟨e, i, ⟨hi, hm⟩, rfl⟩
    exact ⟨e, by rw [hentry e i hi, hi], hm⟩
  · rintro ⟨e, he, hm⟩
    exact ⟨e, op.toNat, ⟨he, hm⟩, UInt32.ofNat_toNat⟩

theorem toNat_lt_size_of_mem_registrations (hsize : r.size < UInt32.size) {m : Bytes} {op : Opcode}
    (h : op ∈ r.registrations m) : op.toNat < r.size := by
  obtain ⟨e, he, -⟩ := Option.map_eq_some_iff.mp ((mem_registrations_iff hsize).mp h)
  exact (List.getElem?_eq_some_iff.mp he).1

/-- The opcodes registered under a name are listed from the oldest to the newest. -/
theorem pairwise_registrations (r : Registry) (hsize : r.size < UInt32.size) (m : Bytes) :
    (r.registrations m).Pairwise (· < ·) := by
  induction r using append_induction with
  | empty => exact List.Pairwise.nil
  | append r e ih =>
    have hlt : r.size < UInt32.size := by
      have : (r.append e).size = r.size + 1 := List.length_append
      omega
    rw [registrations_append, List.pairwise_append]
    refine ⟨ih hlt, ?_, ?_⟩
    · split <;> simp
    · intro op hop new hnew
      -- The new opcode is above all others as long as the numbering has not come round.
      split at hnew
      · rw [List.mem_singleton.mp hnew, UInt32.lt_iff_toNat_lt, UInt32.toNat_ofNat_of_lt' hlt]
        exact toNat_lt_size_of_mem_registrations hlt hop
      · cases hnew

private theorem insertName_perm (name : Bytes) (names : List Bytes) :
    (insertName name names).Perm (name :: names) := by
  induction names with
  | nil => exact .refl _
  | cons n rest ih =>
    rw [insertName]
    split
    · exact .refl _
    · exact (ih.cons n).trans (.swap name n rest)

private theorem pairwise_insertName {name : Bytes} {names : List Bytes} (hnew : name ∉ names)
    (h : names.Pairwise (· < ·)) : (insertName name names).Pairwise (· < ·) := by
  induction names with
  | nil => simp [insertName]
  | cons n rest ih =>
    obtain ⟨hn, hrest⟩ := List.pairwise_cons.mp h
    obtain ⟨hne, hnew'⟩ := not_or.mp (fun h => hnew (List.mem_cons.mpr h))
    rw [insertName]
    split
    · rename_i hlt
      refine List.pairwise_cons.mpr ⟨fun m hm => ?_, h⟩
      rcases List.mem_cons.mp hm with rfl | hm
      · exact hlt
      · exact List.lt_trans hlt (hn m hm)
    · rename_i hle
      refine List.pairwise_cons.mpr ⟨fun m hm => ?_, ih hnew' hrest⟩
      rcases List.mem_cons.mp ((insertName_perm name rest).mem_iff.mp hm) with rfl | hm
      · exact Std.lt_of_le_of_ne hle (Ne.symm hne)
      · exact hn m hm

private theorem foldr_insertName_perm (names : List Bytes) :
    (names.foldr insertName []).Perm names := by
  induction names with
  | nil => exact .refl _
  | cons n rest ih => exact (insertName_perm n _).trans (ih.cons n)

private theorem pairwise_foldr_insertName {names : List Bytes} (h : names.Nodup) :
    (names.foldr insertName []).Pairwise (· < ·) := by
  induction names with
  | nil => exact .nil
  | cons n rest ih =>
    obtain ⟨hn, hrest⟩ := List.nodup_cons.mp h
    exact pairwise_insertName (fun hm => hn ((foldr_insertName_perm rest).mem_iff.mp hm)) (ih hrest)

theorem mem_mnemonics_iff_mem_map {m : Bytes} :
    m ∈ r.mnemonics ↔ m ∈ r.entries.map (·.mnemonic) :=
  (foldr_insertName_perm _).mem_iff.trans (r.agree.named m)

/-- The names that are listed are those that mean something. -/
theorem mem_mnemonics_iff {m : Bytes} : m ∈ r.mnemonics ↔ (r.resolve m).isSome = true := by
  rw [mem_mnemonics_iff_mem_map, resolve_eq_lastIndex, Option.isSome_map,
    ← Option.ne_none_iff_isSome, Ne, lastIndex_eq_none_iff]
  simp

theorem pairwise_mnemonics (r : Registry) : r.mnemonics.Pairwise (· < ·) :=
  pairwise_foldr_insertName r.agree.nodup

theorem length_registrations (r : Registry) (m : Bytes) :
    (r.registrations m).length = (r.entries.map (·.mnemonic)).count m := by
  induction r using append_induction with
  | empty => rfl
  | append r e ih =>
    rw [registrations_append, List.length_append, ih]
    by_cases h : e.mnemonic = m <;> simp [h]

/-- Every opcode is registered under one of the listed names. -/
theorem size_eq_sum (r : Registry) :
    r.size = (r.mnemonics.map fun m => (r.registrations m).length).sum := by
  have hnodup : r.mnemonics.Nodup := by
    refine (pairwise_mnemonics r).imp ?_
    rintro m _ hlt rfl
    exact List.lt_irrefl m hlt
  have hperm : r.mnemonics.Perm (r.entries.map (·.mnemonic)).dedup := by
    rw [List.perm_ext_iff_of_nodup hnodup (List.nodup_dedup _)]
    intro m
    rw [mem_mnemonics_iff_mem_map, List.mem_dedup]
  simp only [length_registrations]
  -- Names are counted by the equality of lists; the library counts by the decidable one.
  rw [(hperm.map _).sum_eq, lawful_beq_subsingleton List.instBEq instBEqOfDecidableEq,
    List.sum_map_count_dedup_eq_length, List.length_map, Tables.size]

/-- An opcode is shadowed if it is not the last one registered under its name. -/
theorem isShadowed_iff {op : Opcode} :
    r.isShadowed op = true ↔
      ∃ m, r.describe op = some m ∧ (r.registrations m).getLast? ≠ some op := by
  cases hop : r.describe op with
  | none => simp [Tables.isShadowed, hop]
  | some m =>
    rw [← Bool.not_eq_false, isShadowed_eq_false_iff hop, resolve_eq_getLast?]
    simp

end Views

/-- The views of the two tables tell of the same names and opcodes. -/
structure Tables.Coherent (t : Tables) : Prop where
  ascending (m : Bytes) : (t.registrations m).Pairwise (· < ·)
  registered (m : Bytes) (op : Opcode) : op ∈ t.registrations m ↔ t.describe op = some m
  latest (m : Bytes) : t.resolve m = (t.registrations m).getLast?
  resolved (m : Bytes) (op : Opcode) : t.resolve m = some op → t.describe op = some m
  shadowed (op : Opcode) : t.isShadowed op = true ↔
    ∃ m, t.describe op = some m ∧ (t.registrations m).getLast? ≠ some op
  sorted : t.mnemonics.Pairwise (· < ·)
  named (m : Bytes) : m ∈ t.mnemonics ↔ (t.resolve m).isSome = true
  counted : t.size = (t.mnemonics.map fun m => (t.registrations m).length).sum

theorem coherent_of_size_lt {r : Registry} (hsize : r.size < UInt32.size) : r.Coherent where
  ascending := pairwise_registrations r hsize
  registered _ _ := mem_registrations_iff hsize
  latest := resolve_eq_getLast? r
  resolved _ _ := describe_of_resolve hsize
  shadowed _ := isShadowed_iff
  sorted := pairwise_mnemonics r
  named _ := mem_mnemonics_iff
  counted := size_eq_sum r

/-- Whatever is proposed to empty tables: each successful registration returns the next opcode,
which has the registered name and behavior ever after, the two tables agree and their views are
coherent. The tables are those of the registry that the same proposals lead to. -/
theorem registerAll_coherent (proposals : List Proposal)
    (hfew : (accepted proposals).length < UInt32.size) :
    let reached := Tables.registerAll {} proposals
    reached.2 = (List.range (accepted proposals).length).map UInt32.ofNat ∧
    (∀ (i : Nat) (e : Entry), (accepted proposals)[i]? = some e → ∀ later : List Proposal,
      let final := (reached.1.registerAll later).1
      final.describe (UInt32.ofNat i) = some e.mnemonic ∧
        final.behavior? (UInt32.ofNat i) = some e.behavior) ∧
    reached.1.Agree ∧ reached.1.Coherent ∧
    reached.1 = (empty.registerAll proposals).1.toTables := by
  intro reached
  have hreached : reached = ((empty.registerAll proposals).1.toTables,
      (empty.registerAll proposals).2) := toTables_registerAll empty proposals
  have hentries : (empty.registerAll proposals).1.entries = accepted proposals :=
    entries_registerAll empty proposals
  rw [hreached]
  refine ⟨?_, ?_, agree _, coherent_of_size_lt ?_, rfl⟩
  · rw [registerAll_eq, List.range_eq_range']
    rfl
  · intro i e hi later final
    have hlt : i < (accepted proposals).length := (List.getElem?_eq_some_iff.mp hi).1
    have hfinal : final.entries = accepted proposals ++ accepted later := by
      rw [← hentries, ← entries_registerAll]
      exact congrArg (fun t => t.1.entries) (toTables_registerAll _ later)
    have hentry : final.entry? (UInt32.ofNat i) = some e := by
      rw [Tables.entry?, UInt32.toNat_ofNat_of_lt' (Nat.lt_trans hlt hfew), hfinal,
        List.getElem?_append_left hlt, hi]
    simp [Tables.describe, Tables.behavior?, hentry]
  · rw [Tables.size, hentries]
    exact hfew

/-- Two proposals that are refused, and one that takes over a name. -/
def takeover : List Proposal :=
  [⟨utf8 "ADD", some (Builtin.effect .add)⟩, ⟨[], some (Builtin.effect .pop)⟩,
    ⟨utf8 "SUB", none⟩, ⟨utf8 "EXIT", some (Builtin.effect .exit)⟩,
    ⟨utf8 "ADD", some (Builtin.effect .neq)⟩]

theorem registerAll_coherent_takeover :
    let t := (Tables.registerAll {} takeover).1
    (accepted takeover).length < UInt32.size ∧ (Tables.registerAll {} takeover).2 = [0, 1, 2] ∧
    (t.registerAll takeover).1.describe 0 = some (utf8 "ADD") ∧
    t.resolve (utf8 "ADD") = some 2 ∧ t.isShadowed 0 = true ∧ t.Coherent := by
  intro t
  obtain ⟨hops, hkept, -, hviews, -⟩ := registerAll_coherent takeover (by decide)
  have hshadowed : t.isShadowed 0 = true := by
    rw [hviews.shadowed]
    exact ⟨utf8 "ADD", by decide, by decide⟩
  exact ⟨by decide, hops, (hkept 0 _ rfl takeover).1, hviews.latest _, hshadowed, hviews⟩

end StackMachine.Registry
