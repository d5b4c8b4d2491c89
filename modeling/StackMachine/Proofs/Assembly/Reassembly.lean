import StackMachine.Listing
import StackMachine.Proofs.Assembly.Grammar
import StackMachine.Proofs.Registry

/-! Listing a code instruction by instruction and assembling the lines again. The code comes
back exactly if every opcode can be read from its line, and whatever was assembled can be. -/
namespace StackMachine

/-- The opcode can be read from its line: it is registered and not shadowed, and its mnemonic is
one word of one line. -/
def Registry.Legible (r : Registry) (op : Opcode) : Prop :=
  ∃ mnemonic, r.describe op = some mnemonic ∧ r.isShadowed op = false ∧
    space ∉ mnemonic ∧ newline ∉ mnemonic

/-- The program text of a code: one instruction a line. -/
def Listing.programText (r : Registry) (code : Code) : Bytes :=
  Bytes.join [newline] (code.map (Listing.ofInstruction r))

namespace Assembly

/-- No byte of an operand separates words or lines. -/
theorem operand_bytes (arg : Int64) {b : UInt8} (hb : b ∈ Text.Decimal.ofInt64 arg) :
    b ≠ space ∧ b ≠ newline ∧ b ≠ carriageReturn := by
  rcases Text.Decimal.mem_of_spells (Text.Decimal.spells_ofInt arg.toInt) hb with h | rfl | rfl
  · refine ⟨?_, ?_, ?_⟩ <;> rintro rfl <;> exact absurd h (by decide)
  · decide
  · decide

private theorem tokens_ofInstruction {r : Registry} (hr : r.Reachable) {i : Instruction}
    {mnemonic : Bytes} (hd : r.describe i.op = some mnemonic) (hs : space ∉ mnemonic) :
    tokens (Listing.ofInstruction r i) = [mnemonic, Text.Decimal.ofInt64 i.arg] := by
  rw [← words_eq_tokens, Listing.ofInstruction, Registry.nameOf_of_describe hd]
  exact Text.words_pair (hr.describe_ne_nil hd) hs (Text.Decimal.ofInt64_ne_nil i.arg)
    fun h => (operand_bytes i.arg h).1 rfl

private theorem reads_ofInstruction {r : Registry} (hr : r.Reachable) {i : Instruction}
    (h : r.Legible i.op) : Reads r (tokens (Listing.ofInstruction r i)) (some i) := by
  obtain ⟨mnemonic, hd, hshadow, hs, _⟩ := h
  rw [tokens_ofInstruction hr hd hs]
  exact .full ((Registry.isShadowed_eq_false_iff hd).mp hshadow)
    (Text.Decimal.spells_ofInt i.arg.toInt)

private theorem newline_not_mem_ofInstruction {r : Registry} {i : Instruction}
    (h : r.Legible i.op) : newline ∉ Listing.ofInstruction r i := by
  obtain ⟨mnemonic, hd, _, _, hn⟩ := h
  rw [Listing.ofInstruction, Registry.nameOf_of_describe hd]
  intro hmem
  rcases List.mem_append.mp hmem with hmem | hmem
  · rcases List.mem_append.mp hmem with hmem | hmem
    · exact hn hmem
    · exact absurd (List.mem_singleton.mp hmem) (by decide)
  · exact (operand_bytes i.arg hmem).2.1 rfl

private theorem getLast?_ofInstruction (r : Registry) (i : Instruction) :
    (Listing.ofInstruction r i).getLast? ≠ some carriageReturn := by
  have hne := Text.Decimal.ofInt64_ne_nil i.arg
  rw [Listing.ofInstruction, List.getLast?_append_of_ne_nil _ hne]
  intro h
  exact (operand_bytes i.arg (List.mem_of_getLast? h)).2.2 rfl

/-- The lines of a program text are those of its instructions. -/
theorem lines_programText {r : Registry} {code : Code} (h : ∀ i ∈ code, r.Legible i.op) :
    Text.lines (Listing.programText r code) = code.map (Listing.ofInstruction r) := by
  refine Text.lines_join ?_ ?_ ?_ <;> rw [List.forall_mem_map]
  · exact fun i hi => newline_not_mem_ofInstruction (h i hi)
  · exact fun i _ => getLast?_ofInstruction r i
  · exact fun i _ => by simp [Listing.ofInstruction]

/-- A code whose opcodes are legible comes back from its program text. -/
theorem assemble_programText {r : Registry} (hr : r.Reachable) {code : Code}
    (h : ∀ i ∈ code, r.Legible i.op) : assemble r (Listing.programText r code) = .ok code := by
  rw [assemble, lines_programText h, lines_eq_ok_iff]
  refine ⟨code.map some, ?_, ?_⟩
  · rw [List.map_map, List.forall₂_map_left_iff, List.forall₂_map_right_iff, List.forall₂_same]
    exact fun i hi => reads_ofInstruction hr (h i hi)
  · simp [List.reduceOption]

/-- Whatever else the line of an instruction holds, one of its tokens names the opcode. -/
theorem exists_resolve_of_reads {r : Registry} {ts : List Bytes} {i : Instruction}
    (h : Reads r ts (some i)) : ∃ mnemonic ∈ ts, r.resolve mnemonic = some i.op := by
  cases h with
  | bare hres => exact ⟨_, List.mem_cons_self, hres⟩
  | full hres _ => exact ⟨_, List.mem_cons_self, hres⟩

private theorem legible_of_reads {r : Registry} (hsize : r.size < UInt32.size) {line : Bytes}
    {i : Instruction} (hn : newline ∉ line) (h : Reads r (tokens line) (some i)) :
    r.Legible i.op := by
  obtain ⟨mnemonic, hmem, hres⟩ := exists_resolve_of_reads h
  have hd := Registry.describe_of_resolve hsize hres
  obtain ⟨_, hs, hsub⟩ := Text.mem_words (words_eq_tokens line ▸ hmem)
  exact ⟨mnemonic, hd, (Registry.isShadowed_eq_false_iff hd).mpr hres, hs,
    fun h => hn (hsub _ h)⟩

/-- Assembly only gives legible opcodes. -/
theorem legible_of_assemble {r : Registry} (hsize : r.size < UInt32.size) {source : Bytes}
    {code : Code} (h : assemble r source = .ok code) : ∀ i ∈ code, r.Legible i.op := by
  intro i hi
  obtain ⟨line, hmem, hreads⟩ := exists_line_of_mem h hi
  exact legible_of_reads hsize (Text.mem_lines hmem).1 hreads

/-- A code comes back from its program text exactly if its opcodes are legible. In particular
every assembled code does. -/
theorem reassembles_iff_legible {r : Registry} (hr : r.Reachable) (hsize : r.size < UInt32.size) :
    (∀ code : Code, assemble r (Listing.programText r code) = .ok code ↔
      ∀ i ∈ code, r.Legible i.op) ∧
    ∀ (source : Bytes) (code : Code), assemble r source = .ok code →
      assemble r (Listing.programText r code) = .ok code :=
  ⟨fun _ => ⟨legible_of_assemble hsize, assemble_programText hr⟩,
    fun _ _ h => assemble_programText hr (legible_of_assemble hsize h)⟩

/-- A registry with a mnemonic that is registered twice and one that is two words. -/
def crowdedRegistry : Registry :=
  .ofEntries [⟨utf8 "A", Builtin.effect .pop⟩, ⟨utf8 "A", Builtin.effect .dup⟩,
    ⟨utf8 "A 5", Builtin.effect .add⟩]

theorem crowdedRegistry_reassembles_iff_legible :
    crowdedRegistry.Reachable ∧ crowdedRegistry.size < UInt32.size ∧
    assemble crowdedRegistry (Listing.programText crowdedRegistry [⟨1, -9223372036854775808⟩]) =
      .ok [⟨1, -9223372036854775808⟩] ∧
    assemble crowdedRegistry (Listing.programText crowdedRegistry [⟨0, 7⟩]) ≠ .ok [⟨0, 7⟩] ∧
    assemble crowdedRegistry (Listing.programText crowdedRegistry [⟨2, 7⟩]) ≠ .ok [⟨2, 7⟩] ∧
    assemble crowdedRegistry (utf8 "\n A  +07\r\n") = .ok [⟨1, 7⟩] ∧
    assemble crowdedRegistry (Listing.programText crowdedRegistry [⟨1, 7⟩]) = .ok [⟨1, 7⟩] := by
  have hr : crowdedRegistry.Reachable := by
    rw [Registry.reachable_iff]
    decide
  have hsize : crowdedRegistry.size < UInt32.size := by decide
  obtain ⟨h, hsource⟩ := reassembles_iff_legible hr hsize
  have hspaced : assemble crowdedRegistry (utf8 "\n A  +07\r\n") = .ok [⟨1, 7⟩] := rfl
  refine ⟨hr, hsize, (h _).mpr ?_, fun hc => ?_, fun hc => ?_, hspaced, hsource _ _ hspaced⟩
  · intro i hi
    rw [List.mem_singleton.mp hi]
    exact ⟨utf8 "A", rfl, by decide, by decide, by decide⟩
  · obtain ⟨_, _, hshadow, _⟩ := (h _).mp hc _ List.mem_cons_self
    exact absurd hshadow (by decide)
  · obtain ⟨mnemonic, hd, _, hs, _⟩ := (h _).mp hc _ List.mem_cons_self
    cases hd
    exact absurd hs (by decide)

end Assembly

end StackMachine
