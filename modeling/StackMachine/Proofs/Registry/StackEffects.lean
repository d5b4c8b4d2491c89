import StackMachine.Editor.Assistance
import StackMachine.Proofs.Builtin.Effects
import StackMachine.Proofs.Registry.Views
import StackMachine.Service.Handler

/-! The stack effects that are told of instructions. Opcodes are found by what was registered last
under a name, stack effects by what is built in under it. The two belong together as long as the
built-in is also what was registered last. -/
namespace StackMachine

/-- Wherever the behavior succeeds, the stack has become deeper by `pushes` and less deep by
`pops`. -/
def HasStackEffect (behavior : Behavior) (pops pushes : Int) : Prop :=
  ∀ s arg, (behavior s arg).verdict.IsSuccess →
    ((behavior s arg).state.depth : Int) - s.depth = pushes - pops

namespace Builtin

theorem hasStackEffect (b : Builtin) : HasStackEffect b.effect b.pops b.pushes := by
  intro s arg hsuccess
  rcases (reacts_effect b arg s).state_spec with ⟨-, hsucceeds⟩ | ⟨hfailure, -⟩
  · have hdepth := hsucceeds.depth
    omega
  · rcases hfailure with hfailure | hfailure <;>
      exact absurd hsuccess (by simp [hfailure, Verdict.IsSuccess])

theorem name_of_lookup {b : Builtin} {m : Bytes} (h : lookup m = some b) : b.name = m := by
  simpa using List.find?_some h

/-- The documented numbers of values fit where they are told. -/
theorem toInt_ofNat_stackEffect (b : Builtin) :
    (Int64.ofNat b.pops).toInt = b.pops ∧ (Int64.ofNat b.pushes).toInt = b.pushes := by
  cases b <;> exact ⟨rfl, rfl⟩

end Builtin

namespace Registry

/-- The entry that was added last under a name. -/
def newest (entries : List Entry) (m : Bytes) : Option Entry :=
  (entries.filter fun e => e.mnemonic == m).getLast?

theorem newest_append (entries : List Entry) (e : Entry) (m : Bytes) :
    newest (entries ++ [e]) m = if e.mnemonic = m then some e else newest entries m := by
  by_cases h : e.mnemonic = m <;> simp [newest, h]

theorem entry?_append_of_lt {r : Registry} {op : Opcode} (h : op.toNat < r.size) (e : Entry) :
    Tables.entry? (r.append e).toTables op = r.entry? op :=
  List.getElem?_append_left h

theorem entry?_append_size {r : Registry} (hsize : r.size < UInt32.size) (e : Entry) :
    Tables.entry? (r.append e).toTables (UInt32.ofNat r.size) = some e := by
  rw [Tables.entry?, entries_append, UInt32.toNat_ofNat_of_lt' hsize]
  exact List.getElem?_concat_length

/-- The opcode that a name means is that of the entry that was added last under it. -/
theorem entry?_resolve {r : Registry} (hsize : r.size < UInt32.size) (m : Bytes) :
    (r.resolve m).bind r.entry? = newest r.entries m := by
  induction r using append_induction with
  | empty => rfl
  | append r e ih =>
    have hlt : r.size < UInt32.size := by
      have : (r.append e).size = r.size + 1 := List.length_append
      omega
    rw [resolve_append, entries_append, newest_append, ← ih hlt]
    split
    · exact entry?_append_size hlt e
    · cases hop : r.resolve m with
      | none => rfl
      | some op =>
        -- An opcode that was given out before lies below the new one.
        have hmem : op ∈ r.registrations m :=
          (mem_registrations_iff hlt).mpr (describe_of_resolve hlt hop)
        exact entry?_append_of_lt (toNat_lt_size_of_mem_registrations hlt hmem) e

/-- What is told under a name: the built-in of the name, and the opcode that the name means, which
behaves as what was registered last under it. If that is the built-in, the stack effect that is
told is that of the opcode. -/
structure Explains (r : Registry) (m : Bytes) (b : Builtin) (op : Opcode) : Prop where
  name : b.name = m
  opcode : r.resolve m = some op
  behavior : ∃ e, newest r.entries m = some e ∧ r.behavior? op = some e.behavior ∧
    (e.behavior = b.effect → HasStackEffect e.behavior b.pops b.pushes)

theorem explains_of_lookup {r : Registry} (hsize : r.size < UInt32.size) {m : Bytes} {b : Builtin}
    {op : Opcode} (hb : Builtin.lookup m = some b) (hop : r.resolve m = some op) :
    r.Explains m b op := by
  obtain ⟨e, he, -⟩ := Option.map_eq_some_iff.mp (describe_of_resolve hsize hop)
  refine ⟨Builtin.name_of_lookup hb, hop, e, ?_, ?_, ?_⟩
  · rw [← entry?_resolve hsize, hop]
    exact he
  · rw [Tables.behavior?, he]
    rfl
  · intro heffect
    rw [heffect]
    exact b.hasStackEffect

/-- The information about a built-in under an opcode. -/
theorem instructionInfo_of_lookup {r : Registry} {m : Bytes} {b : Builtin} {op : Opcode}
    (hb : Builtin.lookup m = some b) (hop : r.resolve m = some op) :
    Service.instructionInfo r m =
      { mnemonic := m
        opcode := op
        stackPop := Int64.ofNat b.pops
        stackPush := Int64.ofNat b.pushes
        usesArg := b.usesOperand
        summary := b.summary } := by
  simp only [Service.instructionInfo, hb, hop, Option.getD_some]

theorem lookup_of_summary {r : Registry} {m : Bytes}
    (h : (Service.instructionInfo r m).summary ≠ []) : ∃ b, Builtin.lookup m = some b := by
  cases hb : Builtin.lookup m with
  | some b => exact ⟨b, rfl⟩
  | none => simp [Service.instructionInfo, hb] at h

/-- Whatever was registered: the stack effect that is listed for an opcode, or shown for it in an
editor, is the one of the built-in of that name; it is the one of the opcode too if the name was
last registered for that built-in. -/
theorem stack_effects_told_by_name (proposals : List Proposal)
    (hfew : (accepted proposals).length < UInt32.size) :
    let r := (empty.registerAll proposals).1
    r.entries = accepted proposals ∧
    (∀ info ∈ Service.describeRegistry r, info.summary ≠ [] →
      ∃ b, r.Explains info.mnemonic b info.opcode ∧ info.summary = b.summary ∧
        info.usesArg = b.usesOperand ∧ info.stackPop.toInt = b.pops ∧
        info.stackPush.toInt = b.pushes) ∧
    ∀ word text, Editor.documentation r word = some text → Editor.builtinNote word ≠ [] →
      ∃ b op, r.Explains word b op ∧
        text = utf8 "**" ++ word ++ utf8 "** (opcode " ++ Text.Decimal.ofNat op.toNat ++
          utf8 ")\n" ++ (utf8 "\n" ++ b.summary ++ utf8 "\n\npops " ++ Text.Decimal.ofNat b.pops ++
          utf8 ", pushes " ++ Text.Decimal.ofNat b.pushes ++
          (if b.usesOperand then utf8 ", uses its operand" else []) ++ utf8 "\n") ++
          Editor.shadowNote r word := by
  intro r
  have hentries : r.entries = accepted proposals := entries_registerAll empty proposals
  have hsize : r.size < UInt32.size := by
    rw [Tables.size, hentries]
    exact hfew
  refine ⟨hentries, ?_, ?_⟩
  · intro info hinfo hsummary
    obtain ⟨m, hm, rfl⟩ := List.mem_map.mp hinfo
    obtain ⟨op, hop⟩ := Option.isSome_iff_exists.mp (mem_mnemonics_iff.mp hm)
    obtain ⟨b, hb⟩ := lookup_of_summary hsummary
    rw [instructionInfo_of_lookup hb hop]
    exact ⟨b, explains_of_lookup hsize hb hop, rfl, rfl, b.toInt_ofNat_stackEffect⟩
  · intro word text htext hnote
    obtain ⟨op, hop, rfl⟩ := Option.map_eq_some_iff.mp htext
    cases hb : Builtin.lookup word with
    | none => simp [Editor.builtinNote, hb] at hnote
    | some b =>
      refine ⟨b, op, explains_of_lookup hsize hb hop, ?_⟩
      simp only [Editor.builtinNote, hb]
      rfl

/-- The built-ins, and further behaviors for the name of the addition. -/
def readding (behaviors : List Behavior) : List Proposal :=
  (Builtin.all.map fun b => ⟨b.name, some b.effect⟩) ++
    behaviors.map fun behavior => ⟨utf8 "ADD", some behavior⟩

/-- An instruction that does nothing. -/
def idle : Behavior :=
  fun s _ => .proceed s

/-- The name of the addition is taken over and given back. -/
theorem stack_effects_told_by_name_regained :
    let proposals := readding [idle, Builtin.effect .add]
    let r := (empty.registerAll proposals).1
    (accepted proposals).length < UInt32.size ∧
    ∃ info ∈ Service.describeRegistry r, info.mnemonic = utf8 "ADD" ∧ info.opcode = 14 ∧
      ∃ behavior, r.behavior? info.opcode = some behavior ∧
        HasStackEffect behavior info.stackPop.toInt info.stackPush.toInt := by
  intro proposals r
  have hfew : (accepted proposals).length < UInt32.size := by decide +kernel
  let info : Wire.InstructionInfo :=
    { mnemonic := utf8 "ADD"
      opcode := 14
      stackPop := 2
      stackPush := 1
      summary := Builtin.summary .add }
  have hinfo : info ∈ Service.describeRegistry r := by decide +kernel
  obtain ⟨-, hlisted, -⟩ := stack_effects_told_by_name proposals hfew
  obtain ⟨b, ⟨hname, -, e, hnewest, hbehavior, heffect⟩, -, -, hpops, hpushes⟩ :=
    hlisted info hinfo (by decide)
  have hb : b = .add := by
    cases b <;> first | rfl | exact absurd hname (by decide)
  have hregained : newest r.entries (utf8 "ADD") = some (Builtin.entry .add) := rfl
  have he : e.behavior = b.effect := by
    rw [hb, Option.some.inj (hnewest.symm.trans hregained)]
    rfl
  rw [← hpops, ← hpushes] at heffect
  exact ⟨hfew, info, hinfo, rfl, rfl, e.behavior, hbehavior, heffect he⟩

/-- The name of the addition is taken over by an instruction that does nothing, for which the stack
effect of the addition is told. -/
theorem idle_told_to_add :
    let r := (empty.registerAll (readding [idle])).1
    (∃ info ∈ Service.describeRegistry r, info.summary ≠ [] ∧
      r.behavior? info.opcode = some idle ∧
      ¬ HasStackEffect idle info.stackPop.toInt info.stackPush.toInt) ∧
    r.resolve (utf8 "ADD") = some 13 ∧ r.behavior? 13 = some idle ∧
    Editor.documentation r (utf8 "ADD") =
      some (utf8 "**ADD** (opcode 13)\n\npop b, pop a, push a+b\n\npops 2, pushes 1\n\n" ++
        utf8 "shadows opcode 4\n") ∧
    ¬ HasStackEffect idle 2 1 := by
  intro r
  have hidle : ¬ HasStackEffect idle 2 1 := by
    intro h
    exact absurd (h {} 0 (.inl rfl)) (by decide)
  let info : Wire.InstructionInfo :=
    { mnemonic := utf8 "ADD"
      opcode := 13
      stackPop := 2
      stackPush := 1
      summary := Builtin.summary .add }
  have hinfo : info ∈ Service.describeRegistry r := by decide +kernel
  exact ⟨⟨info, hinfo, by decide, rfl, hidle⟩, by decide +kernel, rfl, by decide +kernel, hidle⟩

end Registry

end StackMachine
