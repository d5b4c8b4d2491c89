import StackMachine.Editor.Session
import StackMachine.Proofs.Assembly.Origins
import StackMachine.Proofs.Editor.Cursor
import StackMachine.Proofs.Registry.Views

/-! Documentation under cursors. A mnemonic that is one word for the editor is found under every
cursor on it, and what is shown for it is the opcode that assembly emits there, with the opcodes
that its name was taken over from. -/
namespace StackMachine.Editor

open Assembly (assemble tokens Origin)

/-- The first token of a line starts at a column: only spaces come before it. -/
structure LeadsAt (line token : Bytes) (start : Nat) : Prop where
  token : TokenAt line token start
  spaces : ∀ b ∈ line.take start, b = space

/-- Where a mnemonic stands: the number of its line, the line, and the column that it starts at. -/
structure Spot where
  number : Nat
  line : Bytes
  mnemonic : Bytes
  start : Nat

/-- The instruction at an address comes from the line of the spot, which begins with the
mnemonic. -/
structure Spot.Emits (spot : Spot) (r : Registry) (text : Bytes) (address : Nat) (i : Instruction) :
    Prop where
  origin : Origin r (Text.lines text) spot.number address i
  stands : (Text.lines text)[spot.number]? = some spot.line
  first : (tokens spot.line).head? = some spot.mnemonic
  leads : LeadsAt spot.line spot.mnemonic spot.start

/-- What is shown for a mnemonic: its opcode, what is known of the built-in of the name, and the
opcodes that the name was taken over from in a line of their own, if there are any. -/
def hoverText (mnemonic : Bytes) (op : Opcode) (older : List Opcode) : Bytes :=
  utf8 "**" ++ mnemonic ++ utf8 "** (opcode " ++ Text.Decimal.ofNat op.toNat ++ utf8 ")\n" ++
    builtinNote mnemonic ++
    if older = [] then []
    else
      utf8 "\nshadows opcode " ++
        Bytes.join (utf8 ", ") (older.map fun op => Text.Decimal.ofNat op.toNat) ++ utf8 "\n"

section Showing

variable {r : Registry} {mnemonic : Bytes} {op : Opcode}

/-- What is shown lists all opcodes registered under the name but the one that the name means, in
the order of their registration. -/
theorem exists_documentation (h : r.resolve mnemonic = some op) :
    ∃ older, documentation r mnemonic = some (hoverText mnemonic op older) ∧
      older ++ [op] = r.registrations mnemonic := by
  have hlast : op ∈ (r.registrations mnemonic).getLast? := by
    rw [← Registry.resolve_eq_getLast?, h]
    rfl
  refine ⟨(r.registrations mnemonic).dropLast, ?_, List.dropLast_append_getLast? op hlast⟩
  rw [documentation, h, Option.map_some, hoverText, shadowNote]
  cases (r.registrations mnemonic).dropLast with
  | nil => rfl
  | cons first rest => rfl

/-- As long as opcodes are told apart, those listed are all others with the name, and in ascending
order. -/
theorem older_spec (hsize : r.size < UInt32.size) {older : List Opcode}
    (h : older ++ [op] = r.registrations mnemonic) :
    older.Pairwise (· < ·) ∧
      ∀ other, other ∈ older ↔ r.describe other = some mnemonic ∧ other ≠ op := by
  have hsorted := r.pairwise_registrations hsize mnemonic
  rw [← h, List.pairwise_append] at hsorted
  obtain ⟨holder, -, hbelow⟩ := hsorted
  refine ⟨holder, fun other => ?_⟩
  rw [← Registry.mem_registrations_iff hsize, ← h, List.mem_append, List.mem_singleton]
  constructor
  · intro hmem
    exact ⟨.inl hmem, UInt32.ne_of_lt (hbelow other hmem op (List.mem_singleton_self op))⟩
  · rintro ⟨hmem | rfl, hne⟩
    · exact hmem
    · exact absurd rfl hne

/-- A hover on a word of an open document is answered with what is shown for the word. -/
theorem serve_hover {e : Session} {uri text note : Bytes} {pos : Position}
    (hrunning : e.machineStopped = false) (hopen : e.document? uri = some text)
    (hword : wordAt text pos ≠ []) (hnote : documentation e.registry (wordAt text pos) = some note) :
    (e.serve (.hover uri pos)).2.reply = .served (.hover note) := by
  simp [Session.serve, hopen, hword, hrunning, hnote]

end Showing

section Spots

variable {r : Registry} {text : Bytes} {code : Code} {address : Nat} {i : Instruction}

theorem exists_leadsAt {line mnemonic : Bytes} {operands : List Bytes}
    (h : tokens line = mnemonic :: operands) : ∃ start, LeadsAt line mnemonic start := by
  rw [← Assembly.words_eq_tokens] at h
  obtain ⟨before, after, rfl, hbefore, hafter, -⟩ := Text.exists_of_fields_eq_cons h
  refine ⟨before.length, ⟨before, after, rfl, rfl, ?_, hafter⟩, ?_⟩
  · exact fun b hb => hbefore b (List.mem_of_getLast? hb)
  · rw [List.append_assoc, List.take_left]
    exact hbefore

/-- Every instruction of a code comes from some spot. -/
theorem exists_emits (h : assemble r text = .ok code) (hi : code[address]? = some i) :
    ∃ spot : Spot, spot.Emits r text address i := by
  obtain ⟨number, i', horigin⟩ := Assembly.exists_origin h (List.getElem?_eq_some_iff.mp hi).1
  obtain rfl : i' = i := Option.some.inj ((horigin.getElem?_eq h).symm.trans hi)
  obtain ⟨line, hstands, hreads⟩ := horigin.exists_line
  obtain ⟨mnemonic, operands, htokens, -⟩ := hreads.exists_mnemonic
  obtain ⟨start, hleads⟩ := exists_leadsAt htokens
  exact ⟨⟨number, line, mnemonic, start⟩, horigin, hstands, by rw [htokens]; rfl, hleads⟩

namespace Spot.Emits

variable {spot : Spot} (h : spot.Emits r text address i)
include h

/-- The mnemonic at the spot names the opcode of the instruction. -/
theorem resolve_mnemonic : r.resolve spot.mnemonic = some i.op := by
  obtain ⟨line, hstands, hreads⟩ := h.origin.exists_line
  obtain rfl := Option.some.inj (hstands.symm.trans h.stands)
  obtain ⟨mnemonic, operands, htokens, hop⟩ := hreads.exists_mnemonic
  have hfirst := h.first
  rw [htokens] at hfirst
  obtain rfl := Option.some.inj hfirst
  exact hop

theorem mnemonic_ne_nil : spot.mnemonic ≠ [] := by
  have hmem : spot.mnemonic ∈ Text.words spot.line := by
    rw [Assembly.words_eq_tokens]
    exact List.mem_of_mem_head? h.first
  exact (Text.mem_words hmem).1

/-- If the mnemonic is made of word bytes, it is the word under every cursor from its start to its
end. -/
theorem wordAt_eq (hword : ∀ b ∈ spot.mnemonic, isWordByte b = true) {column : Nat}
    (hlow : spot.start ≤ column) (hhigh : column ≤ spot.start + spot.mnemonic.length) :
    wordAt text ⟨spot.number, column⟩ = spot.mnemonic := by
  obtain ⟨before, after, hline, hstart, -, -⟩ := h.leads.token
  have hinside : column ≤ spot.line.length := by
    simp only [hline, List.length_append]
    omega
  have hcolumn : (⟨spot.number, column⟩ : Position).columnOn spot.line = column :=
    Nat.min_eq_left hinside
  have htouches : (⟨spot.number, column⟩ : Position).Touches spot.line ([] ++ spot.mnemonic)
      ([] : Bytes).length := by
    refine ⟨spot.start, h.leads.token, ?_, ?_⟩
    · rwa [hcolumn]
    · rwa [hcolumn]
  exact wordAt_of_touches h.stands (by simp) hword htouches

end Spot.Emits

end Spots

/-- Hovering agrees with assembly. Every instruction of an assembled text comes from a mnemonic of the
text, for which its opcode is shown, followed by the other opcodes registered under the name: by all
of them in ascending order, as long as there are no more registrations than opcodes. A mnemonic that
is made of word bytes is the word under every cursor from its start to its end, so that this is what
a hover there is answered with. -/
theorem hover_tells_emitted_opcode {r : Registry} {text : Bytes} {code : Code}
    (h : assemble r text = .ok code) {address : Nat} {i : Instruction}
    (hi : code[address]? = some i) :
    (∃ spot : Spot, spot.Emits r text address i) ∧
    ∀ spot : Spot, spot.Emits r text address i →
      ∃ older note, documentation r spot.mnemonic = some note ∧
        note = hoverText spot.mnemonic i.op older ∧
        older ++ [i.op] = r.registrations spot.mnemonic ∧
        (r.size < UInt32.size → older.Pairwise (· < ·) ∧
          ∀ op, op ∈ older ↔ r.describe op = some spot.mnemonic ∧ op ≠ i.op) ∧
        ((∀ b ∈ spot.mnemonic, isWordByte b = true) →
          ∀ column, spot.start ≤ column → column ≤ spot.start + spot.mnemonic.length →
            wordAt text ⟨spot.number, column⟩ = spot.mnemonic ∧
            ∀ (e : Session) (uri : Bytes), e.registry = r → e.machineStopped = false →
              e.document? uri = some text →
              (e.serve (.hover uri ⟨spot.number, column⟩)).2.reply = .served (.hover note)) := by
  refine ⟨exists_emits h hi, fun spot hspot => ?_⟩
  obtain ⟨older, hnote, holder⟩ := exists_documentation hspot.resolve_mnemonic
  refine ⟨older, _, hnote, rfl, holder, fun hsize => older_spec hsize holder, ?_⟩
  intro hword column hlow hhigh
  have hfound := hspot.wordAt_eq hword hlow hhigh
  refine ⟨hfound, ?_⟩
  rintro e uri rfl hrunning hopen
  apply serve_hover hrunning hopen
  · rw [hfound]
    exact hspot.mnemonic_ne_nil
  · rw [hfound]
    exact hnote

/-- The built-ins are registered three times, and a blank line and spaces come before the mnemonic:
the cursor behind it is shown the last opcode of the name and the two others. -/
theorem hover_tells_emitted_opcode_thrice :
    let r := Registry.builtins.addBuiltins.addBuiltins
    let text := utf8 "LOAD_CONST 2\r\n\n  ADD\r\nEXIT"
    let spot : Spot := ⟨2, utf8 "  ADD", utf8 "ADD", 2⟩
    assemble r text = .ok [⟨27, 2⟩, ⟨30, 0⟩, ⟨28, 0⟩] ∧ spot.Emits r text 1 ⟨30, 0⟩ ∧
    wordAt text ⟨2, 5⟩ = utf8 "ADD" ∧ r.size < UInt32.size ∧
    documentation r (utf8 "ADD") = some (hoverText (utf8 "ADD") 30 [4, 17]) ∧
    ∀ op, op ∈ [4, 17] ↔ r.describe op = some (utf8 "ADD") ∧ op ≠ 30 := by
  intro r text spot
  have hcode : assemble r text = .ok [⟨27, 2⟩, ⟨30, 0⟩, ⟨28, 0⟩] := by rfl
  have hspot : spot.Emits r text 1 ⟨30, 0⟩ := by
    have hload : Assembly.instruction? r 1 (utf8 "LOAD_CONST 2") = .ok (some ⟨27, 2⟩) := by rfl
    have hblank : Assembly.instruction? r 2 [] = .ok none := by rfl
    have hadd : Assembly.instruction? r 3 (utf8 "  ADD") = .ok (some ⟨30, 0⟩) := by rfl
    refine ⟨?_, by rfl, by decide +kernel, ?_, by decide +kernel⟩
    · exact .there (Assembly.instruction?_eq_ok_iff.mp hload)
        (.there (Assembly.instruction?_eq_ok_iff.mp hblank)
          (.here (Assembly.instruction?_eq_ok_iff.mp hadd)))
    · exact ⟨utf8 "  ", [], by rfl, by rfl, by decide +kernel, by decide +kernel⟩
  have hsize : r.size < UInt32.size := by decide
  have hadds : ([⟨27, 2⟩, ⟨30, 0⟩, ⟨28, 0⟩] : Code)[1]? = some ⟨30, 0⟩ := rfl
  obtain ⟨-, htold⟩ := hover_tells_emitted_opcode hcode hadds
  obtain ⟨older, note, hnote, rfl, holder, hothers, hfound⟩ := htold spot hspot
  have hregistrations : r.registrations (utf8 "ADD") = [4, 17] ++ [30] := by decide +kernel
  obtain rfl : older = [4, 17] := List.append_cancel_right (holder.trans hregistrations)
  obtain ⟨hword, -⟩ := hfound (by decide +kernel) 5 (by decide) (by decide)
  exact ⟨hcode, hspot, hword, hsize, hnote, (hothers hsize).2⟩

end StackMachine.Editor
