import StackMachine.Proofs.Assembly.Grammar
import StackMachine.Proofs.Fault

/-! What is told of a program text that does not assemble: why, and that it was the assembly which
failed. The message is well-formed if the text is. -/
namespace StackMachine.Assembly

open Text.Utf8

private theorem Offends.classify {r : Registry} {ts : List Bytes} {kind : Kind} {mnemonic : Bytes}
    {cause : Fault} (h : Offends r ts kind mnemonic cause) (number : Int) (line : Bytes) :
    (Fault.assembly (.kind kind) number line mnemonic cause).classify = .assembly := by
  cases h with
  | crowded _ => rfl
  | unknown _ _ => rfl
  | @unread _ _ _ problem _ _ _ => cases problem <;> rfl

private theorem Offends.valid {r : Registry} {ts : List Bytes} {kind : Kind} {mnemonic : Bytes}
    {cause : Fault} (h : Offends r ts kind mnemonic cause) (hts : ∀ t ∈ ts, valid t = true) :
    valid mnemonic = true ∧ valid cause.message = true := by
  cases h with
  | crowded _ => exact ⟨rfl, valid_utf8 _⟩
  | unknown _ _ => exact ⟨hts _ List.mem_cons_self, valid_utf8 _⟩
  | unread _ _ _ => exact ⟨rfl, by simp [Fault.message, Kind.valid_message]⟩

/-- A program text that does not assemble is reported as such. -/
theorem classify_of_assemble {r : Registry} {source : Bytes} {fault : Fault}
    (h : assemble r source = .error fault) :
    fault.classify = .assembly ∧ fault.message ≠ [] := by
  obtain ⟨before, line, after, kind, mnemonic, cause, -, -, ho, rfl⟩ := lines_eq_error_iff.mp h
  exact ⟨ho.classify _ line, Fault.message_assembly_ne_nil _ _ _ _ _⟩

/-- Why a well-formed text does not assemble is told in a well-formed text. -/
theorem valid_message_of_assemble {r : Registry} {source : Bytes} {fault : Fault}
    (hv : valid source = true) (h : assemble r source = .error fault) :
    valid fault.message = true := by
  obtain ⟨before, line, after, kind, mnemonic, cause, hls, -, ho, rfl⟩ :=
    lines_eq_error_iff.mp h
  have hline : valid line = true := by
    have hmem : line ∈ Text.lines source := hls ▸ List.mem_append_right before List.mem_cons_self
    exact valid_of_mem_lines hv hmem
  have hts (t : Bytes) (ht : t ∈ tokens line) : valid t = true := by
    rw [← words_eq_tokens] at ht
    exact valid_of_mem_words hline ht
  obtain ⟨hm, hc⟩ := ho.valid hts
  exact Fault.valid_message_assembly kind.valid_message hline hm hc

end StackMachine.Assembly
