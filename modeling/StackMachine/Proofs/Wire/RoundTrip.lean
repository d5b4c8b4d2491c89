import StackMachine.Proofs.Wire.Messages
import StackMachine.Proofs.Wire.Standard

/-! Round trips. A codec that does what is relied on carries every message of the service: what is
written of a message is read as that message. -/
namespace StackMachine.Wire

/-- Every message, and every instruction in a code, survives the round trip; a list that is missing
is written as null, and one without elements as an array. -/
theorem messages_faithful {codec : Codec} (h : codec.Lawful) :
    (codec.Carries AssembleRequest ∧ codec.Carries AssembleResponse) ∧
    (codec.Carries RunRequest ∧ codec.Carries RunResponse) ∧
    (codec.Carries DisassembleRequest ∧ codec.Carries DisassembleResponse) ∧
    (codec.Carries InstructionsRequest ∧ codec.Carries InstructionsResponse ∧
      codec.Carries InstructionInfo) ∧
    (codec.Carries CreateSessionRequest ∧ codec.Carries CreateSessionResponse) ∧
    (codec.Carries DestroySessionRequest ∧ codec.Carries DestroySessionResponse) ∧
    codec.Carries Instruction ∧
    ∀ (α : Type) [Sendable α], codec.encode (none : Option (List α)) = [0xF6] ∧
      codec.encode (some [] : Option (List α)) = [0x80] := by
  have hc := h.faithful
  have hmissing (element : Shape) : (Shape.list element).Fits none := ⟨nofun, nofun⟩
  have hempty (element : Shape) : (Shape.list element).Fits (some []) :=
    ⟨nofun, by simp [Shape.lengths]⟩
  refine ⟨⟨hc.carries_message _, hc.carries_message _⟩,
    ⟨hc.carries_message _, hc.carries_message _⟩, ⟨hc.carries_message _, hc.carries_message _⟩,
    ⟨hc.carries_message _, hc.carries_message _, hc.carries_message _⟩,
    ⟨hc.carries_message _, hc.carries_message _⟩, ⟨hc.carries_message _, hc.carries_message _⟩,
    hc.carries (by decide), fun α _ => ⟨?_, ?_⟩⟩
  · exact h.marshal_canonical (hmissing (shape α))
  · exact h.marshal_canonical (hempty (shape α))

/-- A response with the least integer, with one at each end of the heads of one and of two bytes, and
with an output beyond ASCII. -/
def extremes : RunResponse :=
  { exit := -0x8000000000000000
    output := utf8 "é"
    line := 255
    stack := some [23, 24, -256, -257, 65535, 65536, 0x7FFFFFFFFFFFFFFF] }

theorem messages_faithful_standard :
    Codec.standard.Lawful ∧ Fits extremes ∧
    Codec.standard.decode (Codec.standard.encode extremes) = .ok extremes ∧
    Codec.standard.encode (none : Option Code) = [0xF6] := by
  obtain ⟨-, ⟨-, hresponse⟩, -, -, -, -, -, hlists⟩ := messages_faithful Codec.lawful_standard
  have hfits : Fits extremes := ⟨by decide, by decide⟩
  exact ⟨Codec.lawful_standard, hfits, hresponse.readBack extremes hfits, (hlists Instruction).1⟩

end StackMachine.Wire
