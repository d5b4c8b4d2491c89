import StackMachine.Proofs.Wire.Laws

/-! What is in the messages of the service, and what becomes of them on the way through a codec. -/
namespace StackMachine.Wire

section Contents

variable {α : Type} [Sendable α]

/-- The texts in a value. -/
def texts (a : α) : List Bytes :=
  (shape α).texts (toValue a)

/-- The numbers of elements of the lists in a value. -/
def lengths (a : α) : List Nat :=
  (shape α).lengths (toValue a)

/-- The value can be sent. -/
def Fits (a : α) : Prop :=
  Fitting (texts a) (lengths a)

theorem texts_list (values? : Option (List α)) :
    texts values? = (values?.getD []).flatMap texts := by
  cases values? with
  | none => rfl
  | some values => exact List.flatMap_map toValue (shape α).texts values

@[simp]
theorem texts_code (code : Option Code) : texts code = [] := by
  rw [texts_list, List.flatMap_eq_nil_iff]
  exact fun _ _ => rfl

@[simp]
theorem texts_stack (stack : Option (List Int64)) : texts stack = [] := by
  rw [texts_list, List.flatMap_eq_nil_iff]
  exact fun _ _ => rfl

@[simp]
theorem texts_assembleRequest (m : AssembleRequest) : texts m = [m.source] :=
  rfl

@[simp]
theorem texts_assembleResponse (m : AssembleResponse) :
    texts m = [m.listing, m.error, m.errorClass] := by
  show texts m.code ++ [m.listing, m.error, m.errorClass] = _
  simp

@[simp]
theorem texts_runRequest (m : RunRequest) : texts m = [m.source, m.sessionId] := by
  show [m.source] ++ (texts m.code ++ [m.sessionId]) = _
  simp

@[simp]
theorem texts_runResponse (m : RunResponse) :
    texts m = [m.output, m.diagnostics, m.error, m.errorClass] := by
  show [m.output, m.diagnostics, m.error, m.errorClass] ++ (texts m.stack ++ []) = _
  simp

@[simp]
theorem texts_disassembleResponse (m : DisassembleResponse) :
    texts m = [m.listing, m.error, m.errorClass] :=
  rfl

@[simp]
theorem texts_instructionInfo (m : InstructionInfo) : texts m = [m.mnemonic, m.summary] :=
  rfl

@[simp]
theorem texts_instructionsResponse (m : InstructionsResponse) :
    texts m = (m.instructions.getD []).flatMap texts := by
  show texts m.instructions ++ [] = _
  rw [List.append_nil, texts_list]

end Contents

/-- The values of a type that fit are read back from their bytes, and no two of them have the same
bytes. -/
structure Codec.Carries (codec : Codec) (α : Type) [Sendable α] : Prop where
  readBack : ∀ a : α, Fits a → codec.decode (codec.encode a) = .ok a
  injective : ∀ a b : α, Fits a → Fits b → codec.encode a = codec.encode b → a = b

theorem Codec.Faithful.carries {codec : Codec} (h : codec.Faithful) {α : Type} [Sendable α]
    (hadmitted : (shape α).admitted maxDepth = true) : codec.Carries α := by
  have hread : ∀ a : α, Fits a → codec.decode (codec.encode a) = .ok a := by
    intro a hfits
    rw [decode, encode, h.unmarshal_marshal hadmitted hfits]
    exact congrArg Except.ok (ofValue_toValue a)
  refine ⟨hread, fun a b ha hb heq => ?_⟩
  have hb' := hread b hb
  rw [← heq, hread a ha] at hb'
  exact Except.ok.inj hb'

theorem Codec.Faithful.carries_message {codec : Codec} (h : codec.Faithful) (α : Type)
    [Message α] : codec.Carries α :=
  h.carries Message.admitted

end StackMachine.Wire
