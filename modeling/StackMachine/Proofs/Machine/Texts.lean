import StackMachine.Proofs.Fault
import StackMachine.Proofs.Machine.Limits

/-! What a machine writes. Instructions that add well-formed texts only keep the texts of a state
well-formed over a whole run, and what a run fails with is well-formed too. -/
namespace StackMachine

open Text.Utf8

/-- The output is well-formed, and so is what went to any diagnostic writer. -/
structure State.Textual (s : State) : Prop where
  output : valid s.output = true
  diagnostics (w : Writer) : valid (s.reported.textOf w) = true

/-- What the verdict says is well-formed. -/
def Verdict.Textual : Verdict → Prop
  | .proceed | .halt => True
  | .fail fault _ => valid fault.message = true
  | .crash message => valid message = true

/-- What the signal of a step says is well-formed. -/
def Signal.Textual : Signal → Prop
  | .more | .halted => True
  | .failed fault => valid fault.message = true
  | .crashed message => valid message = true

/-- What the outcome of a run says is well-formed. -/
def Outcome.Textual : Outcome → Prop
  | .halted => True
  | .failed fault => valid fault.message = true
  | .crashed message => valid message = true

/-- The instructions have well-formed names, only add well-formed texts, and fail or break off
with well-formed messages. -/
structure Registry.Textual (r : Registry) : Prop where
  mnemonic {e : Entry} : e ∈ r.entries → valid e.mnemonic = true
  extends_state {e : Entry} : e ∈ r.entries →
    ∀ (s : State) (arg : Int64), s.Extends (e.behavior s arg).state
  verdict {e : Entry} : e ∈ r.entries →
    ∀ (s : State) (arg : Int64), (e.behavior s arg).verdict.Textual

theorem State.Textual.of_extends {s t : State} (hs : s.Textual) (h : s.Extends t) :
    t.Textual := by
  obtain ⟨⟨text, ht, hout⟩, hdiagnostics⟩ := h
  refine ⟨?_, fun w => ?_⟩
  · rw [hout]
    exact valid_append hs.output ht
  · obtain ⟨more, hm, hdiag⟩ := hdiagnostics w
    rw [hdiag]
    exact valid_append (hs.diagnostics w) hm

theorem Interruption.valid_message_fault (why : Interruption) :
    valid why.fault.message = true := by
  cases why <;> exact Kind.valid_message _

theorem Budget.valid_message_exhausted (steps : Nat) :
    valid (Budget.exhausted steps).message = true := by
  simp [Budget.exhausted, Fault.message, Kind.valid_message]

theorem Report.valid_message_fault {report : Report} (h : report.outcome.Textual) :
    valid report.fault.message = true := by
  unfold Report.fault
  cases ho : report.outcome with
  | halted => exact valid_utf8 _
  | failed fault =>
    rw [ho] at h
    exact h
  | crashed message => exact valid_utf8 _

theorem Registry.textual_builtins : Registry.builtins.Textual where
  mnemonic he := by
    obtain ⟨b, rfl⟩ := mem_builtins he
    cases b <;> exact valid_utf8 _
  extends_state he s arg := by
    obtain ⟨b, rfl⟩ := mem_builtins he
    exact (b.acts_effect s arg).extends_state
  verdict he s arg := by
    obtain ⟨b, rfl⟩ := mem_builtins he
    rcases (b.acts_effect s arg).verdict_cases with h | h | ⟨k, h⟩
    · rw [Builtin.entry, h]
      trivial
    · rw [Builtin.entry, h]
      trivial
    · rw [Builtin.entry, h]
      exact k.valid_message

theorem Registry.Textual.append {r : Registry} {e : Entry} (hr : r.Textual)
    (hmnemonic : valid e.mnemonic = true)
    (hextends : ∀ (s : State) (arg : Int64), s.Extends (e.behavior s arg).state)
    (hverdict : ∀ (s : State) (arg : Int64), (e.behavior s arg).verdict.Textual) :
    (r.append e).Textual where
  mnemonic he := by
    rcases List.mem_append.mp he with he | he
    · exact hr.mnemonic he
    · rwa [List.mem_singleton.mp he]
  extends_state he := by
    rcases List.mem_append.mp he with he | he
    · exact hr.extends_state he
    · rwa [List.mem_singleton.mp he]
  verdict he := by
    rcases List.mem_append.mp he with he | he
    · exact hr.verdict he
    · rwa [List.mem_singleton.mp he]

private theorem Listing.valid_numberedLine (index : Nat) {name : Bytes} (arg : Int64)
    (h : valid name = true) : valid (Listing.numberedLine index name arg) = true := by
  have hfill (n : Nat) (b : UInt8) (hb : b < 0x80) : valid (List.replicate n b) = true :=
    valid_of_ascii fun c hc => (List.mem_replicate.mp hc).2 ▸ hb
  have hindex : valid (Text.Decimal.padded 4 index) = true := by
    simp [Text.Decimal.padded, hfill]
  have hcolumn : valid (Listing.column 12 name) = true :=
    valid_append h (hfill _ _ (by decide))
  simp [Listing.numberedLine, hindex, hcolumn]

section Texts

variable {r : Registry} (hr : r.Textual)

include hr

theorem Registry.Textual.describe {op : Opcode} {name : Bytes} (h : r.describe op = some name) :
    valid name = true := by
  obtain ⟨e, he, rfl⟩ := Option.map_eq_some_iff.mp h
  exact hr.mnemonic (List.mem_of_getElem? he)

theorem Registry.Textual.nameOf (op : Opcode) : valid (r.nameOf op) = true := by
  cases h : r.describe op with
  | none => simp [Registry.Tables.nameOf, h]
  | some name =>
    rw [Registry.nameOf_of_describe h]
    exact hr.describe h

theorem Listing.valid_text_fromIndex {format : Nat → Bytes → Int64 → Bytes}
    (hformat : ∀ index name arg, valid name = true → valid (format index name arg) = true)
    (index : Nat) (code : Code) : valid (Listing.fromIndex format r index code).text = true := by
  induction code generalizing index with
  | nil => rfl
  | cons i rest ih =>
    rw [Listing.fromIndex]
    cases hd : r.describe i.op with
    | none => rfl
    | some name => exact valid_append (hformat index name i.arg (hr.describe hd)) (ih (index + 1))

theorem Listing.valid_text_ofCode (code : Code) : valid (Listing.ofCode r code).text = true :=
  Listing.valid_text_fromIndex hr (fun _ _ arg h => Listing.valid_numberedLine _ arg h) 0 code

theorem Machine.valid_banner (code : Code) : valid (banner r code) = true := by
  have hplain (index : Nat) (name : Bytes) (arg : Int64) (h : valid name = true) :
      valid (Listing.plainLine index name arg) = true := by
    simp [Listing.plainLine, h]
  have hlisting := Listing.valid_text_fromIndex hr hplain 0 code
  unfold banner
  simp only
  split <;> simp [hlisting]

theorem Machine.textual_announce {s : State} (hs : s.Textual) (code : Code) :
    (announce r code s).Textual := by
  unfold announce
  split
  · have hreport := hs.of_extends (State.extends_report (Machine.valid_banner hr code))
    exact ⟨hreport.output, hreport.diagnostics⟩
  · exact hs

theorem Machine.valid_traceLine (i : Instruction) (pc : Int64) :
    valid (traceLine r i pc) = true := by
  simp [traceLine, hr.nameOf]

theorem Machine.textual_entering {s : State} (hs : s.Textual) (i : Instruction) :
    (entering r i s).Textual := by
  unfold entering
  cases s.debug with
  | false => exact ⟨hs.output, hs.diagnostics⟩
  | true =>
    have htraced := hs.of_extends (State.extends_report (Machine.valid_traceLine hr i s.pc))
    exact ⟨htraced.output, htraced.diagnostics⟩

/-- A step keeps the texts well-formed, and says well-formed things only. -/
theorem Machine.textual_step {s : State} (hs : s.Textual) (code : Code) :
    (step r code s).state.Textual ∧ (step r code s).signal.Textual := by
  have hkind (k : Kind) (op : Opcode) : (Signal.failed (.runtime (.kind k) s.pc op [])).Textual :=
    Fault.valid_message_runtime k.valid_message rfl
  cases hf : code.fetch? s.pc with
  | none =>
    rw [step_outside hf]
    exact ⟨hs, hkind _ _⟩
  | some i =>
    have hentering := Machine.textual_entering hr hs i
    cases he : r.entry? i.op with
    | none =>
      rw [step_unknown hf he]
      exact ⟨hentering, hkind _ _⟩
    | some e =>
      have hmem := List.mem_of_getElem? he
      have hverdict := hr.verdict hmem (entering r i s) i.arg
      rw [step_known hf he]
      refine ⟨hentering.of_extends (hr.extends_state hmem _ _), ?_⟩
      cases hv : (e.behavior (entering r i s) i.arg).verdict with
      | proceed => trivial
      | halt => trivial
      | fail fault more =>
        rw [hv] at hverdict
        exact Fault.valid_message_runtime hverdict (hr.mnemonic hmem)
      | crash message =>
        rw [hv] at hverdict
        exact hverdict

/-- What a run finishes with is well-formed. -/
theorem Machine.textual_finish {s : State} (hs : s.Textual) {code : Code} {f : Finish}
    (h : (step r code s).finish? = some f) : f.state.Textual ∧ f.outcome.Textual := by
  obtain ⟨hstate, hsignal⟩ := Machine.textual_step hr hs code
  unfold StepResult.finish? at h
  cases hsig : (step r code s).signal with
  | more => simp [hsig] at h
  | halted =>
    simp only [hsig, Option.some.injEq] at h
    subst h
    exact ⟨hstate, trivial⟩
  | failed fault =>
    simp only [hsig, Option.some.injEq] at h hsignal
    subst h
    exact ⟨hstate, hsignal⟩
  | crashed message =>
    simp only [hsig, Option.some.injEq] at h hsignal
    subst h
    exact ⟨hstate, hsignal⟩

/-- A run keeps the texts well-formed, and what it fails with is well-formed. -/
theorem Budget.textual_run {fuel : Nat} {context : Context} {maxSteps : Int} {code : Code}
    {s : State} (hs : s.Textual) {report : Report}
    (h : run fuel context maxSteps r code s = some report) :
    report.state.Textual ∧ report.outcome.Textual :=
  run_invariant (P := State.Textual) (Q := fun t outcome => t.Textual ∧ outcome.Textual)
    (fun _ ht => (Machine.textual_step hr ht code).1)
    (fun _ _ ht hf => Machine.textual_finish hr ht hf)
    (fun _ n ht => ⟨ht, valid_message_exhausted n⟩) (fun _ why ht => ⟨ht, why.valid_message_fault⟩)
    (Machine.textual_announce hr hs code) h

end Texts

end StackMachine
