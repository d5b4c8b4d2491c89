import StackMachine.Proofs.Builtin.Effects
import StackMachine.Proofs.Machine.Limits
import StackMachine.Proofs.Machine.Tracing

/-! What a machine of built-in instructions writes to its output. Nothing that was written is ever
taken back: every step adds to the output what the instruction that it executes writes, if it writes
anything, and a well-formed output stays so. -/
namespace StackMachine

namespace Machine

/-- Something that is done with a machine, each with a code of its own: a run is announced, or a
step is taken. -/
inductive Call where
  | announce (code : Code)
  | step (code : Code)

/-- The state that a call leads to. -/
def Call.apply (r : Registry) (s : State) : Call → State
  | .announce code => Machine.announce r code s
  | .step code => (Machine.step r code s).state

/-- The state that calls lead to, one after the other. -/
def performed (r : Registry) (calls : List Call) (s : State) : State :=
  calls.foldl (Call.apply r) s

/-- The calls of a run: it is announced and takes its steps. -/
def callsOfRun (code : Code) (steps : Nat) : List Call :=
  .announce code :: List.replicate steps (.step code)

/-- What an instruction writes: a value as a number or as a character. -/
inductive Writing where
  | number (value : Int64)
  | character (value : Int64)

/-- The bytes that are written: the decimal text of a number, and the UTF-8 form of a character,
which for a value that is no Unicode scalar value is that of U+FFFD. -/
def Writing.text : Writing → Bytes
  | .number value => utf8 (toString value.toInt)
  | .character value =>
    if 0 ≤ value.toInt ∧ value.toInt ≤ 0xD7FF ∨
        0xE000 ≤ value.toInt ∧ value.toInt ≤ 0x10FFFF then
      String.utf8EncodeChar (Char.ofNat value.toInt.toNat)
    else [0xEF, 0xBF, 0xBD]

/-- The step executes an instruction that does what the built-in does, and succeeds. -/
def Executes (r : Registry) (code : Code) (s : State) (b : Builtin) : Prop :=
  (∃ i e, code.fetch? s.pc = some i ∧ r.entry? i.op = some e ∧ e.behavior = b.effect) ∧
    ((step r code s).signal = .more ∨ (step r code s).signal = .halted)

/-- What a step writes: the top of the stack that it starts from, if it executes one of the two
instructions that write and succeeds, and nothing otherwise. -/
inductive Writes (r : Registry) (code : Code) (s : State) : Option Writing → Prop where
  | number {top : Int64} : Executes r code s .write → s.peek? = some top →
      Writes r code s (some (.number top))
  | character {top : Int64} : Executes r code s .writeChar → s.peek? = some top →
      Writes r code s (some (.character top))
  | nothing : ¬ Executes r code s .write → ¬ Executes r code s .writeChar → Writes r code s none

/-- What is written during calls, in the order of the steps that write it. -/
inductive Written (r : Registry) : State → List Call → List Writing → Prop where
  | start {s : State} : Written r s [] []
  | announce {s : State} {code : Code} {calls : List Call} {writings : List Writing} :
      Written r (announce r code s) calls writings →
        Written r s (.announce code :: calls) writings
  | step {s : State} {code : Code} {found : Option Writing} {calls : List Call}
      {writings : List Writing} :
      Writes r code s found → Written r (step r code s).state calls writings →
        Written r s (.step code :: calls) (found.toList ++ writings)

section Texts

theorem text_number (v : Int64) : (Writing.number v).text = Text.Decimal.ofInt64 v :=
  (Text.Decimal.ofInt_eq_utf8 v.toInt).symm

theorem text_character (v : Int64) : (Writing.character v).text = Builtin.character v := by
  have hneg : v < 0 ↔ v.toInt < 0 := Int64.lt_iff_toInt_lt
  have hbig : 0x10FFFF < v ↔ 0x10FFFF < v.toInt := Int64.lt_iff_toInt_lt
  simp only [Writing.text, Builtin.character, hneg, hbig]
  by_cases hscalar : 0 ≤ v.toInt ∧ v.toInt ≤ 0xD7FF ∨ 0xE000 ≤ v.toInt ∧ v.toInt ≤ 0x10FFFF
  · have hvalid : v.toInt.toNat.isValidChar := by
      unfold Nat.isValidChar
      omega
    have hcode : (Char.ofNat v.toInt.toNat).val.toNat = v.toInt.toNat := by
      rw [Char.ofNat, dif_pos hvalid]
      rfl
    rw [if_pos hscalar, if_neg (by omega), Text.Utf8.utf8EncodeChar_eq_encode, hcode]
  · rw [if_neg hscalar]
    split
    · rfl
    · have hsurrogate : Text.Utf8.isScalar v.toInt.toNat = false := by
        simp only [Text.Utf8.isScalar, Bool.or_eq_false_iff, Bool.and_eq_false_iff,
          decide_eq_false_iff_not]
        omega
      exact (Text.Utf8.encode_of_not_isScalar hsurrogate).symm

theorem Writing.valid_text (w : Writing) : Text.Utf8.valid w.text = true := by
  cases w with
  | number v => exact Text.Utf8.valid_utf8 _
  | character v =>
    rw [text_character]
    exact Builtin.valid_character v

end Texts

variable {r : Registry} {code : Code} {s : State}

section Steps

theorem output_announce (r : Registry) (code : Code) (s : State) :
    (announce r code s).output = s.output := by
  unfold announce
  split <;> rfl

private theorem output_entering (r : Registry) (i : Instruction) (s : State) :
    (entering r i s).output = s.output := by
  unfold entering
  split <;> rfl

private theorem stack_entering (r : Registry) (i : Instruction) (s : State) :
    (entering r i s).stack = s.stack := by
  unfold entering
  split <;> rfl

private theorem outputs_entering (r : Registry) (i : Instruction) (s : State) (b : Builtin) :
    b.outputs (entering r i s) = b.outputs s := by
  simp only [Builtin.outputs, State.peek?, stack_entering]

/-- A step on what a built-in does succeeds, and then adds what the built-in writes, or fails and
adds nothing. -/
private theorem step_of_effect {i : Instruction} {e : Entry} {b : Builtin}
    (hi : code.fetch? s.pc = some i) (he : r.entry? i.op = some e) (hb : e.behavior = b.effect) :
    (Executes r code s b ∧ b.needs ≤ s.depth ∧
        (step r code s).state.output = s.output ++ b.outputs s) ∨
      (¬ ((step r code s).signal = .more ∨ (step r code s).signal = .halted) ∧
        (step r code s).state.output = s.output) := by
  have hstep := step_known hi he
  have hreacts := b.reacts_effect i.arg (entering r i s)
  have hdepth : (entering r i s).depth = s.depth := congrArg List.length (stack_entering r i s)
  rw [hb] at hstep
  unfold Executes
  rw [hstep]
  generalize b.effect (entering r i s) i.arg = reaction at hreacts
  -- The instruction acts on the state after tracing, which has the same output and stack.
  rw [← output_entering r i s, ← outputs_entering r i s, ← hdepth]
  cases hreacts with
  | underflow _ hfails | division _ hfails =>
    exact .inr ⟨by simp [Reaction.fail, signalOf], hfails.output⟩
  | halt hexit hsucceeds =>
    exact .inl ⟨⟨⟨i, e, hi, he, hb⟩, .inr rfl⟩, hexit ▸ Nat.zero_le _, hsucceeds.output⟩
  | proceed _ hneeds _ hsucceeds =>
    exact .inl ⟨⟨⟨i, e, hi, he, hb⟩, .inl rfl⟩, hneeds, hsucceeds.output⟩

theorem Executes.spec {b : Builtin} (h : Executes r code s b) :
    b.needs ≤ s.depth ∧ (step r code s).state.output = s.output ++ b.outputs s := by
  obtain ⟨⟨i, e, hi, he, hb⟩, hsuccess⟩ := h
  rcases step_of_effect hi he hb with ⟨-, hspec⟩ | ⟨hfailure, -⟩
  · exact hspec
  · exact absurd hsuccess hfailure

/-- A step that executes nothing with success adds nothing to the output. -/
theorem output_step_of_not_executes (hr : r.OfBuiltins) (h : ∀ b, ¬ Executes r code s b) :
    (step r code s).state.output = s.output := by
  cases hi : code.fetch? s.pc with
  | none => rw [step_outside hi]
  | some i =>
    cases he : r.entry? i.op with
    | none =>
      rw [step_unknown hi he]
      exact output_entering r i s
    | some e =>
      obtain ⟨b, hb⟩ := hr e (List.mem_of_getElem? he)
      rcases step_of_effect hi he hb with ⟨hexecutes, -⟩ | ⟨-, houtput⟩
      · exact absurd hexecutes (h b)
      · exact houtput

/-- Of every step it can be told what it writes. -/
theorem exists_writes (r : Registry) (code : Code) (s : State) :
    ∃ found, Writes r code s found := by
  have htop (hdepth : 0 < s.depth) : ∃ top, s.peek? = some top := by
    obtain ⟨top, rest, hstack⟩ := List.exists_cons_of_length_pos hdepth
    exact ⟨top, congrArg List.head? hstack⟩
  by_cases hwrite : Executes r code s .write
  · obtain ⟨top, hpeek⟩ := htop hwrite.spec.1
    exact ⟨_, .number hwrite hpeek⟩
  · by_cases hcharacter : Executes r code s .writeChar
    · obtain ⟨top, hpeek⟩ := htop hcharacter.spec.1
      exact ⟨_, .character hcharacter hpeek⟩
    · exact ⟨_, .nothing hwrite hcharacter⟩

/-- A step adds to the output what it writes. -/
theorem Writes.output_step (hr : r.OfBuiltins) {found : Option Writing}
    (h : Writes r code s found) :
    (step r code s).state.output = s.output ++ found.toList.flatMap Writing.text := by
  cases h with
  | number hwrite hpeek =>
    rw [hwrite.spec.2, Option.toList_some, List.flatMap_singleton, text_number]
    simp only [Builtin.outputs, hpeek]
  | character hcharacter hpeek =>
    rw [hcharacter.spec.2, Option.toList_some, List.flatMap_singleton, text_character]
    simp only [Builtin.outputs, hpeek]
  | nothing hwrite hcharacter =>
    rw [Option.toList_none, List.flatMap_nil, List.append_nil]
    by_cases hexecutes : ∃ b, Executes r code s b
    · obtain ⟨b, hb⟩ := hexecutes
      have hsilent : b.outputs s = [] := by
        cases b with
        | write => exact absurd hb hwrite
        | writeChar => exact absurd hb hcharacter
        | print | loadConst | exit | pop | add | div | eq | neq | dup | jmp | jmpz => rfl
      rw [hb.spec.2, hsilent, List.append_nil]
    · exact output_step_of_not_executes hr fun b hb => hexecutes ⟨b, hb⟩

end Steps

section Calls

theorem exists_written (r : Registry) (calls : List Call) (s : State) :
    ∃ writings, Written r s calls writings := by
  induction calls generalizing s with
  | nil => exact ⟨[], .start⟩
  | cons call calls ih =>
    cases call with
    | announce code =>
      obtain ⟨writings, h⟩ := ih (announce r code s)
      exact ⟨writings, .announce h⟩
    | step code =>
      obtain ⟨found, hfound⟩ := exists_writes r code s
      obtain ⟨writings, h⟩ := ih (step r code s).state
      exact ⟨found.toList ++ writings, .step hfound h⟩

/-- Calls add to the output what is written during them. -/
theorem Written.output_performed (hr : r.OfBuiltins) {calls : List Call} {writings : List Writing}
    (h : Written r s calls writings) :
    (performed r calls s).output = s.output ++ writings.flatMap Writing.text := by
  induction h with
  | start => exact (List.append_nil _).symm
  | announce _ ih => exact ih.trans (by rw [output_announce])
  | step hfound _ ih =>
    refine ih.trans ?_
    rw [hfound.output_step hr, List.flatMap_append, List.append_assoc]

theorem performed_append (r : Registry) (calls more : List Call) (s : State) :
    performed r (calls ++ more) s = performed r more (performed r calls s) :=
  List.foldl_append

private theorem performed_steps (n : Nat) (s : State) :
    performed r (List.replicate n (.step code)) s = after r code n s := by
  induction n with
  | zero => rfl
  | succ n ih =>
    rw [List.replicate_succ', performed_append, ih, after_succ]
    rfl

/-- A run under limits leads where its calls lead. -/
theorem state_of_run {fuel : Nat} {context : Context} {maxSteps : Int} {report : Report}
    (h : Budget.run fuel context maxSteps r code s = some report) :
    report.state = performed r (callsOfRun code report.steps) s := by
  have hcalls (n : Nat) : performed r (callsOfRun code n) s = after r code n (announce r code s) :=
    performed_steps n (announce r code s)
  rw [hcalls]
  cases Budget.ends_of_run h with
  | returned hreturns _ =>
    obtain ⟨k, t, cancels, rfl, hp, hf⟩ := returnsAt_iff.mp hreturns
    rw [after_succ, ← hp.eq_after]
    exact StepResult.state_of_finish? hf
  | interrupted hp _ _ => exact hp.eq_after
  | usedUp hp _ _ => exact hp.eq_after

end Calls

/-- Whatever calls are made to a machine of built-in instructions, the output afterwards is the one
before with everything added that was written, number by number and character by character in the
order of the steps. So the output before is an initial segment of it, and if that was well-formed,
the output still is. A run is one announcement and as many steps as it reports. -/
theorem output_accounted {r : Registry} (hr : r.OfBuiltins) (calls : List Call) (s : State) :
    (∃ writings, Written r s calls writings) ∧
    (∀ writings, Written r s calls writings →
      (performed r calls s).output = s.output ++ writings.flatMap Writing.text) ∧
    s.output <+: (performed r calls s).output ∧
    (Text.Utf8.valid s.output = true → Text.Utf8.valid (performed r calls s).output = true) ∧
    ∀ fuel context maxSteps code report,
      Budget.run fuel context maxSteps r code (performed r calls s) = some report →
      report.state = performed r (calls ++ callsOfRun code report.steps) s := by
  obtain ⟨writings, hwritten⟩ := exists_written r calls s
  have houtput := hwritten.output_performed hr
  refine ⟨⟨writings, hwritten⟩, fun _ h => h.output_performed hr, ?_, fun hvalid => ?_, ?_⟩
  · rw [houtput]
    exact List.prefix_append _ _
  · rw [houtput]
    exact Text.Utf8.valid_append hvalid (Text.Utf8.valid_flatMap fun w _ => w.valid_text)
  · intro fuel context maxSteps code report hrun
    rw [performed_append]
    exact state_of_run hrun

/-- Built-ins under names of their own. -/
def speaking : Registry :=
  .ofEntries [⟨utf8 "PUSH", Builtin.effect .loadConst⟩, ⟨utf8 "SAY", Builtin.effect .write⟩,
    ⟨utf8 "PUT", Builtin.effect .writeChar⟩]

/-- A run that fails for want of a number to write, and one that goes on from there: it writes a
number, a surrogate, a value whose lower half is a letter, and a character of two bytes. -/
theorem output_accounted_speaking :
    let code : Code := [⟨1, 0⟩, ⟨0, -5⟩, ⟨1, 0⟩, ⟨0, 0xD800⟩, ⟨2, 0⟩, ⟨0, 0x100000041⟩, ⟨2, 0⟩,
      ⟨0, 0x3BB⟩, ⟨2, 0⟩]
    let calls := callsOfRun code 1 ++ callsOfRun code 8
    let s := State.write {} (utf8 "x")
    speaking.OfBuiltins ∧
    (∃ writings, Written speaking s calls writings ∧
      s.output ++ writings.flatMap Writing.text = utf8 "x-5\uFFFD\uFFFD\u03BB") ∧
    s.output = utf8 "x" ∧ Text.Utf8.valid (performed speaking calls s).output = true ∧
    ∃ report, Budget.run 8 .live 7 speaking code (performed speaking (callsOfRun code 1) s) =
        some report ∧
      report.steps = 7 ∧
      report.state = performed speaking (callsOfRun code 1 ++ callsOfRun code 7) s := by
  intro code calls s
  have hr : speaking.OfBuiltins := by
    intro e he
    rw [speaking, Registry.entries_ofEntries] at he
    simp only [List.mem_cons, List.not_mem_nil, or_false] at he
    rcases he with rfl | rfl | rfl
    · exact ⟨.loadConst, rfl⟩
    · exact ⟨.write, rfl⟩
    · exact ⟨.writeChar, rfl⟩
  obtain ⟨⟨writings, hwritten⟩, houtput, -, hvalid, -⟩ := output_accounted hr calls s
  obtain ⟨-, -, -, -, hruns⟩ := output_accounted hr (callsOfRun code 1) s
  have hwhole : (performed speaking calls s).output = utf8 "x-5\uFFFD\uFFFD\u03BB" := by
    decide +kernel
  have hsteps : (Budget.run 8 .live 7 speaking code (performed speaking (callsOfRun code 1) s)).map
      Report.steps = some 7 := by
    decide +kernel
  obtain ⟨report, hrun, hseven⟩ := Option.map_eq_some_iff.mp hsteps
  refine ⟨hr, ⟨writings, hwritten, (houtput writings hwritten).symm.trans hwhole⟩, rfl,
    hvalid (by decide), report, hrun, hseven, ?_⟩
  exact hseven ▸ hruns 8 .live 7 code report hrun

end Machine

end StackMachine
