import StackMachine.Proofs.Machine.Outcomes
import StackMachine.Proofs.Machine.Writers
import StackMachine.Proofs.Service.Texts
import StackMachine.Proofs.Wire.Standard
import StackMachine.Shell.Run

/-! Programs run here and on a service. A service without a cap answers what a run here comes to,
the answer arrives, and both are told in the same way. -/
namespace StackMachine.Shell

open Service (Request Response responseOf unassembled)
open Text.Utf8 (valid)
open Wire (AssembleResponse Codec Fitting RunRequest headBound maxElements)

/-- What a service answers to a program that is to be listed. -/
private def listed (source : Bytes) : AssembleResponse :=
  match Assembly.assemble .builtins source with
  | .error fault =>
    { error := fault.message, errorClass := fault.classify.name, line := Int64.ofInt fault.line }
  | .ok code => { code := Service.codeField code, listing := (Listing.ofCode .builtins code).text }

/-- The request for a run. -/
private def programOf (options : RunOptions) (source : Bytes) : RunRequest :=
  { source, debug := options.debug, maxSteps := options.maxSteps }

/-- The state that a program starts from on a service. -/
private def startThere (options : RunOptions) : State :=
  { debug := options.debug, reported := { writer := .buffer } }

/-- What a service answers to a program that is to be run. -/
private def ran (fuel : Nat) (options : RunOptions) (source : Bytes) : Option Wire.RunResponse :=
  match Assembly.assemble .builtins source with
  | .error fault => some (unassembled (startThere options) fault)
  | .ok code =>
    (Budget.run fuel .live options.maxSteps.toInt .builtins code (startThere options)).map
      responseOf

section Handling

variable {fuel : Nat} {fresh : Bytes} {service : Service} {options : RunOptions} {source : Bytes}

private theorem isEmpty_source (hne : source ≠ []) : source.isEmpty = false := by
  cases source with
  | nil => exact absurd rfl hne
  | cons b source => rfl

private theorem handle_assemble (hne : source ≠ []) :
    service.handle fuel fresh (.assemble { source }) =
      some (service, .ok (.assemble (listed source))) := by
  simp only [Service.handle, Service.assemble, isEmpty_source hne, listed]
  cases Assembly.assemble .builtins source <;> rfl

private theorem execute_new (hne : source ≠ []) :
    (Service.execute fuel .live options.maxSteps.toInt .new (programOf options source)).map
        (fun result => result.2.response) = ran fuel options source := by
  have hprogram : Service.program Machine.new.registry (programOf options source) =
      Assembly.assemble .builtins source := by
    simp [Service.program, programOf, isEmpty_source hne, Machine.new]
  unfold ran
  cases ha : Assembly.assemble .builtins source with
  | error fault =>
    rw [Service.execute_of_unassembled (hprogram.trans ha)]
    rfl
  | ok code =>
    rw [Service.execute_of_program (hprogram.trans ha), Option.map_map]
    apply Option.map_congr
    intro report hrun
    have hregular := Budget.regular_run hrun
    rw [Function.comp_apply, Service.workOf]
    cases ho : report.outcome with
    | halted | failed fault => rfl
    | crashed message =>
      rw [ho] at hregular
      exact absurd hregular Outcome.Regular.not_crashed

private theorem handle_run (fuel : Nat) (fresh : Bytes) (hcap : service.stepCap = 0)
    (hne : source ≠ []) (hsteps : 0 ≤ options.maxSteps) :
    service.handle fuel fresh (.run (programOf options source)) =
      (ran fuel options source).map fun response => (service, .ok (.run response)) := by
  have hrefusal : Service.refusal? (programOf options source) = none := by
    simp [Service.refusal?, programOf, isEmpty_source hne, Int64.not_lt.mpr hsteps]
  have hlimit : Service.effectiveLimit service.stepCap options.maxSteps.toInt =
      options.maxSteps.toInt := by
    rw [hcap]
    rfl
  rw [← execute_new hne, Service.handle, Service.run_alone hrefusal rfl, Option.map_map,
    Option.map_map, ← hlimit]
  rfl

end Handling

section Telling

private theorem name_ne_assembly {c : FaultClass} (h : c ≠ .assembly) :
    c.name ≠ FaultClass.name .assembly :=
  fun he => h (FaultClass.name_injective he)

/-- A run that ended on a service, where it reported to a buffer only, is told as it is told of the
same run here. -/
theorem tellRun_responseOf {report : Report} (h : report.outcome.Regular)
    (hbuffer : report.movedTo .buffer = report) (w : Writer) :
    tellRun (responseOf report) = { tellReport w (report.movedTo w) with log := [] } := by
  have hreported : (report.movedTo w).state.reported.textOf w =
      report.state.reported.textOf .buffer :=
    calc (report.movedTo w).state.reported.textOf w
      _ = (report.state.reported.reversed.map Prod.snd).reverse := Diagnostics.textOf_movedTo _ _
      _ = (report.movedTo .buffer).state.reported.textOf .buffer :=
        (Diagnostics.textOf_movedTo _ _).symm
      _ = report.state.reported.textOf .buffer := by rw [hbuffer]
  cases ho : report.outcome with
  | halted =>
    have hfault : (report.movedTo w).fault = .absent := by rw [Report.fault, Report.movedTo, ho]
    have hfault' : report.fault = .absent := by rw [Report.fault, ho]
    simp only [tellRun, responseOf, tellReport, hfault, hfault', hreported]
    rfl
  | failed fault =>
    rw [ho] at h
    have hfault : (report.movedTo w).fault = fault := by rw [Report.fault, Report.movedTo, ho]
    have hfault' : report.fault = fault := by rw [Report.fault, ho]
    obtain ⟨hpresent, hclass, hmessage⟩ := h.failed_spec
    simp only [tellRun, responseOf, tellReport, hfault, hfault', hreported, hpresent, if_true,
      Service.describe, if_neg (name_ne_assembly hclass)]
    rw [if_neg (by simpa using hmessage)]
    rfl
  | crashed message =>
    rw [ho] at h
    exact absurd h Outcome.Regular.not_crashed

private theorem tellAssembly_listed {fuel : Nat} {options : RunOptions} (source : Bytes)
    (hlisting : options.listing = true) :
    some (tellAssembly (listed source)) =
      (runHere fuel options source).map fun here => { here with log := [] } := by
  unfold runHere listed
  cases ha : Assembly.assemble .builtins source with
  | error fault =>
    have hmessage := (Assembly.classify_of_assemble ha).2
    simp [tellAssembly, tellUnassembled, Transcript.write, Transcript.exit, hmessage]
  | ok code =>
    have hfault := Listing.fault_ofCode_of_assemble ha
    simp [tellAssembly, Transcript.write, hlisting, hfault, Fault.isPresent]

private theorem tellRun_ran {fuel : Nat} {options : RunOptions} (source : Bytes)
    (hlisting : options.listing = false) :
    (ran fuel options source).map tellRun =
      (runHere fuel options source).map fun here => { here with log := [] } := by
  unfold runHere ran
  cases ha : Assembly.assemble .builtins source with
  | error fault =>
    have hclass := (Assembly.classify_of_assemble ha).1
    simp [tellRun, tellUnassembled, Transcript.write, Transcript.exit, unassembled,
      Service.describe, hclass]
  | ok code =>
    have hthere (w : Writer) :
        Budget.run fuel .live options.maxSteps.toInt .builtins code
            ((startThere options).movedTo w) =
          (Budget.run fuel .live options.maxSteps.toInt .builtins code (startThere options)).map
            (·.movedTo w) :=
      Budget.run_movedTo Registry.ofBuiltins_builtins fuel _ w
    have hhere : startHere options = (startThere options).movedTo options.diagnostics := rfl
    have hbuffer : (startThere options).movedTo .buffer = startThere options := rfl
    simp only [hlisting, Bool.false_eq_true, if_false, hhere, hthere, Option.map_map]
    apply Option.map_congr
    intro report hrun
    have hmoved := hthere .buffer
    rw [hbuffer, hrun, Option.map_some, Option.some.injEq] at hmoved
    exact tellRun_responseOf (Budget.regular_run hrun) hmoved.symm options.diagnostics

end Telling

section Arrival

variable {fuel : Nat} {fresh : Bytes} {service after : Service} {options : RunOptions}
  {source : Bytes} {response : Response}

private theorem wellFormed_ran {response : Wire.RunResponse} (hne : source ≠ [])
    (hvalid : valid source = true) (h : ran fuel options source = some response) :
    Service.WellFormed (Wire.texts response) := by
  rw [← execute_new hne] at h
  obtain ⟨⟨state, work⟩, hexecute, rfl⟩ := Option.map_eq_some_iff.mp h
  have hnew : Machine.new.Textual := ⟨Registry.textual_builtins, rfl⟩
  exact (Service.textual_execute hnew hexecute).2 hvalid

/-- What is answered to a well-formed program is well-formed. -/
private theorem wellFormed_response (hcap : service.stepCap = 0) (hne : source ≠ [])
    (hvalid : valid source = true) (hsteps : 0 ≤ options.maxSteps)
    (h : service.handle fuel fresh (runRequest options source) = some (after, .ok response)) :
    Service.WellFormed response.texts := by
  unfold runRequest at h
  cases hl : options.listing with
  | true =>
    rw [hl, if_pos rfl, Service.handle, Option.some.injEq, Prod.mk.injEq] at h
    have htexts : Service.WellFormed
        (Service.answerTexts ((Service.assemble { source }).map .assemble)) :=
      Service.wellFormed_assemble hvalid
    rw [h.2] at htexts
    exact htexts
  | false =>
    rw [hl, if_neg Bool.false_ne_true, ← programOf, handle_run fuel fresh hcap hne hsteps] at h
    obtain ⟨message, hran, heq⟩ := Option.map_eq_some_iff.mp h
    cases heq
    exact wellFormed_ran hne hvalid hran

private theorem fitting_request (hvalid : valid source = true)
    (hlength : source.length < headBound) :
    Fitting (runRequest options source).texts (runRequest options source).lengths := by
  have hempty : 0 < headBound := by decide
  unfold runRequest
  split
  · exact ⟨by simp [Request.texts, hvalid, hlength], List.forall_mem_nil _⟩
  · exact ⟨by simp [Request.texts, hvalid, hlength, hempty], List.forall_mem_nil _⟩

end Arrival

section Agreement

variable {codec : Codec} {fuel : Nat} {fresh : Bytes} {service : Service} {options : RunOptions}
  {source : Bytes}

private theorem tellAnswer_handle (hcap : service.stepCap = 0) (hne : source ≠ [])
    (hsteps : 0 ≤ options.maxSteps) :
    (service.handle fuel fresh (runRequest options source)).map
        (fun result => tellAnswer result.2) =
      (runHere fuel options source).map fun here => { here with log := [] } := by
  unfold runRequest
  cases hl : options.listing with
  | true =>
    rw [if_pos rfl, handle_assemble hne]
    exact tellAssembly_listed source hl
  | false =>
    rw [if_neg Bool.false_ne_true, ← programOf, handle_run fuel fresh hcap hne hsteps,
      ← tellRun_ran source hl, Option.map_map]
    rfl

/-- A program leaves the same status and writes the same bytes in the same order, each to the same
channel, whether it is run or listed here or on a service that sets no cap of its own, and it
returns in both places or in neither; only the log is kept here alone. So every stream receives the
same, whichever channels lead to it. The codec has to read what it writes; then the lists of the
response have to be within its limit, and the texts no longer than the 64 bits of a head can
tell. -/
theorem runThere_agrees_with_runHere (hcodec : codec.Faithful) (hcap : service.stepCap = 0)
    (hne : source ≠ []) (hvalid : valid source = true) (hsteps : 0 ≤ options.maxSteps)
    (hlength : source.length < headBound)
    (hresponse : ∀ after response,
      service.handle fuel fresh (runRequest options source) = some (after, .ok response) →
        (∀ t ∈ response.texts, t.length < headBound) ∧ ∀ n ∈ response.lengths, n ≤ maxElements) :
    runThere (fun request => (service.call codec fuel fresh request).map Prod.snd) options source =
      (runHere fuel options source).map fun here => { here with log := [] } := by
  have hcall : service.call codec fuel fresh (runRequest options source) =
      service.handle fuel fresh (runRequest options source) := by
    refine Service.call_eq_handle hcodec (fitting_request hvalid hlength) fun after response h => ?_
    obtain ⟨htexts, hlists⟩ := hresponse after response h
    have hwellFormed := wellFormed_response hcap hne hvalid hsteps h
    exact ⟨fun t ht => ⟨hwellFormed t ht, htexts t ht⟩, hlists⟩
  rw [runThere, hcall, Option.map_map]
  exact tellAnswer_handle hcap hne hsteps

end Agreement

/-- A program that writes a character beyond ASCII and then fails. -/
def tracedUnderflow : Bytes :=
  utf8 "LOAD_CONST 233\nWRITE_CHAR\nADD"

theorem runThere_agrees_with_runHere_tracedUnderflow :
    Codec.standard.Faithful ∧ tracedUnderflow ≠ [] ∧ valid tracedUnderflow = true ∧
    ∃ there, runThere (fun request => (Service.call .standard 9 [] {} request).map Prod.snd)
        { debug := true, maxSteps := 9 } tracedUnderflow = some there ∧
      there.status = statusFailure ∧
      there.received (· ≠ .stderr) =
        utf8 "=== running vm ======================\n" ++
          utf8 "disassembly of run code:\nLOAD_CONST 233\nWRITE_CHAR 0\nADD 0\n" ++
          utf8 "=== end of disassembly\n\n-- exec LOAD_CONST arg=233 at pc=0\n" ++
          utf8 "-- exec WRITE_CHAR arg=0 at pc=1\n-- exec ADD arg=0 at pc=2\n" ++ [0xC3, 0xA9] ∧
      there.received (· = .stderr) = utf8 "Error (runtime): pc=2 ADD: stack underflow\n" := by
  have hcodec := Codec.lawful_standard.faithful
  have hvalid : valid tracedUnderflow = true := Text.Utf8.valid_utf8 _
  refine ⟨hcodec, by decide, hvalid, ?_⟩
  rw [runThere_agrees_with_runHere hcodec rfl (by decide) hvalid (by decide) (by decide)]
  · exact ⟨_, rfl, by decide +kernel⟩
  · intro after response h
    have hfits : (Service.handle 9 [] {} (runRequest { debug := true, maxSteps := 9 }
        tracedUnderflow)).all (fun result => match result.2 with
          | .ok response =>
            response.texts.all (·.length < 1024) && response.lengths.all (· < 1024)
          | .error _ => false) = true := by decide +kernel
    rw [h] at hfits
    simp only [Option.all_some, Bool.and_eq_true, List.all_eq_true, decide_eq_true_eq] at hfits
    unfold headBound maxElements
    exact ⟨fun t ht => by have := hfits.1 t ht; omega, fun n hn => by have := hfits.2 n hn; omega⟩

end StackMachine.Shell
