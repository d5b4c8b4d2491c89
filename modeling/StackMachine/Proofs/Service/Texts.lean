import StackMachine.Proofs.Assembly.Reports
import StackMachine.Proofs.Listing
import StackMachine.Proofs.Machine.Limits
import StackMachine.Proofs.Machine.Texts
import StackMachine.Proofs.Registry.Views
import StackMachine.Proofs.Service.Exchange
import StackMachine.Proofs.Service.Histories

/-! What a service says. If the instructions of its sessions say well-formed texts only, then so does
the service: what it repeats of a request is cut at ASCII bytes or stands between quotes. -/
namespace StackMachine

open Text.Utf8

/-- The instructions say well-formed texts only, and the output so far is well-formed. -/
structure Machine.Textual (m : Machine) : Prop where
  registry : m.registry.Textual
  output : valid m.state.output = true

theorem Builtin.valid_summary (b : Builtin) : valid b.summary = true := by
  cases b <;> exact valid_utf8 _

namespace Service

open Wire

def WellFormed (texts : List Bytes) : Prop :=
  ∀ t ∈ texts, valid t = true

/-- The texts of an answer: the message of a refusal, or those of the response. -/
def answerTexts : Answer → List Bytes
  | .error refusal => [refusal.message]
  | .ok response => response.texts

/-- The id is made of hexadecimal digits and hyphens, as the ids of new sessions are. -/
def IsSessionId (id : Bytes) : Prop :=
  ∀ b ∈ id, (48 ≤ b ∧ b ≤ 57) ∨ (97 ≤ b ∧ b ≤ 102) ∨ b = 45

theorem IsSessionId.valid {id : Bytes} (h : IsSessionId id) : valid id = true := by
  apply valid_of_ascii
  intro b hb
  rcases h b hb with ⟨-, hle⟩ | ⟨-, hle⟩ | rfl
  · exact UInt8.lt_of_le_of_lt hle (by decide)
  · exact UInt8.lt_of_le_of_lt hle (by decide)
  · decide

private theorem wellFormed_refusal {refusal : Refusal} (h : valid refusal.reason = true) :
    WellFormed (answerTexts (.error refusal)) := by
  have hname : valid refusal.status.name = true := by
    cases refusal.status <;> exact valid_utf8 _
  intro t ht
  rw [List.mem_singleton.mp ht, Refusal.message]
  simp [hname, h]

private theorem wellFormed_unknownSession (id : Bytes) :
    WellFormed (answerTexts (.error (.unknownSession id))) := by
  apply wellFormed_refusal
  simp [Refusal.reason]

section Running

private theorem wellFormed_describe {response : RunResponse} {fault : Fault}
    (houtput : valid response.output = true) (hdiagnostics : valid response.diagnostics = true)
    (hfault : valid fault.message = true) :
    WellFormed (Wire.texts (describe response fault)) := by
  have hclass := FaultClass.valid_name fault.classify
  simp [WellFormed, describe, houtput, hdiagnostics, hfault, hclass]

theorem wellFormed_responseOf {report : Report} (houtput : report.output = report.state.output)
    (hstate : report.state.Textual) (houtcome : report.outcome.Textual) :
    WellFormed (Wire.texts (responseOf report)) := by
  have hdiagnostics := hstate.diagnostics .buffer
  rw [responseOf, houtput]
  split
  · exact wellFormed_describe hstate.output hdiagnostics (Report.valid_message_fault houtcome)
  · simp [WellFormed, hstate.output, hdiagnostics]

private theorem wellFormed_failedWork {message : Bytes} (h : valid message = true) :
    WellFormed (Wire.texts (failedWork message)) :=
  wellFormed_describe rfl rfl h

private theorem wellFormed_abandoned (why : Interruption) :
    WellFormed (Wire.texts (abandoned why)) :=
  wellFormed_describe rfl rfl why.valid_message_fault

private theorem textual_prepare {s : State} (h : valid s.output = true) (request : RunRequest) :
    (prepare s request).Textual := by
  rw [prepare]
  split
  · exact ⟨rfl, fun _ => rfl⟩
  · exact ⟨h, fun _ => rfl⟩

private theorem valid_message_of_program {r : Registry} {request : RunRequest} {fault : Fault}
    (hsource : valid request.source = true) (h : program r request = .error fault) :
    valid fault.message = true := by
  rw [program] at h
  split at h
  · cases h
  · exact Assembly.valid_message_of_assemble hsource h

/-- A program leaves the output of the machine well-formed, whatever its text, and what is told of a
well-formed text is well-formed. -/
theorem textual_execute {fuel : Nat} {context : Context} {limit : Int} {m : Machine}
    {request : RunRequest} {state : State} {work : Work} (hm : m.Textual)
    (h : execute fuel context limit m request = some (state, work)) :
    valid state.output = true ∧
      (valid request.source = true → WellFormed (Wire.texts work.response)) := by
  have hstart := textual_prepare hm.output request
  cases hprogram : program m.registry request with
  | error fault =>
    rw [execute_of_unassembled hprogram] at h
    cases h
    refine ⟨hstart.output, ?_⟩
    intro hsource
    exact wellFormed_describe rfl rfl (valid_message_of_program hsource hprogram)
  | ok code =>
    rw [execute_of_program hprogram] at h
    obtain ⟨report, hrun, heq⟩ := Option.map_eq_some_iff.mp h
    cases heq
    obtain ⟨hstate, houtcome⟩ := Budget.textual_run hm.registry hstart hrun
    refine ⟨hstate.output, fun _ => ?_⟩
    rw [workOf]
    cases ho : report.outcome with
    | crashed message =>
      rw [ho] at houtcome
      exact wellFormed_failedWork (valid_append (valid_utf8 _) houtcome)
    | halted | failed fault =>
      have houtput := Budget.output_of_run hrun (by simp [ho])
      exact wellFormed_responseOf houtput hstate (ho ▸ houtcome)

theorem lasting_textual : Lasting Machine.Textual := by
  intro fuel context limit m request state work hm h
  exact ⟨hm.registry, (textual_execute hm h).1⟩

theorem wellFormed_ran {fuel : Nat} {context : Context} {s after : Service} {wait : Wait}
    {message : RunRequest} {reply : Except Refusal RunResponse} (hs : s.Sound Machine.Textual)
    (hsource : valid message.source = true) (h : Ran fuel context s message wait after reply) :
    WellFormed (answerTexts (reply.map .run)) := by
  cases h with
  | @refused refusal hrefusal =>
    apply wellFormed_refusal
    rw [refusal?] at hrefusal
    split at hrefusal
    · cases hrefusal
      exact valid_utf8 _
    · split at hrefusal
      · cases hrefusal
        exact valid_utf8 _
      · cases hrefusal
  | alone _ _ hexecute =>
    have hnew : Machine.new.Textual := ⟨Registry.textual_builtins, rfl⟩
    exact (textual_execute hnew hexecute).2 hsource
  | missing _ _ _ => exact wellFormed_unknownSession _
  | stopped _ _ _ _ => exact wellFormed_failedWork (valid_utf8 _)
  | unbegun _ _ _ _ _ => exact wellFormed_abandoned _
  | continued _ _ hget _ hexecute =>
    cases wait with
    | served => exact (textual_execute (hs _ _ hget).2 hexecute).2 hsource
    | left why begun => exact wellFormed_abandoned why

end Running

theorem wellFormed_assemble {request : AssembleRequest} (hsource : valid request.source = true) :
    WellFormed (answerTexts ((assemble request).map .assemble)) := by
  rw [assemble]
  split
  · exact wellFormed_refusal (valid_utf8 _)
  · cases hassemble : Assembly.assemble .builtins request.source with
    | error fault =>
      have hfault := Assembly.valid_message_of_assemble hsource hassemble
      have hclass := FaultClass.valid_name fault.classify
      simp [WellFormed, answerTexts, Except.map, Response.texts, hfault, hclass]
    | ok code =>
      have hlisting := Listing.valid_text_ofCode Registry.textual_builtins code
      simp [WellFormed, answerTexts, Except.map, Response.texts, hlisting]

theorem wellFormed_disassemble (request : DisassembleRequest) :
    WellFormed (Wire.texts (disassemble request)) := by
  have hlisting := Listing.valid_text_ofCode Registry.textual_builtins (request.code.getD [])
  have hfault : valid (Listing.ofCode .builtins (request.code.getD [])).fault.message = true :=
    Listing.valid_message_fault _ _ _ _
  rw [disassemble]
  split
  · have hclass :=
      FaultClass.valid_name (Listing.ofCode .builtins (request.code.getD [])).fault.classify
    simp [WellFormed, hlisting, hfault, hclass]
  · simp [WellFormed, hlisting]

private theorem wellFormed_instructionInfo {mnemonic : Bytes} (r : Registry)
    (h : valid mnemonic = true) : WellFormed (Wire.texts (instructionInfo r mnemonic)) := by
  rw [instructionInfo]
  cases Builtin.lookup mnemonic with
  | none => simp [WellFormed, h]
  | some b => simp [WellFormed, h, b.valid_summary]

theorem wellFormed_describeRegistry {r : Registry} (hr : r.Textual) :
    WellFormed (Wire.texts ({ instructions := some (describeRegistry r) } : InstructionsResponse)) := by
  intro t ht
  rw [texts_instructionsResponse] at ht
  obtain ⟨info, hinfo, ht⟩ := List.mem_flatMap.mp ht
  obtain ⟨mnemonic, hmnemonic, rfl⟩ := List.mem_map.mp hinfo
  obtain ⟨e, he, rfl⟩ := List.mem_map.mp (Registry.mem_mnemonics_iff_mem_map.mp hmnemonic)
  exact wellFormed_instructionInfo r (hr.mnemonic he) t ht

theorem wellFormed_instructions {s : Service} (hs : s.Sound Machine.Textual)
    (request : InstructionsRequest) (wait : Wait) :
    WellFormed (answerTexts ((s.instructions request wait).map .instructions)) := by
  rw [instructions]
  split
  · exact wellFormed_describeRegistry Registry.textual_builtins
  · cases hget : s.sessions.get? request.sessionId with
    | none => exact wellFormed_unknownSession _
    | some session =>
      obtain ⟨hrunning, hmachine⟩ := hs _ _ hget
      simp only [hrunning, Bool.false_eq_true, if_false]
      cases wait with
      | served => exact wellFormed_describeRegistry hmachine.registry
      | left why begun => exact wellFormed_refusal why.valid_message_fault

/-- Whatever a service is asked in well-formed texts, it answers in well-formed texts, if the
instructions of its sessions say such texts only. What it was asked before may have been of any
form. -/
theorem answers_in_wellFormed_texts {cap : Int} {template : Machine} {s after : Service}
    {fresh : Bytes} {wait : Wait} {request : Request} {answer : Answer}
    (htemplate : template.Textual) (hs : Reachable cap template s)
    (hrequest : WellFormed request.texts) (hfresh : IsSessionId fresh)
    (h : Answers s fresh wait request after answer) :
    WellFormed (answerTexts answer) := by
  have hsound : s.Sound Machine.Textual := hs.sound lasting_textual htemplate
  cases request with
  | run message =>
    obtain ⟨fuel, context, reply, rfl, hran⟩ := h.ran
    exact wellFormed_ran hsound (hrequest message.source List.mem_cons_self) hran
  | assemble message =>
    cases h with
    | handled hhandle =>
      cases hhandle
      exact wellFormed_assemble (hrequest message.source List.mem_cons_self)
  | disassemble message =>
    cases h with
    | handled hhandle =>
      cases hhandle
      exact wellFormed_disassemble message
  | instructions message =>
    obtain ⟨-, rfl⟩ := h.eq_instructions
    exact wellFormed_instructions hsound message wait
  | createSession message =>
    cases h with
    | handled hhandle =>
      cases hhandle
      intro t ht
      rw [List.mem_singleton.mp ht]
      exact hfresh.valid
  | destroySession message =>
    cases h with
    | handled hhandle =>
      simp only [handle, destroySession, Option.some.injEq, Prod.mk.injEq] at hhandle
      rw [← hhandle.2]
      split
      · exact wellFormed_refusal (valid_utf8 _)
      · intro t ht
        cases ht

/-- Sessions with an instruction that writes a character and fails. -/
def echoing : Machine :=
  { registry := Registry.builtins.append ⟨utf8 "ÉCHO", fun s arg =>
      { state := s.write (Builtin.character arg)
        verdict := .fail (.plain (utf8 "ça suffit")) false }⟩ }

private theorem textual_echoing : echoing.Textual where
  registry := Registry.textual_builtins.append (valid_utf8 _)
    (fun _ arg => State.extends_write (Builtin.valid_character arg)) (fun _ _ => valid_utf8 _)
  output := rfl

/-- A session is opened, is sent a text that is not well-formed, and then writes a surrogate. -/
theorem answers_in_wellFormed_texts_echo :
    let id := utf8 "6ba7b810-9dad-41d1-80b4-00c04fd430c8"
    let opened := (createSession id { template := echoing } {}).1
    let garbled := Request.run { source := [0xC3], sessionId := id }
    let request := Request.run { source := utf8 "ÉCHO 55296", sessionId := id, reset := true }
    ∃ s after answer answer', Answers opened [] .served garbled s answer ∧
      answerTexts answer = [[], [], utf8 "line 1: unknown instruction: " ++ [0xC3], utf8 "assembly"] ∧
      Answers s id .served request after answer' ∧
      answerTexts answer' =
        [[0xEF, 0xBF, 0xBD], [], utf8 "pc=0 ÉCHO: ça suffit", utf8 "runtime"] ∧
      WellFormed (answerTexts answer') := by
  intro id opened garbled request
  have hanswers : ((opened.handle 9 [] garbled).bind fun r =>
      (r.1.handle 9 id request).map fun r' => (answerTexts r.2, answerTexts r'.2)) =
        some ([[], [], utf8 "line 1: unknown instruction: " ++ [0xC3], utf8 "assembly"],
          [[0xEF, 0xBF, 0xBD], [], utf8 "pc=0 ÉCHO: ça suffit", utf8 "runtime"]) := by
    decide +kernel
  obtain ⟨⟨s, answer⟩, hgarbled, hanswers⟩ := Option.bind_eq_some_iff.mp hanswers
  obtain ⟨⟨after, answer'⟩, hrequest, htexts⟩ := Option.map_eq_some_iff.mp hanswers
  rw [Prod.mk.injEq] at htexts
  have hcreate : handle 9 id { template := echoing } (.createSession {}) =
      some (opened, .ok (.createSession { sessionId := id })) := rfl
  have hopened : Reachable 0 echoing opened := Reachable.start.answer (.handled hcreate)
  have hs : Reachable 0 echoing s := hopened.answer (.handled hgarbled)
  have hid : IsSessionId id := by
    rw [IsSessionId]
    decide +kernel
  have hwellFormed : WellFormed request.texts := by
    simp [WellFormed, request, Request.texts, id]
  exact ⟨s, after, answer, answer', .handled hgarbled, htexts.1, .handled hrequest, htexts.2,
    answers_in_wellFormed_texts textual_echoing hs hwellFormed hid (.handled hrequest)⟩

end Service

end StackMachine
