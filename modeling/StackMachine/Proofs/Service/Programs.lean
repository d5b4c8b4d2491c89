import StackMachine.Proofs.Registry.Extension
import StackMachine.Proofs.Service.Runs

/-! Programs as text and as code. The service assembles with the built-in instructions, a run with
those of its machine; where these have the same names, a text and the code that the service made of
it are the same program. -/
namespace StackMachine.Service

open Wire (RunRequest AssembleResponse)

variable {fuel : Nat} {context : Context} {limit : Int} {source : Bytes} {code : Code}

/-- Code in a response is what the text assembles to, and not empty. -/
theorem code_of_assemble {response : AssembleResponse}
    (h : assemble { source } = .ok response) (hcode : response.code = some code) :
    source ≠ [] ∧ code ≠ [] ∧ Assembly.assemble .builtins source = .ok code := by
  unfold assemble at h
  split at h
  · cases h
  · rename_i hsource
    cases ha : Assembly.assemble .builtins source with
    | error fault =>
      simp only [ha, Except.ok.injEq] at h
      rw [← h] at hcode
      cases hcode
    | ok assembled =>
      simp only [ha, Except.ok.injEq] at h
      rw [← h] at hcode
      simp only [codeField] at hcode
      split at hcode
      · cases hcode
      · rename_i hne
        cases hcode
        exact ⟨by simpa using hsource, by simpa using hne, rfl⟩

/-- On a machine that assembles a text to a code, the one is executed like the other. -/
theorem execute_source_eq_code {m : Machine} (hsource : source ≠ [])
    (h : Assembly.assemble m.registry source = .ok code) (request : RunRequest) :
    execute fuel context limit m { request with source } =
      execute fuel context limit m { request with source := [], code := some code } := by
  have htext : program m.registry { request with source } = .ok code := by
    simp [program, hsource, h]
  have hcode : program m.registry { request with source := [], code := some code } = .ok code := rfl
  have hstart : prepare m.state { request with source } =
      prepare m.state { request with source := [], code := some code } := rfl
  simp only [execute, htext, hcode, hstart]

/-- The same for a client that waits for the machine of a session in whatever way. -/
theorem runOn_source_eq_code {s : Service} {session : Session} (hsource : source ≠ [])
    (h : Assembly.assemble session.machine.registry source = .ok code) (request : RunRequest)
    (wait : Wait) :
    runOn fuel context s session { request with source } wait =
      runOn fuel context s session { request with source := [], code := some code } wait := by
  simp only [runOn, execute_source_eq_code hsource h]

/-- A text and the code that the service made of it are the same program for a run, on a machine of
its own or on a session's whose instructions are the built-ins and later ones under names that the
text does not use: the answers are the same, and so are the sessions afterwards. -/
theorem run_source_like_code {later : List Registry.Proposal} {source : Bytes}
    {response : AssembleResponse} {code : Code} (hassemble : assemble { source } = .ok response)
    (hcode : response.code = some code)
    (hnames : ∀ m ∈ Assembly.mnemonics source, ∀ e ∈ Registry.accepted later, e.mnemonic ≠ m)
    (s : Service) (request : RunRequest)
    (hmachine : ∀ id session, named request.sessionId = some id →
      s.sessions.get? id = some session →
      session.machine.registry = (Registry.builtins.registerAll later).1)
    (fuel : Nat) (context : Context) (wait : Wait) :
    s.run fuel context { request with source } wait =
      s.run fuel context { request with source := [], code := some code } wait := by
  obtain ⟨hsource, hne, hbuiltins⟩ := code_of_assemble hassemble hcode
  have hsame : refusal? { request with source } =
      refusal? { request with source := [], code := some code } := by
    simp [refusal?, hsource, hne]
  cases hrefusal : refusal? { request with source } with
  | some refusal => rw [run_of_refused hrefusal, run_of_refused (hsame ▸ hrefusal)]
  | none =>
    have hrefusal' := hsame ▸ hrefusal
    cases hid : named request.sessionId with
    | none =>
      rw [run_alone hrefusal hid, run_alone hrefusal' hid,
        execute_source_eq_code (m := .new) hsource hbuiltins]
    | some id =>
      rw [run_on_session hrefusal hid, run_on_session hrefusal' hid]
      cases hget : s.sessions.get? id with
      | none => rfl
      | some session =>
        have hsession : Assembly.assemble session.machine.registry source = .ok code := by
          rw [hmachine id session hid hget]
          exact Assembly.assemble_registerAll_of_untouched (by decide) hbuiltins hnames
        simp only [runOn_source_eq_code hsource hsession]

/-- A service whose sessions have two names of the built-ins taken over. -/
def overtaken : Service :=
  { template.registry := (Registry.builtins.registerAll Registry.takeover).1 }

/-- A program that names neither of them, in a session of that service and in none. -/
theorem run_source_like_code_takeover :
    let source := utf8 "LOAD_CONST 2\nPRINT\nJMP 7"
    let code : Code := [⟨1, 2⟩, ⟨0, 0⟩, ⟨9, 7⟩]
    let s := (createSession (utf8 "a") overtaken {}).1
    ∀ id ∈ [utf8 "a", []], ∀ fuel context wait,
      s.run fuel context { source, sessionId := id, debug := true } wait =
        s.run fuel context { code := some code, sessionId := id, debug := true } wait := by
  intro source code s id hid fuel context wait
  obtain ⟨response, hassemble, hcode⟩ :
      ∃ response, assemble { source } = .ok response ∧ response.code = some code :=
    ⟨{ code := some code, listing := (Listing.ofCode .builtins code).text }, by decide +kernel, rfl⟩
  have hnames : ∀ m ∈ Assembly.mnemonics source, ∀ e ∈ Registry.accepted Registry.takeover,
      e.mnemonic ≠ m := by decide +kernel
  refine run_source_like_code hassemble hcode hnames s { sessionId := id, debug := true } ?_ fuel
    context wait
  intro named session hnamed hsession
  obtain ⟨rfl, hne⟩ := named_eq_some_iff.mp hnamed
  obtain rfl : id = utf8 "a" := by simpa [hne] using hid
  cases hsession
  rfl

end StackMachine.Service
