import StackMachine.Proofs.Assembly.Grammar
import StackMachine.Proofs.Machine.Limits
import StackMachine.Proofs.Registry.Views

/-! Extending an instruction set. Opcodes keep their meaning, so a code runs as before; names may be
given new opcodes, and a program text is then assembled with the newest ones. -/
namespace StackMachine

/-- The registries mean the same by every opcode of the code. -/
def Registry.AgreeOn (code : Code) (r r' : Registry) : Prop :=
  ∀ i ∈ code, r'.entry? i.op = r.entry? i.op

section Running

variable {code : Code} {r r' : Registry}

namespace Registry

theorem AgreeOn.describe_eq (h : AgreeOn code r r') {i : Instruction} (hi : i ∈ code) :
    r'.describe i.op = r.describe i.op := by
  rw [Tables.describe, Tables.describe, h i hi]

theorem AgreeOn.nameOf_eq (h : AgreeOn code r r') {i : Instruction} (hi : i ∈ code) :
    r'.nameOf i.op = r.nameOf i.op := by
  rw [Tables.nameOf, Tables.nameOf, h.describe_eq hi]

end Registry

theorem Listing.fromIndex_of_agreeOn (format : Nat → Bytes → Int64 → Bytes)
    (h : Registry.AgreeOn code r r') (index : Nat) :
    fromIndex format r' index code = fromIndex format r index code := by
  induction code generalizing index with
  | nil => rfl
  | cons i rest ih =>
    have hi := h.describe_eq List.mem_cons_self
    have hrest := ih (fun j hj => h j (List.mem_cons_of_mem i hj)) (index + 1)
    rw [fromIndex, fromIndex, hi, hrest]

namespace Machine

theorem announce_of_agreeOn (h : Registry.AgreeOn code r r') (s : State) :
    announce r' code s = announce r code s := by
  have hlistable : (code.all fun i => (r'.describe i.op).isSome) =
      code.all fun i => (r.describe i.op).isSome := by
    rw [Bool.eq_iff_iff, List.all_eq_true, List.all_eq_true]
    apply forall₂_congr
    intro i hi
    rw [h.describe_eq hi]
  rw [announce, announce, banner, banner, Listing.fromIndex_of_agreeOn _ h, hlistable]

theorem step_of_agreeOn (h : Registry.AgreeOn code r r') (s : State) :
    step r' code s = step r code s := by
  cases hf : code.fetch? s.pc with
  | none => rw [step_outside hf, step_outside hf]
  | some i =>
    have hi : i ∈ code := List.mem_of_getElem? (Code.fetch?_eq_some_iff.mp hf).found
    have hentering : entering r' i s = entering r i s := by
      rw [entering, entering, traceLine, traceLine, h.nameOf_eq hi]
    cases he : r.entry? i.op with
    | none => rw [step_unknown hf he, step_unknown hf ((h i hi).trans he), hentering]
    | some e => rw [step_known hf he, step_known hf ((h i hi).trans he), hentering]

/-- Runs of a code are the same on registries that mean the same by its opcodes. -/
theorem run_of_agreeOn (h : Registry.AgreeOn code r r') (fuel : Nat) (s : State) :
    run fuel r' code s = run fuel r code s := by
  have hfrom (s : State) : runFrom r' code fuel s = runFrom r code fuel s := by
    induction fuel generalizing s with
    | zero => rfl
    | succ fuel ih =>
      rw [runFrom_succ, runFrom_succ, step_of_agreeOn h]
      simp only [ih]
  rw [run, run, announce_of_agreeOn h, hfrom]

end Machine

theorem Budget.run_of_agreeOn (h : Registry.AgreeOn code r r') (fuel : Nat) (context : Context)
    (maxSteps : Int) (s : State) :
    run fuel context maxSteps r' code s = run fuel context maxSteps r code s := by
  have hfrom (steps : Nat) (canceled : Bool) (s : State) :
      runFrom context maxSteps r' code fuel steps canceled s =
        runFrom context maxSteps r code fuel steps canceled s := by
    induction fuel generalizing steps canceled s with
    | zero => rfl
    | succ fuel ih =>
      rw [runFrom_succ, runFrom_succ, Machine.step_of_agreeOn h]
      simp only [ih]
  rw [run, run, Machine.announce_of_agreeOn h, hfrom]

end Running

namespace Registry

/-- The opcodes that registrations give to a name, oldest first. -/
def reassigned (r : Registry) (later : List Proposal) (mnemonic : Bytes) : List Opcode :=
  (((accepted later).zip (r.registerAll later).2).filter fun (e, _) => e.mnemonic == mnemonic).map
    Prod.snd

/-- The instruction under the opcode that its name has after registrations: the last one that they
give to the name, or the same as before if they give it none. -/
def renewed (r : Registry) (later : List Proposal) (i : Instruction) : Instruction :=
  match r.describe i.op with
  | none => i
  | some mnemonic => { i with op := (r.reassigned later mnemonic).getLast?.getD i.op }

variable {r : Registry} {later : List Proposal} {mnemonic : Bytes}

theorem agreeOn_registerAll (later : List Proposal) {code : Code}
    (h : ∀ i ∈ code, (r.describe i.op).isSome = true) :
    AgreeOn code r (r.registerAll later).1 := by
  intro i hi
  obtain ⟨name, hname⟩ := Option.isSome_iff_exists.mp (h i hi)
  obtain ⟨e, he, -⟩ := Option.map_eq_some_iff.mp hname
  have hlt : i.op.toNat < r.entries.length := (List.getElem?_eq_some_iff.mp he).1
  rw [Tables.entry?, Tables.entry?, entries_registerAll, List.getElem?_append_left hlt]

private theorem reassigned_cons_refused {p : Proposal} (hp : p.outcome = none) :
    r.reassigned (p :: later) mnemonic = r.reassigned later mnemonic := by
  have hacc : accepted (p :: later) = accepted later := List.filterMap_cons_none hp
  rw [reassigned, reassigned, registerAll_eq, registerAll_eq, hacc]

private theorem reassigned_cons_accepted {p : Proposal} {e : Entry} (hp : p.outcome = some e) :
    r.reassigned (p :: later) mnemonic =
      (if e.mnemonic = mnemonic then [UInt32.ofNat r.size] else []) ++
        (r.append e).reassigned later mnemonic := by
  have hacc : accepted (p :: later) = e :: accepted later := List.filterMap_cons_some hp
  rw [reassigned, reassigned, registerAll, register_of_outcome hp, hacc]
  by_cases h : e.mnemonic = mnemonic <;> simp [h]

/-- The opcodes registered under a name are those from before and those that were given since. -/
theorem registrations_registerAll (r : Registry) (later : List Proposal) (mnemonic : Bytes) :
    (r.registerAll later).1.registrations mnemonic =
      r.registrations mnemonic ++ r.reassigned later mnemonic := by
  induction later generalizing r with
  | nil => simp [registerAll, reassigned, accepted]
  | cons p rest ih =>
    cases hp : p.outcome with
    | none =>
      obtain ⟨fault, hrefused⟩ := register_of_refused (r := r) hp
      rw [reassigned_cons_refused hp, registerAll, hrefused]
      exact ih r
    | some e =>
      rw [reassigned_cons_accepted hp, registerAll, register_of_outcome hp, ← List.append_assoc,
        ← registrations_append]
      exact ih (r.append e)

/-- A name means the last opcode that it was given since, or else what it meant before. -/
theorem resolve_registerAll {op : Opcode} (h : r.resolve mnemonic = some op) :
    (r.registerAll later).1.resolve mnemonic =
      some ((r.reassigned later mnemonic).getLast?.getD op) := by
  rw [resolve_eq_getLast?] at h ⊢
  rw [registrations_registerAll, List.getLast?_append, h]
  cases (r.reassigned later mnemonic).getLast? <;> rfl

theorem renewed_of_resolve (hsize : r.size < UInt32.size) {op : Opcode}
    (h : r.resolve mnemonic = some op) (arg : Int64) :
    r.renewed later ⟨op, arg⟩ = ⟨(r.reassigned later mnemonic).getLast?.getD op, arg⟩ := by
  rw [renewed, describe_of_resolve hsize h]

theorem reassigned_eq_nil (r : Registry) (h : ∀ e ∈ accepted later, e.mnemonic ≠ mnemonic) :
    r.reassigned later mnemonic = [] := by
  rw [reassigned, List.map_eq_nil_iff, List.filter_eq_nil_iff]
  rintro ⟨e, op⟩ hmem
  have he := h e (List.of_mem_zip hmem).1
  simpa using he

end Registry

namespace Assembly

open Registry (Proposal registerAll)

variable {r : Registry} {later : List Proposal}

private theorem reads_registerAll (hsize : r.size < UInt32.size) {ts : List Bytes}
    {found : Option Instruction} (h : Reads r ts found) :
    Reads (r.registerAll later).1 ts (found.map (r.renewed later)) := by
  cases h with
  | blank => exact .blank
  | bare hr =>
    rw [Option.map_some, Registry.renewed_of_resolve hsize hr]
    exact .bare (Registry.resolve_registerAll hr)
  | full hr hs =>
    rw [Option.map_some, Registry.renewed_of_resolve hsize hr]
    exact .full (Registry.resolve_registerAll hr) hs

/-- A text that assembles still does after registrations, to the same instructions under the
opcodes that their names have then. -/
theorem assemble_registerAll (hsize : r.size < UInt32.size) {source : Bytes} {code : Code}
    (h : assemble r source = .ok code) :
    assemble (r.registerAll later).1 source = .ok (code.map (r.renewed later)) := by
  rw [assemble_eq_lines_sourceLines, lines_eq_ok_iff] at h ⊢
  obtain ⟨found, hreads, rfl⟩ := h
  refine ⟨found.map (Option.map (r.renewed later)), ?_, ?_⟩
  · rw [List.forall₂_map_right_iff]
    exact hreads.imp fun _ _ hread => reads_registerAll hsize hread
  · rw [List.reduceOption_map]

/-- The names that the lines of a program text begin with. -/
def mnemonics (source : Bytes) : List Bytes :=
  (sourceLines source).filterMap fun line => (tokens line).head?

/-- Registrations under other names do not change what a text is assembled to. -/
theorem assemble_registerAll_of_untouched (hsize : r.size < UInt32.size) {source : Bytes}
    {code : Code} (h : assemble r source = .ok code)
    (hnames : ∀ m ∈ mnemonics source, ∀ e ∈ Registry.accepted later, e.mnemonic ≠ m) :
    assemble (r.registerAll later).1 source = .ok code := by
  have hsame : ∀ i ∈ code, r.renewed later i = i := by
    intro i hi
    have hlines := assemble_eq_lines_sourceLines r source ▸ h
    obtain ⟨line, hline, hread⟩ := exists_line_of_mem hlines hi
    have hkept (m : Bytes) (hm : (tokens line).head? = some m) : r.reassigned later m = [] :=
      r.reassigned_eq_nil (hnames m (List.mem_filterMap.mpr ⟨line, hline, hm⟩))
    generalize tokens line = ts at hread hkept
    cases hread with
    | bare hr => rw [Registry.renewed_of_resolve hsize hr, hkept _ rfl]; rfl
    | full hr _ => rw [Registry.renewed_of_resolve hsize hr, hkept _ rfl]; rfl
  rw [assemble_registerAll hsize h, List.map_congr_left hsame, List.map_id']

end Assembly

/-- Registrations are conservative. A code of registered opcodes takes the same steps and has the
same runs, with or without limits, as before; a text that assembled still does, to the same
instructions, each under the last opcode that its name was given since, if any. -/
theorem Registry.registerAll_conservative {r : Registry} (hsize : r.size < UInt32.size)
    (later : List Proposal) :
    let extended := (r.registerAll later).1
    (∀ code : Code, (∀ i ∈ code, (r.describe i.op).isSome = true) →
      (∀ s, Machine.step extended code s = Machine.step r code s) ∧
      (∀ fuel s, Machine.run fuel extended code s = Machine.run fuel r code s) ∧
      ∀ fuel context maxSteps s, Budget.run fuel context maxSteps extended code s =
        Budget.run fuel context maxSteps r code s) ∧
    ∀ source code, Assembly.assemble r source = .ok code →
      Assembly.assemble extended source = .ok (code.map (r.renewed later)) := by
  intro extended
  refine ⟨fun code hcode => ?_, fun source code h => ?_⟩
  · have hagree : AgreeOn code r extended := agreeOn_registerAll later hcode
    exact ⟨Machine.step_of_agreeOn hagree, Machine.run_of_agreeOn hagree,
      Budget.run_of_agreeOn hagree⟩
  · exact Assembly.assemble_registerAll hsize h

/-- The built-ins with two of their names taken over, one of them twice: the text gets the newest
opcodes, and the code that it had been assembled to still means what it meant. -/
theorem Registry.registerAll_conservative_takeover :
    let extended := (builtins.registerAll takeover).1
    let source := utf8 "LOAD_CONST 1\nADD\nEXIT"
    let code : Code := [⟨1, 1⟩, ⟨4, 0⟩, ⟨2, 0⟩]
    Assembly.assemble builtins source = .ok code ∧
    Assembly.assemble extended source = .ok [⟨1, 1⟩, ⟨15, 0⟩, ⟨14, 0⟩] ∧
    ∀ fuel s, Machine.run fuel extended code s = Machine.run fuel builtins code s := by
  intro extended source code
  obtain ⟨hrun, hassemble⟩ := registerAll_conservative (r := builtins) (by decide) takeover
  have hcode : Assembly.assemble builtins source = .ok code := by decide +kernel
  have hrenewed : code.map (builtins.renewed takeover) = [⟨1, 1⟩, ⟨15, 0⟩, ⟨14, 0⟩] := by
    decide +kernel
  exact ⟨hcode, hrenewed ▸ hassemble source code hcode, (hrun code (by decide)).2.1⟩

end StackMachine
