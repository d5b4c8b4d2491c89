import Mathlib.Logic.Function.Iterate
import StackMachine.Proofs.Machine.Steps

/-! Traced runs. The built-in instructions neither look at the debug flag nor at what was written
to the diagnostic stream, so a traced run is the untraced one with texts added to the stream. -/
namespace StackMachine

/-- The state with another debug flag and another diagnostic stream. -/
def State.retold (s : State) (debug : Bool) (reported : Diagnostics) : State :=
  { s with debug, reported }

theorem State.retold_of_not_debug {s : State} (hs : s.debug = false) :
    s.retold false s.reported = s := by
  rw [← hs]
  rfl

/-- The reaction with another debug flag and another diagnostic stream. -/
def Reaction.retold (x : Reaction) (debug : Bool) (reported : Diagnostics) : Reaction :=
  { x with state := x.state.retold debug reported }

/-- The result of a step with another debug flag and another diagnostic stream. -/
def StepResult.retold (x : StepResult) (debug : Bool) (reported : Diagnostics) : StepResult :=
  { x with state := x.state.retold debug reported }

/-- The finished run with another debug flag and another diagnostic stream. -/
def Finish.retold (f : Finish) (debug : Bool) (reported : Diagnostics) : Finish :=
  { f with state := f.state.retold debug reported }

theorem StepResult.finish?_retold (x : StepResult) (debug : Bool) (reported : Diagnostics) :
    (x.retold debug reported).finish? = x.finish?.map (·.retold debug reported) := by
  unfold finish? retold
  cases x.signal <;> rfl

/-- The instruction does not look at the debug flag and the diagnostic stream: it keeps the one and
adds the same text to the other, whatever they are. -/
def Behavior.Impartial (behavior : Behavior) : Prop :=
  ∀ s arg, ∃ text, ∀ debug reported,
    behavior (s.retold debug reported) arg =
      (behavior s arg).retold debug (reported.append text)

/-- Every instruction does what a built-in does, under whatever name. -/
def Registry.OfBuiltins (r : Registry) : Prop :=
  ∀ e ∈ r.entries, ∃ b : Builtin, e.behavior = b.effect

namespace Builtin

private theorem withTop_retold {s : State} (text : Int64 → Bytes) {debug : Bool}
    {reported : Diagnostics} {next next' : Int64 → State}
    (h : ∀ top, next' top = (next top).retold debug (reported.append (text top))) :
    withTop (s.retold debug reported) next' =
      (withTop s next).retold debug (reported.append ((s.peek?.map text).getD [])) := by
  have hpeek : (s.retold debug reported).peek? = s.peek? := rfl
  unfold withTop
  rw [hpeek]
  cases s.peek? with
  | none => rfl
  | some top => exact congrArg Reaction.proceed (h top)

private theorem binary_retold (s : State) (op : Int64 → Int64 → Except Kind Int64) (debug : Bool)
    (reported : Diagnostics) :
    binary (s.retold debug reported) op = (binary s op).retold debug reported := by
  obtain ⟨pc, flag, stack, written, told⟩ := s
  match stack with
  | [] => rfl
  | [b] => rfl
  | b :: a :: rest =>
    simp only [binary, State.retold, State.pop?]
    cases op a b <;> rfl

/-- No built-in looks at the debug flag or the diagnostic stream. -/
theorem impartial_effect (b : Builtin) : b.effect.Impartial := by
  intro s arg
  cases b with
  | print =>
    exact ⟨_, fun debug reported =>
      withTop_retold (fun top => Text.Decimal.ofInt64 top ++ [newline]) fun top => rfl⟩
  | loadConst | exit | jmp => exact ⟨[], fun debug reported => rfl⟩
  | pop =>
    refine ⟨[], fun debug reported => ?_⟩
    obtain ⟨pc, flag, stack, written, told⟩ := s
    cases stack <;> rfl
  | add | div | eq | neq =>
    refine ⟨[], fun debug reported => ?_⟩
    rw [effect]
    exact binary_retold s _ debug reported
  | jmpz =>
    refine ⟨[], fun debug reported => ?_⟩
    obtain ⟨pc, flag, stack, written, told⟩ := s
    cases stack with
    | nil => rfl
    | cons top rest =>
      simp only [effect, State.retold, State.pop?]
      split <;> rfl
  | dup | write | writeChar =>
    exact ⟨_, fun debug reported => withTop_retold (fun _ => []) fun top => rfl⟩

end Builtin

namespace Machine

/-- What a step adds to the diagnostic stream. -/
def said (r : Registry) (code : Code) (s : State) : Bytes :=
  (step r code s).state.diagnostics.drop s.diagnostics.length

/-- The trace line of the instruction that a step fetches; outside the code there is none. -/
def traceAt (r : Registry) (code : Code) (s : State) : Bytes :=
  match code.fetch? s.pc with
  | none => []
  | some i => traceLine r i s.pc

/-- The state that a number of steps lead to. -/
def after (r : Registry) (code : Code) (n : Nat) (s : State) : State :=
  (fun t => (step r code t).state)^[n] s

/-- What is told of a step that is traced or not. -/
def account (r : Registry) (code : Code) (traced : Bool) (s : State) : Bytes :=
  (if traced then traceAt r code s else []) ++ said r code s

/-- What is told of the first `n` steps of a run. -/
def accounts (r : Registry) (code : Code) (traced : Bool) (n : Nat) (s : State) : Bytes :=
  (List.range n).flatMap fun i => account r code traced (after r code i s)

variable {r : Registry} {code : Code} {s : State}

theorem after_succ (n : Nat) :
    after r code (n + 1) s = (step r code (after r code n s)).state :=
  Function.iterate_succ_apply' _ n s

theorem accounts_succ (traced : Bool) (n : Nat) :
    accounts r code traced (n + 1) s =
      accounts r code traced n s ++ account r code traced (after r code n s) := by
  simp [accounts, List.range_succ]

theorem Proceeds.eq_after {n : Nat} {t : State} {cancels : Bool}
    (h : Proceeds r code s n t cancels) : t = after r code n s := by
  induction h with
  | start => rfl
  | step _ _ ih => rw [after_succ, ← ih]

section Retelling

/-- Entering an instruction with another flag and stream adds the trace line if the flag is set. -/
private theorem entering_retold (hs : s.debug = false) (i : Instruction) (debug : Bool)
    (reported : Diagnostics) :
    entering r i (s.retold debug reported) =
      (entering r i s).retold debug
        (reported.append (if debug then traceLine r i s.pc else [])) := by
  unfold entering
  rw [hs]
  cases debug <;> rfl

private theorem said_eq_of_append {text : Bytes}
    (h : (step r code s).state.diagnostics = s.diagnostics ++ text) : said r code s = text := by
  rw [said, h, List.drop_left]

/-- A step with another flag and stream is the same step with the account of it added. -/
theorem step_retold (hr : r.OfBuiltins) (code : Code) (hs : s.debug = false) (debug : Bool)
    (reported : Diagnostics) :
    step r code (s.retold debug reported) =
      (step r code s).retold debug (reported.append (account r code debug s)) := by
  have hpc : (s.retold debug reported).pc = s.pc := rfl
  cases hf : code.fetch? s.pc with
  | none =>
    have hsaid : said r code s = [] := said_eq_of_append (by simp [step_outside hf])
    have haccount : account r code debug s = [] := by simp [account, traceAt, hf, hsaid]
    rw [step_outside (hpc ▸ hf), step_outside hf, haccount]
    rfl
  | some i =>
    cases he : r.entry? i.op with
    | none =>
      have hsaid : said r code s = [] :=
        said_eq_of_append (by simp [step_unknown hf he, entering, hs, State.diagnostics])
      rw [step_unknown (hpc ▸ hf) he, step_unknown hf he, entering_retold hs, account, hsaid,
        List.append_nil, traceAt, hf]
      rfl
    | some e =>
      obtain ⟨b, hb⟩ := hr e (List.mem_of_getElem? he)
      obtain ⟨text, htext⟩ := b.impartial_effect (entering r i s) i.arg
      -- What the instruction adds is told apart by running it with the flag and stream it has.
      have hself : (entering r i s).retold false s.reported = entering r i s := by
        have hreported : (entering r i s).reported = s.reported := by simp [entering, hs]
        rw [← hreported]
        exact State.retold_of_not_debug (by simp [entering, hs])
      have hsaid : said r code s = text := by
        have hreaction := htext false s.reported
        rw [hself] at hreaction
        refine said_eq_of_append ?_
        rw [step_known hf he, hb, hreaction]
        exact Diagnostics.text_append _ _
      rw [step_known (hpc ▸ hf) he, step_known hf he, hb, entering_retold hs, htext,
        Diagnostics.append_append, account, hsaid, traceAt, hf]
      rfl

/-- A step keeps the debug flag down and only adds to the diagnostic stream. -/
theorem step_of_not_debug (hr : r.OfBuiltins) (hs : s.debug = false) :
    (step r code s).state.debug = false ∧
      (step r code s).state.diagnostics = s.diagnostics ++ said r code s := by
  have hstep := step_retold hr code hs false s.reported
  rw [State.retold_of_not_debug hs] at hstep
  rw [hstep]
  exact ⟨rfl, Diagnostics.text_append _ _⟩

/-- Steps that let a run go on do so with another flag and stream, and lead to the same state with
the accounts of them added. -/
theorem Proceeds.retold (hr : r.OfBuiltins) (hs : s.debug = false) {n : Nat} {t : State}
    {cancels : Bool} (h : Proceeds r code s n t cancels) (debug : Bool) (reported : Diagnostics) :
    t.debug = false ∧
      Proceeds r code (s.retold debug reported) n
        (t.retold debug (reported.append (accounts r code debug n s))) cancels := by
  induction h with
  | start => exact ⟨hs, .start⟩
  | step hp hmore ih =>
    rename_i n t cancels
    obtain ⟨ht, hp'⟩ := ih
    -- The next step starts from a stream that holds the accounts of all the steps before it.
    have hstep := step_retold hr code ht debug (reported.append (accounts r code debug n s))
    rw [Diagnostics.append_append] at hstep
    have hnext := hp'.step (by rw [hstep]; exact hmore)
    rw [hstep] at hnext
    rw [accounts_succ, ← hp.eq_after]
    exact ⟨(step_of_not_debug hr ht).1, hnext⟩

end Retelling

section Announcing

/-- Every instruction of the code has a name. -/
def listable (r : Registry) (code : Code) : Bool :=
  code.all fun i => (r.describe i.op).isSome

/-- What a traced run begins with: a line for each instruction up to the first one without a name,
and two more lines if there is such an instruction. -/
def header (r : Registry) (code : Code) : Bytes :=
  utf8 "=== running vm ======================\n" ++ utf8 "disassembly of run code:\n" ++
    (code.takeWhile fun i => (r.describe i.op).isSome).flatMap
      (fun i => Listing.ofInstruction r i ++ [newline]) ++
    (if listable r code then []
    else utf8 "could not disassemble - op_id unknown...\n" ++ utf8 "turning off debug mode.\n") ++
    utf8 "=== end of disassembly\n\n"

private theorem fromIndex_plainLine (r : Registry) (index : Nat) (code : Code) :
    (Listing.fromIndex Listing.plainLine r index code).text =
        (code.takeWhile fun i => (r.describe i.op).isSome).flatMap
          (fun i => Listing.ofInstruction r i ++ [newline]) ∧
      (Listing.fromIndex Listing.plainLine r index code).fault.isPresent = !listable r code := by
  induction code generalizing index with
  | nil => exact ⟨rfl, rfl⟩
  | cons i rest ih =>
    obtain ⟨htext, hfault⟩ := ih (index + 1)
    unfold listable at hfault ⊢
    rw [Listing.fromIndex]
    cases hd : r.describe i.op with
    | none => simp [hd, Fault.isPresent]
    | some name =>
      simp [hd, htext, hfault, Listing.plainLine, Listing.ofInstruction,
        Registry.nameOf_of_describe hd]

theorem banner_eq_header (r : Registry) (code : Code) : banner r code = header r code := by
  obtain ⟨htext, hfault⟩ := fromIndex_plainLine r 0 code
  simp only [banner, header, htext, hfault]
  cases listable r code <;> rfl

theorem announce_traced (r : Registry) (code : Code) (s : State) :
    announce r code { s with debug := true } =
      s.retold (listable r code) (s.reported.append (header r code)) := by
  rw [← banner_eq_header]
  rfl

end Announcing

section Returning

theorem ReturnsAt.unique {n m : Nat} {f g : Finish} (h : ReturnsAt r code s n f)
    (h' : ReturnsAt r code s m g) : n = m ∧ f = g := by
  have hle {n m : Nat} {f g : Finish} (h : ReturnsAt r code s n f)
      (h' : ReturnsAt r code s m g) : n ≤ m := by
    by_contra hlt
    have hnone := h.2 m (by omega)
    rw [h'.1] at hnone
    cases hnone
  obtain rfl : n = m := Nat.le_antisymm (hle h h') (hle h' h)
  have hsome := h.1
  rw [h'.1, Option.some.injEq] at hsome
  exact ⟨rfl, hsome.symm⟩

/-- An untraced run writes what its steps say. -/
theorem ReturnsAt.diagnostics (hr : r.OfBuiltins) (hs : s.debug = false) {n : Nat} {f : Finish}
    (h : ReturnsAt r code s n f) :
    f.state.diagnostics = s.diagnostics ++ accounts r code false n s := by
  obtain ⟨k, t, cancels, rfl, hp, hf⟩ := returnsAt_iff.mp h
  rw [announce_of_not_debug r code hs] at hp
  obtain ⟨ht, hp'⟩ := hp.retold hr hs false s.reported
  rw [State.retold_of_not_debug hs] at hp'
  have hdiagnostics : t.diagnostics = s.diagnostics ++ accounts r code false k s := by
    rw [hp.state_unique hp']
    exact Diagnostics.text_append _ _
  rw [StepResult.state_of_finish? hf, (step_of_not_debug hr ht).2, hdiagnostics, accounts_succ,
    ← hp.eq_after, List.append_assoc]
  rfl

/-- A traced run returns when the untraced one does, in the same state and with the same outcome,
but for the debug flag and what it adds to the stream. -/
theorem ReturnsAt.traced (hr : r.OfBuiltins) (hs : s.debug = false) {n : Nat} {f : Finish}
    (h : ReturnsAt r code s n f) :
    ReturnsAt r code { s with debug := true } n
      (f.retold (listable r code) (s.reported.append
        (header r code ++ accounts r code (listable r code) n s))) := by
  obtain ⟨k, t, cancels, rfl, hp, hf⟩ := returnsAt_iff.mp h
  rw [announce_of_not_debug r code hs] at hp
  obtain ⟨ht, hp'⟩ := hp.retold hr hs (listable r code) (s.reported.append (header r code))
  refine returnsAt_iff.mpr ⟨k, _, cancels, rfl, announce_traced r code s ▸ hp', ?_⟩
  rw [step_retold hr code ht, StepResult.finish?_retold, hf, accounts_succ, ← hp.eq_after]
  simp [Diagnostics.append_append]

theorem exists_returnsAt_traced_iff (hr : r.OfBuiltins) (hs : s.debug = false) {n : Nat} :
    (∃ f, ReturnsAt r code s n f) ↔ ∃ g, ReturnsAt r code { s with debug := true } n g := by
  constructor
  · rintro ⟨f, hf⟩
    exact ⟨_, hf.traced hr hs⟩
  · rintro ⟨g, hg⟩
    rcases proceeds_or_finishes r code s n with ⟨t, cancels, hp⟩ | ⟨k, -, t, cancels, f, hp, hf⟩
    · -- The untraced run would go on for `n` steps, and so would the traced one.
      have hp' := (hp.retold hr hs (listable r code) (s.reported.append (header r code))).2
      rw [← announce_traced] at hp'
      have hnone : run n r code { s with debug := true } = none :=
        runFrom_eq_none_iff.mpr ⟨_, _, hp'⟩
      rw [hg.1] at hnone
      cases hnone
    · rw [← announce_of_not_debug r code hs] at hp
      have hreturns := returnsAt_iff.mpr ⟨k, t, cancels, rfl, hp, hf⟩
      obtain ⟨rfl, -⟩ := (hreturns.traced hr hs).unique hg
      exact ⟨f, hreturns⟩

/-- With the debug flag set, a run of built-in instructions returns exactly if it returns without,
after as many steps, with the same outcome, exit value, output, counter and stack. It writes the
header first and the trace line of each step before what the step says; if the code cannot be
listed, there are no trace lines and the flag is down afterwards. -/
theorem run_traced_like_untraced {r : Registry} (hr : r.OfBuiltins) (code : Code) {s : State}
    (hs : s.debug = false) (n : Nat) :
    ((∃ f, ReturnsAt r code s n f) ↔ ∃ g, ReturnsAt r code { s with debug := true } n g) ∧
    ∀ f g, ReturnsAt r code s n f → ReturnsAt r code { s with debug := true } n g →
      g.outcome = f.outcome ∧ g.exit = f.exit ∧ g.output = f.output ∧
      g.state.output = f.state.output ∧ g.state.pc = f.state.pc ∧
      g.state.stack = f.state.stack ∧ g.state.debug = listable r code ∧
      f.state.diagnostics = s.diagnostics ++ accounts r code false n s ∧
      g.state.diagnostics =
        s.diagnostics ++ header r code ++ accounts r code (listable r code) n s := by
  refine ⟨exists_returnsAt_traced_iff hr hs, fun f g hf hg => ?_⟩
  obtain ⟨-, rfl⟩ := hg.unique (hf.traced hr hs)
  refine ⟨rfl, rfl, rfl, rfl, rfl, rfl, rfl, hf.diagnostics hr hs, ?_⟩
  rw [List.append_assoc]
  exact Diagnostics.text_append _ _

end Returning

/-- Built-ins under names of their own; the last one takes over a name. -/
def renamed : Registry :=
  .ofEntries [⟨utf8 "PUSH", Builtin.effect .loadConst⟩, ⟨utf8 "SAY", Builtin.effect .print⟩,
    ⟨utf8 "PUSH", Builtin.effect .exit⟩]

/-- A program that says a number and exits, before an instruction that has no name. -/
theorem run_traced_like_untraced_renamed :
    let code : Code := [⟨0, 7⟩, ⟨1, 0⟩, ⟨2, 0⟩]
    renamed.OfBuiltins ∧
    (∃ g, ReturnsAt renamed code { debug := true } 3 g ∧ g.state.debug = true ∧
      g.state.diagnostics = utf8 "=== running vm ======================\n" ++
        utf8 "disassembly of run code:\nPUSH 7\nSAY 0\nPUSH 0\n=== end of disassembly\n\n" ++
        utf8 "-- exec PUSH arg=7 at pc=0\n-- exec SAY arg=0 at pc=1\n7\n" ++
        utf8 "-- exec PUSH arg=0 at pc=2\n") ∧
    ∃ g, ReturnsAt renamed (code ++ [⟨3, 0⟩]) { debug := true } 3 g ∧ g.state.debug = false ∧
      g.state.diagnostics = utf8 "=== running vm ======================\n" ++
        utf8 "disassembly of run code:\nPUSH 7\nSAY 0\nPUSH 0\n" ++
        utf8 "could not disassemble - op_id unknown...\nturning off debug mode.\n" ++
        utf8 "=== end of disassembly\n\n7\n" := by
  intro code
  have hr : renamed.OfBuiltins := by
    intro e he
    rw [renamed, Registry.entries_ofEntries] at he
    simp only [List.mem_cons, List.not_mem_nil, or_false] at he
    rcases he with rfl | rfl | rfl
    · exact ⟨.loadConst, rfl⟩
    · exact ⟨.print, rfl⟩
    · exact ⟨.exit, rfl⟩
  have hreturns (code' : Code) (f : Finish) (hn : run 3 renamed code' {} = some f)
      (hlt : ∀ k < 3, (run k renamed code' {}).isNone = true) :
      ReturnsAt renamed code' {} 3 f :=
    ⟨hn, fun k hk => Option.isNone_iff_eq_none.mp (hlt k hk)⟩
  refine ⟨hr, ?_, ?_⟩
  · obtain ⟨hiff, hsame⟩ := run_traced_like_untraced hr code (s := {}) rfl 3
    have hf := hreturns code _ rfl (by decide)
    obtain ⟨g, hg⟩ := hiff.mp ⟨_, hf⟩
    obtain ⟨-, -, -, -, -, -, hdebug, -, hdiagnostics⟩ := hsame _ g hf hg
    exact ⟨g, hg, hdebug, hdiagnostics.trans (by decide +kernel)⟩
  · obtain ⟨hiff, hsame⟩ := run_traced_like_untraced hr (code ++ [⟨3, 0⟩]) (s := {}) rfl 3
    have hf := hreturns (code ++ [⟨3, 0⟩]) _ rfl (by decide)
    obtain ⟨g, hg⟩ := hiff.mp ⟨_, hf⟩
    obtain ⟨-, -, -, -, -, -, hdebug, -, hdiagnostics⟩ := hsame _ g hf hg
    exact ⟨g, hg, hdebug, hdiagnostics.trans (by decide +kernel)⟩

end Machine

end StackMachine
