import StackMachine.Builtin

/-! The effect of every built-in instruction. Whether it fails depends on how many values are on the
stack, and for a division on the top one. If it succeeds, it replaces the values that it is
documented to take by as many as it is documented to put there; if it fails, those that it would
have taken are gone as far as they were there, and nothing else has changed. -/
namespace StackMachine

/-- The instruction has done what it does, whether the program goes on or ends. -/
def Verdict.IsSuccess (verdict : Verdict) : Prop :=
  verdict = .proceed ∨ verdict = .halt

namespace Builtin

/-- The number of values that have to be on the stack. -/
def needs : Builtin → Nat
  | .loadConst | .exit | .jmp => 0
  | .print | .pop | .dup | .jmpz | .write | .writeChar => 1
  | .add | .div | .eq | .neq => 2

/-- The values that come in the place of those taken, both with the top first. Sums and quotients
are those of integers, the latter truncated, and are brought back to 64 bits. -/
def results (arg : Int64) : Builtin → List Int64 → List Int64
  | .loadConst, _ => [arg]
  | .dup, [v] => [v, v]
  | .add, [y, x] => [Int64.ofInt (x.toInt + y.toInt)]
  | .div, [y, x] => [Int64.ofInt (x.toInt.tdiv y.toInt)]
  | .eq, [y, x] => [if x = y then 1 else 0]
  | .neq, [y, x] => [if x = y then 0 else 1]
  | _, _ => []

/-- What is added to the output. -/
def outputs (b : Builtin) (s : State) : Bytes :=
  match b, s.peek? with
  | .write, some top => Text.Decimal.ofInt64 top
  | .writeChar, some top => character top
  | _, _ => []

/-- What is added to the diagnostic stream. -/
def prints (b : Builtin) (s : State) : Bytes :=
  match b, s.peek? with
  | .print, some top => Text.Decimal.ofInt64 top ++ [newline]
  | _, _ => []

/-- The built-in sets the counter: a jump always, a conditional one if the top of the stack is
zero. -/
def Jumps (b : Builtin) (s : State) : Prop :=
  b = .jmp ∨ b = .jmpz ∧ s.peek? = some 0

instance (b : Builtin) (s : State) : Decidable (b.Jumps s) :=
  inferInstanceAs (Decidable (_ ∨ _))

/-- The built-in divides by zero. -/
def DividesByZero (b : Builtin) (s : State) : Prop :=
  b = .div ∧ 2 ≤ s.depth ∧ s.peek? = some 0

/-- What a built-in that succeeds makes of a state. -/
structure Succeeds (b : Builtin) (arg : Int64) (s t : State) : Prop where
  stack : ∃ taken rest, s.stack = taken ++ rest ∧ taken.length = b.pops ∧
    t.stack = results arg b taken ++ rest ∧ (results arg b taken).length = b.pushes
  pc : t.pc = if b.Jumps s then arg else s.pc
  output : t.output = s.output ++ b.outputs s
  diagnostics : t.diagnostics = s.diagnostics ++ b.prints s
  debug : t.debug = s.debug

/-- What a built-in that fails makes of a state. -/
structure Fails (b : Builtin) (s t : State) : Prop where
  stack : t.stack = s.stack.drop (min s.depth b.pops)
  pc : t.pc = s.pc
  output : t.output = s.output
  diagnostics : t.diagnostics = s.diagnostics
  debug : t.debug = s.debug

section Words

variable (x y : Int64)

theorem ofInt_toInt_add : Int64.ofInt (x.toInt + y.toInt) = x + y := by
  rw [Int64.ofInt_add, Int64.ofInt_toInt, Int64.ofInt_toInt]

theorem ofInt_toInt_tdiv : Int64.ofInt (x.toInt.tdiv y.toInt) = x / y := by
  rw [Int64.ofInt_tdiv x.minValue_le_toInt x.toInt_le y.minValue_le_toInt y.toInt_le,
    Int64.ofInt_toInt, Int64.ofInt_toInt]

/-- Only one quotient does not fit, and it is the dividend again. -/
theorem toInt_div_eq :
    (x / y).toInt = if x = Int64.minValue ∧ y = -1 then x.toInt else x.toInt.tdiv y.toInt := by
  split
  · rename_i h
    obtain ⟨rfl, rfl⟩ := h
    decide
  · rename_i h
    rcases Decidable.not_and_iff_not_or_not.mp h with hx | hy
    · exact Int64.toInt_div_of_ne_left x y hx
    · exact Int64.toInt_div_of_ne_right x y hy

end Words

variable {b : Builtin} {s t : State} {arg : Int64}

/-- The depth of the stack changes as the documentation says. -/
theorem Succeeds.depth (h : Succeeds b arg s t) : t.depth + b.pops = s.depth + b.pushes := by
  obtain ⟨taken, rest, hs, htaken, ht, hresults⟩ := h.stack
  rw [State.depth, State.depth, hs, ht, List.length_append, List.length_append, htaken, hresults]
  omega

section Outcomes

private theorem fails_with (b : Builtin) {rest : List Int64}
    (h : rest = s.stack.drop (min s.depth b.pops)) : Fails b s { s with stack := rest } :=
  ⟨h, rfl, rfl, rfl, rfl⟩

/-- Without enough values on the stack a built-in underflows. -/
theorem effect_of_depth_lt (h : s.depth < b.needs) :
    ∃ t, b.effect s arg = .fail t .stackUnderflow ∧ Fails b s t := by
  obtain ⟨pc, debug, stack, written, reported⟩ := s
  cases b with
  | loadConst | exit | jmp => exact absurd h (Nat.not_lt_zero _)
  | print | pop | dup | jmpz | write | writeChar =>
    obtain rfl : stack = [] := List.length_eq_zero_iff.mp (Nat.lt_one_iff.mp h)
    exact ⟨_, rfl, fails_with _ rfl⟩
  | add | div | eq | neq =>
    match stack, h with
    | [], _ => exact ⟨_, rfl, fails_with _ rfl⟩
    | [_], _ => exact ⟨_, rfl, fails_with _ rfl⟩

theorem effect_of_dividesByZero (h : b.DividesByZero s) :
    ∃ t, b.effect s arg = .fail t .divideByZero ∧ Fails b s t := by
  obtain ⟨pc, debug, stack, written, reported⟩ := s
  obtain ⟨rfl, hdepth, htop⟩ := h
  match stack, hdepth, htop with
  | _ :: _ :: rest, _, rfl => exact ⟨_, rfl, fails_with _ (by simp [State.depth, pops])⟩

theorem effect_exit (s : State) (arg : Int64) :
    effect .exit s arg = .halt s ∧ Succeeds .exit arg s s :=
  ⟨rfl, ⟨[], s.stack, rfl, rfl, rfl, rfl⟩, rfl, (List.append_nil _).symm, (List.append_nil _).symm,
    rfl⟩

/-- The built-in acts on nothing but the stack. -/
private abbrev Quiet (b : Builtin) : Prop :=
  b ∉ [.print, .jmp, .jmpz, .write, .writeChar]

private theorem Quiet.spec (h : b.Quiet) (s : State) :
    ¬ b.Jumps s ∧ b.outputs s = [] ∧ b.prints s = [] := by
  cases b with
  | print | jmp | jmpz | write | writeChar => exact absurd (by decide) h
  | loadConst | exit | pop | add | div | eq | neq | dup => exact ⟨by simp [Jumps], rfl, rfl⟩

private theorem succeeds_replacing (b : Builtin) (hquiet : b.Quiet) (taken : List Int64)
    {new : List Int64} (htaken : taken.length = b.pops) (hresults : results arg b taken = new)
    (hnew : new.length = b.pushes) {rest : List Int64} (hs : s.stack = taken ++ rest) :
    Succeeds b arg s { s with stack := new ++ rest } := by
  obtain ⟨hjumps, houtputs, hprints⟩ := hquiet.spec s
  subst hresults
  exact
    { stack := ⟨taken, rest, hs, htaken, rfl, hnew⟩
      pc := (if_neg hjumps).symm
      output := by rw [houtputs, List.append_nil]; rfl
      diagnostics := by rw [hprints, List.append_nil]; rfl
      debug := rfl }

private theorem exists_cons_cons {stack : List Int64} (h : 2 ≤ stack.length) :
    ∃ y x rest, stack = y :: x :: rest := by
  match stack, h with
  | y :: x :: rest, _ => exact ⟨y, x, rest, rfl⟩

private theorem results_add (x y : Int64) : results arg .add [y, x] = [x + y] := by
  rw [results, ofInt_toInt_add]

private theorem results_div (x y : Int64) : results arg .div [y, x] = [x / y] := by
  rw [results, ofInt_toInt_tdiv]

private theorem results_eq (x y : Int64) : results arg .eq [y, x] = [truth (x == y)] := by
  simp [results, truth]

private theorem results_neq (x y : Int64) : results arg .neq [y, x] = [truth (x != y)] := by
  by_cases h : x = y <;> simp [results, truth, h]

private theorem succeeds_binary (b : Builtin) (hquiet : b.Quiet) (hb : b.pops = 2 ∧ b.pushes = 1)
    {op : Int64 → Int64 → Except Kind Int64} {x y v : Int64} {rest : List Int64}
    (hs : s.stack = y :: x :: rest) (hop : op x y = .ok v) (hresults : results arg b [y, x] = [v]) :
    ∃ t, binary s op = .proceed t ∧ Succeeds b arg s t := by
  refine ⟨_, ?_, succeeds_replacing b hquiet [y, x] hb.1.symm hresults hb.2.symm hs⟩
  simp [binary, State.pop?, hs, hop, State.push]

/-- With enough values, and without a division by zero, every other built-in succeeds and goes
on. -/
theorem effect_of_needs_le (hexit : b ≠ .exit) (hdepth : b.needs ≤ s.depth)
    (hzero : ¬ b.DividesByZero s) :
    ∃ t, b.effect s arg = .proceed t ∧ Succeeds b arg s t := by
  obtain ⟨pc, debug, stack, written, reported⟩ := s
  cases b with
  | exit => exact absurd rfl hexit
  | loadConst => exact ⟨_, rfl, succeeds_replacing .loadConst (by decide) [] rfl rfl rfl rfl⟩
  | jmp =>
    exact ⟨_, rfl, ⟨[], stack, rfl, rfl, rfl, rfl⟩, (if_pos (.inl rfl)).symm,
      (List.append_nil _).symm, (List.append_nil _).symm, rfl⟩
  | pop =>
    obtain ⟨top, rest, rfl⟩ := List.exists_cons_of_length_pos hdepth
    exact ⟨_, rfl, succeeds_replacing .pop (by decide) [top] rfl rfl rfl rfl⟩
  | dup =>
    obtain ⟨top, rest, rfl⟩ := List.exists_cons_of_length_pos hdepth
    exact ⟨_, rfl, succeeds_replacing .dup (by decide) [top] rfl rfl rfl rfl⟩
  | print =>
    obtain ⟨top, rest, rfl⟩ := List.exists_cons_of_length_pos hdepth
    exact ⟨_, rfl, ⟨[], top :: rest, rfl, rfl, rfl, rfl⟩, (if_neg (by simp [Jumps])).symm,
      (List.append_nil _).symm, State.diagnostics_report _ _, rfl⟩
  | write | writeChar =>
    obtain ⟨top, rest, rfl⟩ := List.exists_cons_of_length_pos hdepth
    exact ⟨_, rfl, ⟨[], top :: rest, rfl, rfl, rfl, rfl⟩, (if_neg (by simp [Jumps])).symm,
      State.output_write _ _, (List.append_nil _).symm, rfl⟩
  | jmpz =>
    obtain ⟨top, rest, rfl⟩ := List.exists_cons_of_length_pos hdepth
    by_cases htop : top = 0
    · subst htop
      exact ⟨_, rfl, ⟨[0], rest, rfl, rfl, rfl, rfl⟩, (if_pos (.inr ⟨rfl, rfl⟩)).symm,
        (List.append_nil _).symm, (List.append_nil _).symm, rfl⟩
    · have hstays : ¬ Jumps .jmpz ⟨pc, debug, top :: rest, written, reported⟩ := by
        simp [Jumps, State.peek?, htop]
      refine ⟨⟨pc, debug, rest, written, reported⟩, ?_, ⟨[top], rest, rfl, rfl, rfl, rfl⟩,
        (if_neg hstays).symm, (List.append_nil _).symm, (List.append_nil _).symm, rfl⟩
      simp [effect, State.pop?, htop]
  | add =>
    obtain ⟨y, x, rest, rfl⟩ := exists_cons_cons hdepth
    rw [effect]
    exact succeeds_binary .add (by decide) ⟨rfl, rfl⟩ rfl rfl (results_add x y)
  | eq =>
    obtain ⟨y, x, rest, rfl⟩ := exists_cons_cons hdepth
    rw [effect]
    exact succeeds_binary .eq (by decide) ⟨rfl, rfl⟩ rfl rfl (results_eq x y)
  | neq =>
    obtain ⟨y, x, rest, rfl⟩ := exists_cons_cons hdepth
    rw [effect]
    exact succeeds_binary .neq (by decide) ⟨rfl, rfl⟩ rfl rfl (results_neq x y)
  | div =>
    obtain ⟨y, x, rest, rfl⟩ := exists_cons_cons hdepth
    have hy : y ≠ 0 := fun hy => hzero ⟨rfl, hdepth, congrArg some hy⟩
    rw [effect]
    exact succeeds_binary .div (by decide) ⟨rfl, rfl⟩ rfl (if_neg hy) (results_div x y)

end Outcomes

/-- The ways in which a built-in can react to a state, each with when it does. -/
inductive Reacts (b : Builtin) (arg : Int64) (s : State) : Reaction → Prop where
  | underflow {t : State} : s.depth < b.needs → Fails b s t →
      Reacts b arg s (.fail t .stackUnderflow)
  | division {t : State} : b.DividesByZero s → Fails b s t → Reacts b arg s (.fail t .divideByZero)
  | halt : b = .exit → Succeeds b arg s s → Reacts b arg s (.halt s)
  | proceed {t : State} : b ≠ .exit → b.needs ≤ s.depth → ¬ b.DividesByZero s →
      Succeeds b arg s t → Reacts b arg s (.proceed t)

theorem reacts_effect (b : Builtin) (arg : Int64) (s : State) :
    Reacts b arg s (b.effect s arg) := by
  rcases Nat.lt_or_ge s.depth b.needs with hdepth | hdepth
  · obtain ⟨t, ht, hfails⟩ := effect_of_depth_lt hdepth
    exact ht ▸ .underflow hdepth hfails
  · by_cases hzero : b.DividesByZero s
    · obtain ⟨t, ht, hfails⟩ := effect_of_dividesByZero hzero
      exact ht ▸ .division hzero hfails
    · by_cases hexit : b = .exit
      · subst hexit
        exact .halt rfl (effect_exit s arg).2
      · obtain ⟨t, ht, hsucceeds⟩ := effect_of_needs_le hexit hdepth hzero
        exact ht ▸ .proceed hexit hdepth hzero hsucceeds

section Reacting

variable {reaction : Reaction}

theorem DividesByZero.needs_le (h : b.DividesByZero s) : b.needs ≤ s.depth := by
  obtain ⟨rfl, hdepth, -⟩ := h
  exact hdepth

theorem Reacts.underflow_iff (h : Reacts b arg s reaction) :
    reaction.verdict = .fail (.kind .stackUnderflow) false ↔ s.depth < b.needs := by
  cases h with
  | underflow hdepth _ => exact iff_of_true rfl hdepth
  | division hzero _ => exact iff_of_false nofun (Nat.not_lt.mpr hzero.needs_le)
  | halt hexit _ =>
    subst hexit
    exact iff_of_false nofun (Nat.not_lt_zero _)
  | proceed _ hdepth _ _ => exact iff_of_false nofun (Nat.not_lt.mpr hdepth)

theorem Reacts.division_iff (h : Reacts b arg s reaction) :
    reaction.verdict = .fail (.kind .divideByZero) false ↔ b.DividesByZero s := by
  cases h with
  | underflow hdepth _ =>
    exact iff_of_false nofun fun hzero => Nat.not_lt.mpr hzero.needs_le hdepth
  | division hzero _ => exact iff_of_true rfl hzero
  | halt hexit _ =>
    subst hexit
    exact iff_of_false nofun fun hzero => nomatch hzero.1
  | proceed _ _ hzero _ => exact iff_of_false nofun hzero

theorem Reacts.halt_iff (h : Reacts b arg s reaction) : reaction.verdict = .halt ↔ b = .exit := by
  cases h with
  | underflow hdepth _ =>
    refine iff_of_false nofun ?_
    rintro rfl
    exact Nat.not_lt_zero _ hdepth
  | division hzero _ =>
    refine iff_of_false nofun ?_
    rintro rfl
    cases hzero.1
  | halt hexit _ => exact iff_of_true rfl hexit
  | proceed hexit _ _ _ => exact iff_of_false nofun hexit

/-- Whatever the reaction, the state has become what a success or a failure makes of it. -/
theorem Reacts.state_spec (h : Reacts b arg s reaction) :
    reaction.verdict.IsSuccess ∧ b.Succeeds arg s reaction.state ∨
      (reaction.verdict = .fail (.kind .stackUnderflow) false ∨
        reaction.verdict = .fail (.kind .divideByZero) false) ∧ b.Fails s reaction.state := by
  cases h with
  | underflow _ hfails => exact .inr ⟨.inl rfl, hfails⟩
  | division _ hfails => exact .inr ⟨.inr rfl, hfails⟩
  | halt _ hsucceeds => exact .inl ⟨.inr rfl, hsucceeds⟩
  | proceed _ _ _ hsucceeds => exact .inl ⟨.inl rfl, hsucceeds⟩

end Reacting

/-- The effect of a built-in, whatever the state and the operand. It underflows exactly if the stack
is not deep enough, divides by zero exactly if it is a division with a zero on top of the stack, and
halts exactly if it is the exit; the state becomes what a success or a failure makes of it. A sum
wraps round, and a quotient is exact but for the one that does not fit, which is the dividend. -/
theorem effect_accounted (b : Builtin) (s : State) (arg : Int64) :
    let reaction := b.effect s arg
    (reaction.verdict = .fail (.kind .stackUnderflow) false ↔ s.depth < b.needs) ∧
    (reaction.verdict = .fail (.kind .divideByZero) false ↔ b.DividesByZero s) ∧
    (reaction.verdict = .halt ↔ b = .exit) ∧
    (reaction.verdict.IsSuccess ∧ b.Succeeds arg s reaction.state ∨
      (reaction.verdict = .fail (.kind .stackUnderflow) false ∨
        reaction.verdict = .fail (.kind .divideByZero) false) ∧ b.Fails s reaction.state) ∧
    (∀ x y, (results arg .add [y, x]).map Int64.toInt = [(x.toInt + y.toInt).bmod Int64.size]) ∧
    ∀ x y, (results arg .div [y, x]).map Int64.toInt =
      [if x = Int64.minValue ∧ y = -1 then x.toInt else x.toInt.tdiv y.toInt] := by
  intro reaction
  have h : Reacts b arg s reaction := reacts_effect b arg s
  refine ⟨h.underflow_iff, h.division_iff, h.halt_iff, h.state_spec, fun x y => ?_, fun x y => ?_⟩
  · rw [results_add, List.map_singleton, Int64.toInt_add]
  · rw [results_div, List.map_singleton, toInt_div_eq]

/-- One of two operands is gone when the other one is missed. -/
example : (effect .add { stack := [5] } 0).state = {} := by
  decide

example : (effect .div { stack := [-1, Int64.minValue] } 0).state.stack = [Int64.minValue] := by
  decide

end Builtin

end StackMachine
