import StackMachine.Proofs.Registry
import StackMachine.Proofs.Text.Utf8

/-! What the built-in instructions can do: they add well-formed texts, fail for want of operands or
in a division by zero, and neither break off nor cancel the run. -/
namespace StackMachine

open Text.Utf8

/-- The texts of `t` are those of `s` with well-formed texts added, whichever writer they went
to. -/
structure State.Extends (s t : State) : Prop where
  output : ∃ text, valid text = true ∧ t.output = s.output ++ text
  diagnostics (w : Writer) :
    ∃ text, valid text = true ∧ t.reported.textOf w = s.reported.textOf w ++ text

namespace State

variable {s t : State}

theorem extends_of_eq (hw : t.written = s.written) (hr : t.reported = s.reported) :
    s.Extends t where
  output := ⟨[], rfl, by rw [State.output, hw, List.append_nil]; rfl⟩
  diagnostics _ := ⟨[], rfl, by rw [hr, List.append_nil]⟩

theorem extends_write {text : Bytes} (h : valid text = true) : s.Extends (s.write text) where
  output := ⟨text, h, output_write s text⟩
  diagnostics _ := ⟨[], rfl, (List.append_nil _).symm⟩

theorem extends_report {text : Bytes} (h : valid text = true) : s.Extends (s.report text) where
  output := ⟨[], rfl, (List.append_nil _).symm⟩
  diagnostics w := by
    refine ⟨_, ?_, s.reported.textOf_append text w⟩
    split
    · exact h
    · rfl

theorem pop?_eq_some_iff {v : Int64} :
    s.pop? = some (v, t) ↔ ∃ rest, s.stack = v :: rest ∧ t = { s with stack := rest } := by
  unfold pop?
  cases s.stack with
  | nil => simp
  | cons w rest =>
    simp only [Option.some.injEq, Prod.mk.injEq, List.cons.injEq]
    constructor
    · rintro ⟨rfl, rfl⟩
      exact ⟨rest, ⟨rfl, rfl⟩, rfl⟩
    · rintro ⟨rest', ⟨rfl, rfl⟩, rfl⟩
      exact ⟨rfl, rfl⟩

end State

namespace Builtin

/-- The ways in which a built-in can act on a state. Only the exit halts, only a division fails for
what it takes from the stack, and whatever fails leaves the counter where it was. -/
inductive Acts (b : Builtin) (s : State) : Reaction → Prop where
  | proceed {t : State} : s.Extends t → Acts b s (.proceed t)
  | halt : b = .exit → Acts b s (.halt s)
  | underflow {t : State} : s.Extends t → t.pc = s.pc → Acts b s (.fail t .stackUnderflow)
  | division {t : State} : b = .div → s.Extends t → t.pc = s.pc → Acts b s (.fail t .divideByZero)

variable {b : Builtin} {s : State}

theorem Acts.cancels_eq_false {reaction : Reaction} (h : Acts b s reaction) :
    reaction.cancels = false := by
  cases h <;> rfl

theorem Acts.extends_state {reaction : Reaction} (h : Acts b s reaction) :
    s.Extends reaction.state := by
  cases h with
  | proceed h => exact h
  | halt _ => exact State.extends_of_eq rfl rfl
  | underflow h _ => exact h
  | division _ h _ => exact h

theorem Acts.verdict_cases {reaction : Reaction} (h : Acts b s reaction) :
    reaction.verdict = .proceed ∨ reaction.verdict = .halt ∨
      ∃ k, reaction.verdict = .fail (.kind k) false := by
  cases h with
  | proceed _ => exact .inl rfl
  | halt _ => exact .inr (.inl rfl)
  | underflow _ _ => exact .inr (.inr ⟨_, rfl⟩)
  | division _ _ _ => exact .inr (.inr ⟨_, rfl⟩)

theorem valid_character (v : Int64) : valid (character v) = true := by
  unfold character
  split
  · exact character_replacement.valid
  · exact valid_encode _

private theorem acts_withTop {next : Int64 → State} (h : ∀ top, s.Extends (next top)) :
    Acts b s (withTop s next) := by
  unfold withTop
  cases s.peek? with
  | none => exact .underflow (State.extends_of_eq rfl rfl) rfl
  | some top => exact .proceed (h top)

private theorem acts_pop {next : Int64 → State → State}
    (h : ∀ top rest, s.Extends (next top { s with stack := rest })) :
    Acts b s (match s.pop? with
      | none => .fail s .stackUnderflow
      | some (top, t) => .proceed (next top t)) := by
  cases hp : s.pop? with
  | none => exact .underflow (State.extends_of_eq rfl rfl) rfl
  | some popped =>
    obtain ⟨rest, -, ht⟩ := State.pop?_eq_some_iff.mp hp
    obtain ⟨top, t⟩ := popped
    subst ht
    exact .proceed (h top rest)

private theorem acts_binary {op : Int64 → Int64 → Except Kind Int64}
    (hop : ∀ x y k, op x y = .error k → b = .div ∧ k = .divideByZero) : Acts b s (binary s op) := by
  unfold binary
  cases hb : s.pop? with
  | none => exact .underflow (State.extends_of_eq rfl rfl) rfl
  | some popped =>
    obtain ⟨y, t⟩ := popped
    obtain ⟨rest, -, rfl⟩ := State.pop?_eq_some_iff.mp hb
    cases rest with
    | nil => exact .underflow (State.extends_of_eq rfl rfl) rfl
    | cons x rest =>
      simp only [State.pop?]
      cases hv : op x y with
      | ok v => exact .proceed (State.extends_of_eq rfl rfl)
      | error k =>
        obtain ⟨hdiv, rfl⟩ := hop x y k hv
        exact .division hdiv (State.extends_of_eq rfl rfl) rfl

/-- Every built-in acts in one of these ways. -/
theorem acts_effect (b : Builtin) (s : State) (arg : Int64) : Acts b s (b.effect s arg) := by
  cases b with
  | print => exact acts_withTop fun top => State.extends_report (by simp)
  | loadConst => exact .proceed (State.extends_of_eq rfl rfl)
  | exit => exact .halt rfl
  | pop => exact acts_pop fun top rest => State.extends_of_eq rfl rfl
  | add | eq | neq =>
    rw [effect]
    exact acts_binary fun x y k h => nomatch h
  | div =>
    rw [effect]
    refine acts_binary fun x y k h => ?_
    split at h
    · cases h
      exact ⟨rfl, rfl⟩
    · cases h
  | dup => exact acts_withTop fun top => State.extends_of_eq rfl rfl
  | jmp => exact .proceed (State.extends_of_eq rfl rfl)
  | jmpz =>
    refine acts_pop fun top rest => ?_
    split
    · exact State.extends_of_eq rfl rfl
    · exact State.extends_of_eq rfl rfl
  | write => exact acts_withTop fun top => State.extends_write (by simp)
  | writeChar => exact acts_withTop fun top => State.extends_write (valid_character top)

end Builtin

end StackMachine
