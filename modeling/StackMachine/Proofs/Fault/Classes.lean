import Mathlib.Order.Bounds.Basic
import Mathlib.Order.Lattice
import StackMachine.Budget

/-! The classes of faults. Every part of a fault stands for a class of its own, and the class of the
fault is the highest of them. So neither a heading nor the company of a lower fault changes it. -/
namespace StackMachine

namespace FaultClass

/-- The place of a class in the order of precedence, counted from the lowest. -/
def rank : FaultClass → Nat
  | .none => 0
  | .unknown => 1
  | .disassembly => 2
  | .runtime => 3
  | .assembly => 4
  | .cancelled => 5
  | .budget => 6

theorem rank_injective : Function.Injective rank := by
  intro c d
  cases c <;> cases d <;> decide

instance : LinearOrder FaultClass :=
  LinearOrder.lift' rank rank_injective

theorem none_le (c : FaultClass) : .none ≤ c :=
  Nat.zero_le c.rank

theorem unknown_le_of_ne_none {c : FaultClass} (h : c ≠ .none) : .unknown ≤ c :=
  Nat.one_le_iff_ne_zero.mpr fun hrank => h (rank_injective hrank)

theorem le_budget (c : FaultClass) : c ≤ .budget := by
  cases c <;> decide

/-- A search finds a class that is a bound, and that is then the greatest; otherwise the bound can
be lowered to the next class. -/
private theorem isGreatest_ite {classes : Set FaultClass} {c d rest : FaultClass} {found : Bool}
    (hrank : c.rank = d.rank + 1) (hbound : c ∈ upperBounds classes)
    (hfound : c ∈ classes ↔ found = true)
    (hrest : d ∈ upperBounds classes → IsGreatest classes rest) :
    IsGreatest classes (if found then c else rest) := by
  by_cases hmem : c ∈ classes
  · rw [if_pos (hfound.mp hmem)]
    exact ⟨hmem, hbound⟩
  · rw [if_neg (mt hfound.mpr hmem)]
    apply hrest
    intro e he
    have hlt : e < c := lt_of_le_of_ne (hbound he) fun heq => hmem (heq ▸ he)
    have hrank_lt : e.rank < d.rank + 1 := hrank ▸ hlt
    exact Nat.le_of_lt_succ hrank_lt

end FaultClass

/-- The class that a kind stands for. -/
def Kind.ownClass : Kind → FaultClass
  | .budgetExhausted => .budget
  | .canceled | .deadlineExceeded => .cancelled
  | _ => .unknown

namespace Fault

/-- The faults that stand directly inside a fault; those that are absent count as well. -/
def causes : Fault → List Fault
  | .absent | .kind _ | .plain _ => []
  | .numeral _ _ problem => [.kind (problemKind problem)]
  | .assembly why _ _ _ cause => [why, cause]
  | .runtime why _ _ _ => [why]
  | .listing _ _ => [.kind .unlistable]
  | .wrapped _ cause => [cause]
  | .joined faults => faults

mutual

/-- What holds of a fault if it holds of its causes holds of every fault. -/
theorem induction_causes {P : Fault → Prop} (h : ∀ f, (∀ cause ∈ f.causes, P cause) → P f) :
    ∀ f, P f
  | .absent | .kind _ | .plain _ => h _ (by simp [causes])
  | .numeral _ _ problem =>
    h _ (by simpa [causes] using h (.kind (problemKind problem)) (by simp [causes]))
  | .listing _ _ => h _ (by simpa [causes] using h (.kind .unlistable) (by simp [causes]))
  | .assembly why _ _ _ cause =>
    h _ (by simpa [causes] using ⟨induction_causes h why, induction_causes h cause⟩)
  | .runtime why _ _ _ => h _ (by simpa [causes] using induction_causes h why)
  | .wrapped _ cause => h _ (by simpa [causes] using induction_causes h cause)
  | .joined faults => h _ (forall_mem_of_causes h faults)

theorem forall_mem_of_causes {P : Fault → Prop} (h : ∀ f, (∀ cause ∈ f.causes, P cause) → P f) :
    ∀ faults : List Fault, ∀ f ∈ faults, P f
  | [] => List.forall_mem_nil P
  | f :: rest =>
    List.forall_mem_cons.mpr ⟨induction_causes h f, forall_mem_of_causes h rest⟩

end

/-- The part is there, and is the fault itself or stands inside it at some depth. -/
inductive Occurs (part : Fault) : Fault → Prop where
  | whole : part.isPresent = true → Occurs part part
  | inside {f cause : Fault} : cause ∈ f.causes → Occurs part cause → Occurs part f

/-- The class that a fault stands for without its causes. -/
def ownClass : Fault → FaultClass
  | .absent => .none
  | .kind k => k.ownClass
  | .assembly _ _ _ _ _ => .assembly
  | .runtime _ _ _ _ => .runtime
  | .listing _ _ => .disassembly
  | .plain _ | .numeral _ _ _ | .wrapped _ _ | .joined _ => .unknown

/-- The classes that the parts of a fault stand for. -/
def classes (f : Fault) : Set FaultClass :=
  {c | ∃ part, Occurs part f ∧ part.ownClass = c}

variable {f g : Fault}

section Parts

theorem eq_absent_of_isPresent (h : ¬ f.isPresent = true) : f = .absent := by
  cases f with
  | absent => rfl
  | kind | plain | numeral | assembly | runtime | listing | wrapped | joined => exact absurd rfl h

theorem partsOfAll_eq_flatMap (faults : List Fault) : partsOfAll faults = faults.flatMap parts := by
  induction faults with
  | nil => rfl
  | cons f rest ih => rw [partsOfAll, ih, List.flatMap_cons]

theorem parts_eq_cons (h : f.isPresent = true) : f.parts = f :: f.causes.flatMap parts := by
  cases f with
  | absent => cases h
  | kind | plain | numeral | listing => rfl
  | assembly | runtime | wrapped => simp [parts, causes]
  | joined faults => rw [parts, partsOfAll_eq_flatMap, causes]

/-- The search goes through everything that occurs in a fault, and nothing else. -/
theorem mem_parts_iff {part : Fault} : part ∈ f.parts ↔ Occurs part f := by
  constructor
  · induction f using induction_causes with
    | h f ih =>
      intro h
      by_cases hf : f.isPresent = true
      · rw [parts_eq_cons hf] at h
        rcases List.mem_cons.mp h with rfl | h
        · exact .whole hf
        · obtain ⟨cause, hcause, hpart⟩ := List.mem_flatMap.mp h
          exact .inside hcause (ih cause hcause hpart)
      · rw [eq_absent_of_isPresent hf] at h
        cases h
  · intro h
    induction h with
    | whole hf =>
      rw [parts_eq_cons hf]
      exact List.mem_cons_self
    | @inside f cause hcause _ ih =>
      have hf : f.isPresent = true := by
        by_contra hf
        rw [eq_absent_of_isPresent hf] at hcause
        cases hcause
      rw [parts_eq_cons hf]
      exact List.mem_cons_of_mem f (List.mem_flatMap.mpr ⟨cause, hcause, ih⟩)

theorem mem_classes_iff {c : FaultClass} : c ∈ f.classes ↔ ∃ part ∈ f.parts, part.ownClass = c :=
  exists_congr fun _ => and_congr_left fun _ => mem_parts_iff.symm

end Parts

section Searches

private theorem ownClass_eq_budget_iff : f.ownClass = .budget ↔ f = .kind .budgetExhausted := by
  cases f with
  | kind k => cases k <;> simp [ownClass, Kind.ownClass]
  | absent | plain | numeral | assembly | runtime | listing | wrapped | joined => simp [ownClass]

private theorem ownClass_eq_cancelled_iff :
    f.ownClass = .cancelled ↔ f = .kind .canceled ∨ f = .kind .deadlineExceeded := by
  cases f with
  | kind k => cases k <;> simp [ownClass, Kind.ownClass]
  | absent | plain | numeral | assembly | runtime | listing | wrapped | joined => simp [ownClass]

private theorem Kind.ownClass_ne_typed (k : Kind) :
    k.ownClass ≠ .assembly ∧ k.ownClass ≠ .runtime ∧ k.ownClass ≠ .disassembly := by
  cases k <;> decide

theorem budget_mem_classes_iff : .budget ∈ f.classes ↔ f.has .budgetExhausted = true := by
  rw [mem_classes_iff, has, List.contains_iff_mem]
  simp only [ownClass_eq_budget_iff, exists_eq_right]

theorem cancelled_mem_classes_iff :
    .cancelled ∈ f.classes ↔ (f.has .canceled || f.has .deadlineExceeded) = true := by
  rw [mem_classes_iff, Bool.or_eq_true, has, has, List.contains_iff_mem, List.contains_iff_mem]
  simp only [ownClass_eq_cancelled_iff, and_or_left, exists_or, exists_eq_right]

/-- A search for the parts of one class finds something exactly if the fault has that class. -/
private theorem isSome_findSome?_parts {α : Type} {report : Fault → Option α} {c : FaultClass}
    (h : ∀ part : Fault, (report part).isSome = true ↔ part.ownClass = c) :
    (f.parts.findSome? report).isSome = true ↔ c ∈ f.classes := by
  rw [mem_classes_iff, List.isSome_findSome?, List.any_eq_true]
  exact exists_congr fun part => and_congr_right fun _ => h part

theorem assembly_mem_classes_iff : .assembly ∈ f.classes ↔ f.assembly?.isSome = true := by
  refine (isSome_findSome?_parts fun part => ?_).symm
  cases part with
  | kind k => simp [ownClass, (Kind.ownClass_ne_typed k).1]
  | absent | plain | numeral | assembly | runtime | listing | wrapped | joined => simp [ownClass]

theorem runtime_mem_classes_iff : .runtime ∈ f.classes ↔ f.runtime?.isSome = true := by
  refine (isSome_findSome?_parts fun part => ?_).symm
  cases part with
  | kind k => simp [ownClass, (Kind.ownClass_ne_typed k).2.1]
  | absent | plain | numeral | assembly | runtime | listing | wrapped | joined => simp [ownClass]

theorem disassembly_mem_classes_iff : .disassembly ∈ f.classes ↔ f.listing?.isSome = true := by
  refine (isSome_findSome?_parts fun part => ?_).symm
  cases part with
  | kind k => simp [ownClass, (Kind.ownClass_ne_typed k).2.2]
  | absent | plain | numeral | assembly | runtime | listing | wrapped | joined => simp [ownClass]

end Searches

section Highest

theorem unknown_le_ownClass (h : f.isPresent = true) : .unknown ≤ f.ownClass := by
  apply FaultClass.unknown_le_of_ne_none
  cases f with
  | absent => cases h
  | kind k => cases k <;> decide
  | plain | numeral | assembly | runtime | listing | wrapped | joined => simp [ownClass]

theorem ownClass_mem_classes (h : f.isPresent = true) : f.ownClass ∈ f.classes :=
  ⟨f, .whole h, rfl⟩

/-- Without an exhausted budget or an interruption the typed reports alone decide. -/
theorem classify_eq_machineClass (hbudget : .budget ∉ f.classes)
    (hcancelled : .cancelled ∉ f.classes) : f.classify = f.machineClass := by
  rw [budget_mem_classes_iff] at hbudget
  rw [cancelled_mem_classes_iff] at hcancelled
  rw [classify, if_neg hbudget, if_neg hcancelled]

/-- The class of a fault is the highest one of its parts. The searches are made from the highest
class downwards, and every one that fails lowers the bound for the classes that are left. -/
theorem isGreatest_classes (h : f.isPresent = true) : IsGreatest f.classes f.classify := by
  have hbudget : .budget ∈ upperBounds f.classes := fun c _ => c.le_budget
  rw [classify]
  apply FaultClass.isGreatest_ite (d := .cancelled) rfl hbudget budget_mem_classes_iff
  intro hcancelled
  apply FaultClass.isGreatest_ite (d := .assembly) rfl hcancelled cancelled_mem_classes_iff
  intro hassembly
  rw [machineClass, if_neg (by simp [h])]
  apply FaultClass.isGreatest_ite (d := .runtime) rfl hassembly assembly_mem_classes_iff
  intro hruntime
  apply FaultClass.isGreatest_ite (d := .disassembly) rfl hruntime runtime_mem_classes_iff
  intro hlast
  apply FaultClass.isGreatest_ite (d := .unknown) rfl hlast disassembly_mem_classes_iff
  intro hunknown
  have hown : f.ownClass = .unknown :=
    le_antisymm (hunknown (ownClass_mem_classes h)) (unknown_le_ownClass h)
  exact ⟨hown ▸ ownClass_mem_classes h, hunknown⟩

theorem unknown_le_classify (h : f.isPresent = true) : .unknown ≤ f.classify :=
  (unknown_le_ownClass h).trans ((isGreatest_classes h).2 (ownClass_mem_classes h))

end Highest

section Company

private theorem classes_wrapped (text : Bytes) (f : Fault) :
    (wrapped text f).classes = insert .unknown f.classes := by
  ext c
  simp [mem_classes_iff, parts, ownClass, eq_comm]

private theorem classes_joined (faults : List Fault) :
    (joined faults).classes = insert .unknown {c | ∃ f ∈ faults, c ∈ f.classes} := by
  ext c
  simp only [mem_classes_iff, parts, partsOfAll_eq_flatMap, List.mem_cons, List.mem_flatMap,
    or_and_right, exists_or, exists_eq_left, ownClass, Set.mem_insert_iff, Set.mem_ofPred_eq]
  grind

theorem classify_wrapped (h : f.isPresent = true) (text : Bytes) :
    (wrapped text f).classify = f.classify := by
  have hgreatest := (isGreatest_classes h).insert .unknown
  rw [max_eq_right (unknown_le_classify h), ← classes_wrapped text f] at hgreatest
  exact (isGreatest_classes rfl).unique hgreatest

theorem classify_headed (h : f.isPresent = true) (heading : Bytes) :
    (headed heading f).classify = f.classify := by
  have hheaded : headed heading f = .wrapped (heading ++ utf8 ": " ++ f.message) f := by
    cases f with
    | absent => cases h
    | kind | plain | numeral | assembly | runtime | listing | wrapped | joined => rfl
  rw [hheaded, classify_wrapped h]

/-- The highest one of the classes of faults. -/
def highest (faults : List Fault) : FaultClass :=
  (faults.map classify).foldr max .none

theorem highest_filter_isPresent (faults : List Fault) :
    highest (faults.filter isPresent) = highest faults := by
  induction faults with
  | nil => rfl
  | cons f rest ih =>
    by_cases hf : f.isPresent = true
    · rw [List.filter_cons_of_pos hf]
      exact congrArg (max f.classify) ih
    · rw [List.filter_cons_of_neg hf, ih, eq_absent_of_isPresent hf]
      exact (max_eq_right (FaultClass.none_le _)).symm

private theorem isGreatest_highest {faults : List Fault} (hne : faults ≠ [])
    (h : ∀ f ∈ faults, f.isPresent = true) :
    IsGreatest {c | ∃ f ∈ faults, c ∈ f.classes} (highest faults) := by
  induction faults with
  | nil => exact absurd rfl hne
  | cons f rest ih =>
    obtain ⟨hf, hrest⟩ := List.forall_mem_cons.mp h
    have hhighest : highest (f :: rest) = max f.classify (highest rest) := rfl
    have hclasses : {c | ∃ g ∈ f :: rest, c ∈ g.classes} =
        f.classes ∪ {c | ∃ g ∈ rest, c ∈ g.classes} := by
      ext c
      simp
    rw [hhighest, hclasses]
    by_cases hnil : rest = []
    · subst hnil
      simpa [highest, FaultClass.none_le] using isGreatest_classes hf
    · exact (isGreatest_classes hf).union (ih hnil hrest)

/-- Faults together have the highest one of their classes. -/
theorem classify_join (faults : List Fault) : (join faults).classify = highest faults := by
  rw [← highest_filter_isPresent, join]
  cases hpresent : faults.filter isPresent with
  | nil => rfl
  | cons f rest =>
    have hall : ∀ g ∈ f :: rest, g.isPresent = true := by
      rw [← hpresent]
      exact fun g hg => (List.mem_filter.mp hg).2
    have hgreatest := (isGreatest_highest (List.cons_ne_nil f rest) hall).insert .unknown
    have hunknown : .unknown ≤ highest (f :: rest) :=
      (unknown_le_classify (hall f List.mem_cons_self)).trans (le_max_left _ _)
    rw [max_eq_right hunknown, ← classes_joined] at hgreatest
    exact (isGreatest_classes rfl).unique hgreatest

theorem classify_join_pair (f g : Fault) : (join [f, g]).classify = max f.classify g.classify := by
  rw [classify_join]
  exact congrArg (max f.classify) (max_eq_left (FaultClass.none_le _))

end Company

/-- The class of a fault is the highest one that anything occurring in it stands for, however it was
put together. A heading does not change it, and faults together have the highest one of their
classes, so two have the higher one in either order. Where no budget was exhausted and no run
interrupted, it is the class by the typed reports alone. -/
theorem classify_is_highest {f : Fault} (h : f.isPresent = true) :
    IsGreatest {c | ∃ part, Occurs part f ∧ part.ownClass = c} f.classify ∧
    (∀ text, (wrapped text f).classify = f.classify) ∧
    (∀ heading, (headed heading f).classify = f.classify) ∧
    (∀ faults, (join faults).classify = (faults.map classify).foldr max .none) ∧
    (∀ g, (join [f, g]).classify = max f.classify g.classify ∧
      (join [g, f]).classify = max f.classify g.classify) ∧
    ((∀ part, Occurs part f → part.ownClass ≠ .budget ∧ part.ownClass ≠ .cancelled) →
      f.machineClass = f.classify) := by
  refine ⟨isGreatest_classes h, classify_wrapped h, classify_headed h, classify_join,
    fun g => ⟨?_, ?_⟩, ?_⟩
  · exact classify_join_pair f g
  · rw [classify_join_pair, max_comm]
  · intro hplain
    refine (classify_eq_machineClass ?_ ?_).symm
    · rintro ⟨part, hpart, hclass⟩
      exact (hplain part hpart).1 hclass
    · rintro ⟨part, hpart, hclass⟩
      exact (hplain part hpart).2 hclass

/-- A run that was interrupted under a heading, reported together with a rejected line that has
neither kind nor cause. -/
def tangled : Fault :=
  join [.assembly .absent 7 (utf8 "x") [] .absent, .absent,
    .runtime (headed (utf8 "read") (.kind .deadlineExceeded)) 3 4 (utf8 "ADD")]

theorem classify_is_highest_tangled :
    tangled.isPresent = true ∧
    IsGreatest {c | ∃ part, Occurs part tangled ∧ part.ownClass = c} .cancelled ∧
    (headed (utf8 "run") tangled).classify = .cancelled ∧
    (join [tangled, Budget.exhausted 3, .absent]).classify = .budget ∧
    tangled.machineClass = .assembly := by
  have hclass : tangled.classify = .cancelled := by decide
  obtain ⟨hgreatest, -, hheaded, hjoin, -⟩ := classify_is_highest (f := tangled) rfl
  rw [hclass] at hgreatest hheaded
  refine ⟨rfl, hgreatest, hheaded _, (hjoin _).trans ?_, by decide⟩
  decide

end Fault

end StackMachine
