import HabiCore.LabelledRuns
import Mathlib.Data.Fintype.Order

/-!
# Fair behaviours

A behaviour is an endless sequence of steps.  Fairness forbids that a step is
put off for ever although it stays possible, and is what makes something happen
at all in a system that is only described by the steps it may take.
-/

namespace FairBehaviours

variable {State Label : Type*}

/-- An endless sequence of steps, with their labels. -/
structure Behaviour (step : State → Label → State → Prop) where
  state : Nat → State
  label : Nat → Label
  next : ∀ i, step (state i) (label i) (state (i + 1))

namespace Behaviour

variable {step : State → Label → State → Prop} (β : Behaviour step)

def Always (i : Nat) (P : State → Prop) : Prop := ∀ j, i ≤ j → P (β.state j)

def Eventually (i : Nat) (P : State → Prop) : Prop := ∃ j, i ≤ j ∧ P (β.state j)

/-- The property holds again and again. -/
def Recurs (P : State → Prop) : Prop := ∀ i, β.Eventually i P

def Takes (i : Nat) (taken : Label → Prop) : Prop := ∃ j, i ≤ j ∧ taken (β.label j)

/-- A step that stays enabled is taken. -/
def WeaklyFair (enabled : State → Prop) (taken : Label → Prop) : Prop :=
  ∀ i, β.Always i enabled → β.Takes i taken

/-- A step that is enabled again and again is taken again and again. -/
def StronglyFair (enabled : State → Prop) (taken : Label → Prop) : Prop :=
  β.Recurs enabled → ∀ i, β.Takes i taken

variable {β} {i j : Nat} {P Q enabled : State → Prop} {taken : Label → Prop}

theorem not_eventually : ¬ β.Eventually i P ↔ β.Always i fun s => ¬ P s := by
  simp [Eventually, Always]

theorem Always.mono (always : β.Always i P) (later : i ≤ j) : β.Always j P :=
  fun k le => always k (later.trans le)

theorem not_recurs : ¬ β.Recurs P ↔ ∃ i, β.Always i fun s => ¬ P s := by
  simp only [Recurs, not_forall, not_eventually]

/-- What every step preserves holds for ever. -/
theorem always_of_preserved (preserved : ∀ s l s', step s l s' → P s → P s')
    (holds : P (β.state i)) : β.Always i P := by
  intro j le
  induction j, le using Nat.le_induction with
  | base => exact holds
  | succ j _ ih => exact preserved _ _ _ (β.next j) ih

theorem exists_run (later : i ≤ j) :
    ∃ trace, LabelledRuns.Run step (β.state i) trace (β.state j) := by
  induction j, later using Nat.le_induction with
  | base => exact ⟨[], .refl⟩
  | succ j _ ih =>
      obtain ⟨trace, run⟩ := ih
      exact ⟨_, run.tail (β.next j)⟩

/-- Finitely many properties that each come to hold for ever come to hold
together. -/
theorem exists_always_forall {I : Type*} [Finite I] {P : I → State → Prop}
    (each : ∀ n, ∃ j, i ≤ j ∧ β.Always j (P n)) :
    ∃ j, i ≤ j ∧ β.Always j fun s => ∀ n, P n s := by
  choose when_ later always using each
  obtain ⟨latest, bound⟩ := Finite.exists_le when_
  refine ⟨max i latest, le_max_left _ _, fun k le n => always n k ?_⟩
  exact (bound n).trans ((le_max_right _ _).trans le)

/-- A goal that a fair step achieves is reached, if the step is enabled as long as
the goal is not. -/
theorem WeaklyFair.reaches (fair : β.WeaklyFair enabled taken)
    (enables : ∀ j, i ≤ j → ¬ Q (β.state j) → enabled (β.state j))
    (achieves : ∀ j, i ≤ j → taken (β.label j) → Q (β.state (j + 1))) : β.Eventually i Q := by
  by_contra never
  rw [not_eventually] at never
  obtain ⟨j, le, isTaken⟩ := fair i fun j le => enables j le (never j le)
  exact never (j + 1) (le.trans j.le_succ) (achieves j le isTaken)

theorem weaklyFair_of_disabled (disabled : β.Always j fun s => ¬ enabled s) :
    β.WeaklyFair enabled taken := by
  intro i always
  exact (disabled (max i j) (le_max_right _ _) (always _ (le_max_left _ _))).elim

theorem stronglyFair_of_disabled (disabled : β.Always j fun s => ¬ enabled s) :
    β.StronglyFair enabled taken := by
  intro recurs
  obtain ⟨k, later, isEnabled⟩ := recurs j
  exact (disabled k later isEnabled).elim

end Behaviour

end FairBehaviours
