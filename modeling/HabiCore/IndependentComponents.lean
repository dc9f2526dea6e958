import HabiCore.LabelledRuns
import Mathlib.Data.List.Induction
import Mathlib.Logic.Function.Basic

/-!
# Independent components

A system of components, of which each step concerns one.  A sequence of steps is
possible exactly if every component can take its own steps in their order, so
that all interleavings of runs of the components are runs of the system.
-/

namespace LabelledRuns

variable {State Label : Type*}

/-- The labels, in order, lead from the first state to the last. -/
def Takes (step : State → Label → State → Prop) (first : State) (labels : List Label)
    (last : State) : Prop :=
  ∃ trace, Run step first trace last ∧ trace.map Prod.snd = labels

section Takes

variable {step : State → Label → State → Prop} {first last : State} {labels : List Label}
  {label : Label}

theorem takes_nil : Takes step first [] last ↔ last = first := by
  constructor
  · rintro ⟨trace, run, isNil⟩
    obtain rfl := List.map_eq_nil_iff.mp isNil
    generalize traceEq : ([] : List (State × Label)) = trace at run
    cases run with
    | refl => rfl
    | tail => simp at traceEq
  · rintro rfl
    exact ⟨[], .refl, rfl⟩

theorem takes_concat :
    Takes step first (labels ++ [label]) last ↔
      ∃ middle, Takes step first labels middle ∧ step middle label last := by
  constructor
  · rintro ⟨trace, run, isLabels⟩
    cases run with
    | refl => simp at isLabels
    | @tail trace middle _ latest run edge =>
        rw [List.map_append, List.map_singleton] at isLabels
        obtain ⟨earlier, same⟩ := List.append_inj' isLabels rfl
        obtain rfl : latest = label := by simpa using same
        exact ⟨middle, ⟨trace, run, earlier⟩, edge⟩
  · rintro ⟨middle, ⟨trace, run, rfl⟩, edge⟩
    exact ⟨_, run.tail edge, by simp⟩

end Takes

variable {Index : Type*} [DecidableEq Index] {Component : Type*}

/-- One component takes a step, and the others stay as they are. -/
def Product (step : Component → Label → Component → Prop) (s : Index → Component)
    (label : Index × Label) (s' : Index → Component) : Prop :=
  step (s label.1) label.2 (s' label.1) ∧ ∀ i, i ≠ label.1 → s' i = s i

def labelsOf (i : Index) (labels : List (Index × Label)) : List Label :=
  labels.filterMap fun label => if label.1 = i then some label.2 else none

theorem labelsOf_concat (i : Index) (labels : List (Index × Label)) (label : Index × Label) :
    labelsOf i (labels ++ [label]) =
      labelsOf i labels ++ if label.1 = i then [label.2] else [] := by
  unfold labelsOf
  by_cases own : label.1 = i <;> simp [own]

/-- The runs of the system are the interleavings of the runs of its components. -/
theorem takes_product_iff {step : Component → Label → Component → Prop}
    {first last : Index → Component} {labels : List (Index × Label)} :
    Takes (Product step) first labels last ↔
      ∀ i, Takes step (first i) (labelsOf i labels) (last i) := by
  induction labels using List.reverseRecOn generalizing last with
  | nil =>
      rw [takes_nil, funext_iff]
      exact forall_congr' fun i => takes_nil.symm
  | append_singleton labels label ih =>
      rw [takes_concat]
      constructor
      · rintro ⟨middle, before, edge, stays⟩ i
        rw [labelsOf_concat]
        by_cases own : label.1 = i
        · subst own
          rw [if_pos rfl, takes_concat]
          exact ⟨middle label.1, ih.mp before label.1, edge⟩
        · rw [if_neg own, List.append_nil, stays i (Ne.symm own)]
          exact ih.mp before i
      · intro each
        have own := each label.1
        rw [labelsOf_concat, if_pos rfl, takes_concat] at own
        obtain ⟨middle, before, edge⟩ := own
        refine ⟨Function.update last label.1 middle, ih.mpr fun i => ?_, ?_, fun i other => ?_⟩
        · by_cases same : i = label.1
          · subst same
            simpa using before
          · have later := each i
            rw [labelsOf_concat, if_neg (Ne.symm same), List.append_nil] at later
            simpa [same] using later
        · simpa using edge
        · simp [other]

end LabelledRuns
