import HabiCore.LabelledRuns
import Mathlib.Data.Set.Card
import Mathlib.Order.CompletePartialOrder

/-!
# What a system can still reach

Rules by which a system reaches a state in which nothing is left to do.  As in
other statements about reaching, only some of the steps may be allowed.
-/

namespace LabelledRuns.Reaches

variable {State Label Item Node : Type*} {step : State → Label → State → Prop}
  {allowed : State → Label → Prop} {Inv : State → Prop}

/-- What is not done can be done, if less can always be left to do. -/
theorem exists_done {done : State → Prop} (left : State → Nat)
    (progress : ∀ state, Inv state → ¬ done state →
      ∃ next, Reaches step allowed state next ∧ Inv next ∧ left next < left state)
    {first : State} (initially : Inv first) :
    ∃ last, Reaches step allowed first last ∧ Inv last ∧ done last := by
  generalize size : left first = n
  induction n using Nat.strong_induction_on generalizing first with
  | _ n ih =>
      by_cases isDone : done first
      · exact ⟨first, .refl first, initially, isDone⟩
      · obtain ⟨next, reaches, kept, less⟩ := progress first initially isDone
        obtain ⟨last, onwards, keptLast, lastDone⟩ := ih _ (size ▸ less) kept rfl
        exact ⟨last, reaches.trans onwards, keptLast, lastDone⟩

/-- A finite set of things to do can be emptied, if it can always be made smaller. -/
theorem exists_emptied {todo : State → Set Item} (finite : ∀ state, Inv state → (todo state).Finite)
    (progress : ∀ state, Inv state → (todo state).Nonempty →
      ∃ next, Reaches step allowed state next ∧ Inv next ∧ todo next ⊂ todo state)
    {first : State} (initially : Inv first) :
    ∃ last, Reaches step allowed first last ∧ Inv last ∧ todo last = ∅ := by
  refine exists_done (fun state => (todo state).ncard) (fun state kept more => ?_) initially
  obtain ⟨next, reaches, keptNext, smaller⟩ :=
    progress state kept (Set.nonempty_iff_ne_empty.mpr more)
  exact ⟨next, reaches, keptNext, Set.ncard_lt_ncard smaller (finite state kept)⟩

def unlinkedPairs (network : State → Node → Node → Prop) (nodes : Set Node) (state : State) :
    Set (Node × Node) :=
  {pair | pair ∈ nodes ×ˢ nodes ∧ pair.1 ≠ pair.2 ∧ ¬ network state pair.1 pair.2}

theorem unlinkedPairs_finite {network : State → Node → Node → Prop} {nodes : Set Node}
    (finite : nodes.Finite) (state : State) : (unlinkedPairs network nodes state).Finite :=
  (finite.prod finite).subset fun _ member => member.1

/-- All nodes can be linked to each other, if any two can be without another link
going down. -/
theorem exists_allLinked {network : State → Node → Node → Prop} {nodes : Set Node}
    (finite : nodes.Finite)
    (link : ∀ state, Inv state → ∀ a ∈ nodes, ∀ b ∈ nodes, a ≠ b → ¬ network state a b →
      ∃ next, Reaches step allowed state next ∧ Inv next ∧ network next a b ∧
        ∀ x y, network state x y → network next x y)
    {first : State} (initially : Inv first) :
    ∃ last, Reaches step allowed first last ∧ Inv last ∧
      ∀ a ∈ nodes, ∀ b ∈ nodes, a = b ∨ network last a b := by
  have progress : ∀ state, Inv state → (unlinkedPairs network nodes state).Nonempty →
      ∃ next, Reaches step allowed state next ∧ Inv next ∧
        unlinkedPairs network nodes next ⊂ unlinkedPairs network nodes state := by
    rintro state kept ⟨⟨a, b⟩, within, distinct, down⟩
    obtain ⟨next, reaches, keptNext, isUp, stays⟩ :=
      link state kept a within.1 b within.2 distinct down
    refine ⟨next, reaches, keptNext, fun pair member => ?_, fun whole => ?_⟩
    · exact ⟨member.1, member.2.1, fun old => member.2.2 (stays _ _ old)⟩
    · have still : (a, b) ∈ unlinkedPairs network nodes next := whole ⟨within, distinct, down⟩
      exact still.2.2 isUp
  obtain ⟨last, reaches, kept, none⟩ := exists_emptied
    (fun state _ => unlinkedPairs_finite finite state) progress initially
  refine ⟨last, reaches, kept, fun a aIn b bIn => ?_⟩
  by_contra apart
  have member : (a, b) ∈ unlinkedPairs network nodes last :=
    ⟨⟨aIn, bIn⟩, fun same => apart (Or.inl same), fun linked => apart (Or.inr linked)⟩
  rw [none] at member
  exact member

end LabelledRuns.Reaches
