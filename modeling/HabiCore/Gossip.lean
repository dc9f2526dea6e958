import Mathlib.Data.Set.Lattice
import Mathlib.Logic.Relation
import Mathlib.Order.CompletePartialOrder

/-!
# Items that spread

Nodes hold items, and an item may pass from one node to another.  Whatever is
delivered in whatever order, the items can come to the same nodes, and once
nothing is left to deliver they have come there.
-/

namespace Gossip

variable {Node Item : Type*} {passes : Item → Node → Node → Prop}
  {held held' : Node → Set Item} {src dst n : Node}

/-- The items that can come to a node, step by step from a node that holds them. -/
def spread (passes : Item → Node → Node → Prop) (held : Node → Set Item) (n : Node) : Set Item :=
  {b | ∃ holder, b ∈ held holder ∧ Relation.ReflTransGen (passes b) holder n}

/-- The items that are still to come, and the nodes to which they can come. -/
def missing (passes : Item → Node → Node → Prop) (held : Node → Set Item) : Set (Node × Item) :=
  {pair | pair.2 ∈ spread passes held pair.1 ∧ pair.2 ∉ held pair.1}

structure Delivers (passes : Item → Node → Node → Prop) (held : Node → Set Item)
    (src dst : Node) (held' : Node → Set Item) : Prop where
  others : ∀ n, n ≠ dst → held' n = held n
  delivered : held' dst = held dst ∪ {b | b ∈ held src ∧ passes b src dst}

theorem held_subset_spread : held n ⊆ spread passes held n :=
  fun _ isHeld => ⟨n, isHeld, .refl⟩

theorem spread_mono (grows : ∀ n, held n ⊆ held' n) :
    spread passes held n ⊆ spread passes held' n := by
  rintro b ⟨holder, isHeld, travels⟩
  exact ⟨holder, grows holder isHeld, travels⟩

theorem spread_idem (within : ∀ n, held' n ⊆ spread passes held n) :
    spread passes held' n ⊆ spread passes held n := by
  rintro b ⟨holder, isHeld, travels⟩
  obtain ⟨origin, wasHeld, came⟩ := within holder isHeld
  exact ⟨origin, wasHeld, came.trans travels⟩

namespace Delivers

variable (delivers : Delivers passes held src dst held')
include delivers

theorem held_subset (n : Node) : held n ⊆ held' n := by
  by_cases isDst : n = dst
  · subst isDst
    exact delivers.delivered ▸ Set.subset_union_left
  · exact (delivers.others n isDst).symm ▸ subset_rfl

theorem subset_spread (n : Node) : held' n ⊆ spread passes held n := by
  intro b isHeld
  by_cases isDst : n = dst
  · subst isDst
    rcases delivers.delivered ▸ isHeld with old | ⟨atSrc, passed⟩
    · exact held_subset_spread old
    · exact ⟨src, atSrc, .single passed⟩
  · exact held_subset_spread (delivers.others n isDst ▸ isHeld)

/-- A delivery does not change where items can come. -/
theorem spread_eq : spread passes held' = spread passes held := by
  funext n
  apply Set.Subset.antisymm
  · exact spread_idem delivers.subset_spread
  · exact spread_mono delivers.held_subset

theorem missing_ssubset {b : Item} (atSrc : b ∈ held src) (passed : passes b src dst)
    (isNew : b ∉ held dst) : missing passes held' ⊂ missing passes held := by
  have isMissing : (dst, b) ∈ missing passes held := ⟨⟨src, atSrc, .single passed⟩, isNew⟩
  have arrived : b ∈ held' dst := delivers.delivered ▸ Or.inr ⟨atSrc, passed⟩
  refine ⟨fun pair stillMissing => ⟨?_, ?_⟩, fun whole => (whole isMissing).2 arrived⟩
  · rw [← delivers.spread_eq]
    exact stillMissing.1
  · exact fun isHeld => stillMissing.2 (delivers.held_subset _ isHeld)

end Delivers

/-- When nothing is left to deliver, everything has come to where it can come. -/
theorem spread_eq_of_closed
    (closed : ∀ x y b, b ∈ held x → passes b x y → b ∈ held y) : spread passes held = held := by
  funext n
  apply Set.Subset.antisymm
  · rintro b ⟨holder, isHeld, travels⟩
    induction travels with
    | refl => exact isHeld
    | tail _ passed ih => exact closed _ _ b ih passed
  · exact held_subset_spread

theorem missing_subset_prod {nodes : Set Node} {items : Set Item}
    (within : ∀ b x y, passes b x y → y ∈ nodes) (known : ∀ n, held n ⊆ items) :
    missing passes held ⊆ nodes ×ˢ items := by
  rintro ⟨n, b⟩ ⟨⟨holder, isHeld, travels⟩, isMissing⟩
  refine ⟨?_, known holder isHeld⟩
  cases travels with
  | refl => exact (isMissing isHeld).elim
  | tail _ passed => exact within b _ n passed

end Gossip
