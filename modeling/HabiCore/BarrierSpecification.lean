import HabiCore.PerLinkSpecification

/-!
# The barrier specification

This is `DIL_CRDT_Barrier` over an arbitrary set `Nodes` of nodes and an
arbitrary type of bearers.  A spend by a node that does not see all the others
puts the bearer into the barrier, which no merge and no propagation passes.
-/

namespace HabiCore.Barrier

open LabelledRuns
open PerLinkSymmetric (PairwiseSyncedNoDoubleSpend connectedTo setLink setLink_apply)

variable {Node Bearer : Type*}

structure State (Node Bearer : Type*) extends PerLinkSymmetric.State Node Bearer where
  barrier : Set Bearer

inductive Action (Node Bearer : Type*) where
  | linkDown (n m : Node)
  | linkUp (n m : Node)
  | propagate (src dst : Node)
  | spendAt (nn : Node) (bb : Bearer)
  | clearBarrier

/-- `Init`, with the initial ledgers and the initial network left open. -/
structure Init (Nodes : Set Node) (s : State Node Bearer) : Prop where
  spent : ∀ a ∈ Nodes, s.spent a = ∅
  barrier : s.barrier = ∅
  symmetric : ∀ a ∈ Nodes, ∀ b ∈ Nodes, s.network a b → s.network b a
  irreflexive : ∀ a ∈ Nodes, ¬ s.network a a

def FullyConnected (Nodes : Set Node) (s : State Node Bearer) : Prop :=
  ∀ a ∈ Nodes, ∀ b ∈ Nodes, a = b ∨ s.network a b

def PartiallyIsolated (Nodes : Set Node) (s : State Node Bearer) (n : Node) : Prop :=
  ∃ m ∈ Nodes, m ≠ n ∧ ¬ s.network n m

def merged (s : State Node Bearer) (n m : Node) : Set Bearer :=
  ((s.ledgers n ∪ s.ledgers m) \ (s.spent n ∪ s.spent m)) \ s.barrier

def deliverable (s : State Node Bearer) (src dst : Node) : Set Bearer :=
  ((s.ledgers src \ s.spent dst) \ s.ledgers dst) \ s.barrier

/-- The enabling condition of an action, quantified over `Nodes` as in `Next`. -/
def Guard (Nodes : Set Node) (s : State Node Bearer) : Action Node Bearer → Prop
  | .linkDown n m => n ∈ Nodes ∧ m ∈ Nodes ∧ n ≠ m ∧ s.network n m
  | .linkUp n m => n ∈ Nodes ∧ m ∈ Nodes ∧ n ≠ m ∧ ¬ s.network n m
  | .propagate src dst =>
      src ∈ Nodes ∧ dst ∈ Nodes ∧ s.network src dst ∧ (deliverable s src dst).Nonempty
  | .spendAt nn bb => nn ∈ Nodes ∧ bb ∈ s.ledgers nn
  | .clearBarrier => FullyConnected Nodes s ∧ ∀ b ∈ s.barrier, ∀ n ∈ Nodes, b ∉ s.ledgers n

section Primed

variable [DecidableEq Node]

open Classical in
noncomputable def primed (Nodes : Set Node) (s : State Node Bearer) :
    Action Node Bearer → State Node Bearer
  | .linkDown n m => { s with network := setLink s.network n m False }
  | .linkUp n m =>
      { s with
        network := setLink s.network n m True
        ledgers := Function.update (Function.update s.ledgers n (merged s n m))
          m (merged s n m) }
  | .propagate src dst =>
      { s with
        ledgers := Function.update s.ledgers dst
          (s.ledgers dst ∪ deliverable s src dst) }
  | .spendAt nn bb =>
      { s with
        spent := Function.update s.spent nn (s.spent nn ∪ {bb})
        ledgers := fun mm =>
          if mm = nn ∨ mm ∈ connectedTo Nodes s.toState nn then s.ledgers mm \ {bb}
          else s.ledgers mm
        barrier := if PartiallyIsolated Nodes s nn then s.barrier ∪ {bb} else s.barrier }
  | .clearBarrier => { s with barrier := ∅ }

def Next (Nodes : Set Node) (s : State Node Bearer)
    (action : Action Node Bearer) (s' : State Node Bearer) : Prop :=
  Guard Nodes s action ∧ s' = primed Nodes s action

end Primed

def anyAction (_ : State Node Bearer) (_ : Action Node Bearer) : Prop := True

/-- Once all nodes are connected and the barrier is empty, no spent bearer is held. -/
def BarrierConsistent (Nodes : Set Node) (s : State Node Bearer) : Prop :=
  FullyConnected Nodes s ∧ s.barrier = ∅ →
    ∀ b, (∃ n ∈ Nodes, b ∈ s.spent n) → ∀ m ∈ Nodes, b ∉ s.ledgers m

/-- A spent bearer is barred or has no holder left, and no node holds what it or
a node linked to it has spent. -/
structure Guarded (Nodes : Set Node) (s : State Node Bearer) : Prop where
  symmetric : ∀ a ∈ Nodes, ∀ b ∈ Nodes, s.network a b → s.network b a
  barred : ∀ n ∈ Nodes, ∀ b ∈ s.spent n, b ∈ s.barrier ∨ ∀ m ∈ Nodes, b ∉ s.ledgers m
  disjoint : ∀ a ∈ Nodes, ∀ b ∈ s.spent a, b ∉ s.ledgers a
  separated : ∀ a ∈ Nodes, ∀ c ∈ Nodes, s.network a c → ∀ b ∈ s.spent c, b ∉ s.ledgers a

variable {Nodes : Set Node} {s s' : State Node Bearer} {action : Action Node Bearer}

theorem Init.guarded (init : Init Nodes s) : Guarded Nodes s where
  symmetric := init.symmetric
  barred n nIn b isSpent := by simp [init.spent n nIn] at isSpent
  disjoint a aIn b isSpent := by simp [init.spent a aIn] at isSpent
  separated a _ c cIn _ b isSpent := by simp [init.spent c cIn] at isSpent

namespace Guarded

theorem unspent (guarded : Guarded Nodes s) {holder spender : Node} {b : Bearer}
    (holderIn : holder ∈ Nodes) (isHeld : b ∈ s.ledgers holder) (free : b ∉ s.barrier)
    (spenderIn : spender ∈ Nodes) : b ∉ s.spent spender := by
  intro isSpent
  rcases guarded.barred spender spenderIn b isSpent with isBarred | noHolder
  · exact free isBarred
  · exact noHolder holder holderIn isHeld

theorem unspent_of_merged (guarded : Guarded Nodes s) {n m spender : Node} {b : Bearer}
    (nIn : n ∈ Nodes) (mIn : m ∈ Nodes) (isMerged : b ∈ merged s n m)
    (spenderIn : spender ∈ Nodes) : b ∉ s.spent spender := by
  rcases isMerged.1.1 with atN | atM
  · exact guarded.unspent nIn atN isMerged.2 spenderIn
  · exact guarded.unspent mIn atM isMerged.2 spenderIn

theorem pairwiseSynced (guarded : Guarded Nodes s) :
    PairwiseSyncedNoDoubleSpend Nodes s.toState := by
  intro n1 n1In n2 n2In linked b isSpent
  rcases isSpent with byFirst | bySecond
  · have back := guarded.symmetric n1 n1In n2 n2In linked
    exact ⟨guarded.disjoint n1 n1In b byFirst, guarded.separated n2 n2In n1 n1In back b byFirst⟩
  · exact ⟨guarded.separated n1 n1In n2 n2In linked b bySecond,
      guarded.disjoint n2 n2In b bySecond⟩

theorem barrierConsistent (guarded : Guarded Nodes s) : BarrierConsistent Nodes s := by
  rintro ⟨-, empty⟩ b ⟨n, nIn, isSpent⟩
  have free : b ∉ s.barrier := by simp [empty]
  exact (guarded.barred n nIn b isSpent).resolve_left free

variable [DecidableEq Node]

theorem linkDown (guarded : Guarded Nodes s) (n m : Node) :
    Guarded Nodes (primed Nodes s (.linkDown n m)) where
  symmetric a aIn b bIn linked := by
    simp only [primed, setLink_apply, and_false, false_or] at linked ⊢
    exact ⟨by tauto, guarded.symmetric a aIn b bIn linked.2⟩
  barred := guarded.barred
  disjoint := guarded.disjoint
  separated a aIn c cIn linked := by
    simp only [primed, setLink_apply, and_false, false_or] at linked
    exact guarded.separated a aIn c cIn linked.2

theorem linkUp_ledgers (guarded : Guarded Nodes s) {n m a : Node} {b : Bearer}
    (nIn : n ∈ Nodes) (mIn : m ∈ Nodes)
    (isHeld : b ∈ (primed Nodes s (.linkUp n m)).ledgers a) :
    (a ≠ n ∧ a ≠ m ∧ b ∈ s.ledgers a) ∨
      (b ∈ merged s n m ∧ ∀ spender ∈ Nodes, b ∉ s.spent spender) := by
  have ledgersEq : (primed Nodes s (.linkUp n m)).ledgers a =
      if a = m then merged s n m else if a = n then merged s n m else s.ledgers a := by
    simp [primed, Function.update_apply]
  rw [ledgersEq] at isHeld
  split at isHeld
  · exact Or.inr ⟨isHeld, fun spender spenderIn =>
      guarded.unspent_of_merged nIn mIn isHeld spenderIn⟩
  · split at isHeld
    · exact Or.inr ⟨isHeld, fun spender spenderIn =>
        guarded.unspent_of_merged nIn mIn isHeld spenderIn⟩
    · rename_i notM notN
      exact Or.inl ⟨notN, notM, isHeld⟩

theorem linkUp (guarded : Guarded Nodes s) {n m : Node} (nIn : n ∈ Nodes) (mIn : m ∈ Nodes) :
    Guarded Nodes (primed Nodes s (.linkUp n m)) where
  symmetric a aIn b bIn linked := by
    simp only [primed, setLink_apply, and_true] at linked ⊢
    rcases linked with written | ⟨unwritten, old⟩
    · exact Or.inl (by tauto)
    · exact Or.inr ⟨by tauto, guarded.symmetric a aIn b bIn old⟩
  barred spender spenderIn b isSpent := by
    rcases guarded.barred spender spenderIn b isSpent with isBarred | noHolder
    · exact Or.inl isBarred
    · refine Or.inr fun holder holderIn isHeld => ?_
      rcases guarded.linkUp_ledgers nIn mIn isHeld with ⟨-, -, old⟩ | ⟨-, isUnspent⟩
      · exact noHolder holder holderIn old
      · exact isUnspent spender spenderIn isSpent
  disjoint a aIn b isSpent isHeld := by
    rcases guarded.linkUp_ledgers nIn mIn isHeld with ⟨-, -, old⟩ | ⟨-, isUnspent⟩
    · exact guarded.disjoint a aIn b isSpent old
    · exact isUnspent a aIn isSpent
  separated a aIn c cIn linked b isSpent isHeld := by
    rcases guarded.linkUp_ledgers nIn mIn isHeld with ⟨notN, notM, old⟩ | ⟨-, isUnspent⟩
    · simp only [primed, setLink_apply, notN, notM, false_and, or_self, not_false_eq_true,
        true_and, false_or] at linked
      exact guarded.separated a aIn c cIn linked b isSpent old
    · exact isUnspent c cIn isSpent

theorem propagate_ledgers (guarded : Guarded Nodes s) {src dst a : Node} {b : Bearer}
    (srcIn : src ∈ Nodes) (isHeld : b ∈ (primed Nodes s (.propagate src dst)).ledgers a) :
    b ∈ s.ledgers a ∨ ∀ spender ∈ Nodes, b ∉ s.spent spender := by
  simp only [primed, Function.update_apply] at isHeld
  split at isHeld
  · rename_i isDst
    subst isDst
    rcases isHeld with old | delivered
    · exact Or.inl old
    · exact Or.inr fun spender spenderIn =>
        guarded.unspent srcIn delivered.1.1.1 delivered.2 spenderIn
  · exact Or.inl isHeld

theorem propagate (guarded : Guarded Nodes s) {src : Node} (srcIn : src ∈ Nodes) (dst : Node) :
    Guarded Nodes (primed Nodes s (.propagate src dst)) where
  symmetric := guarded.symmetric
  barred spender spenderIn b isSpent := by
    rcases guarded.barred spender spenderIn b isSpent with isBarred | noHolder
    · exact Or.inl isBarred
    · refine Or.inr fun holder holderIn isHeld => ?_
      rcases guarded.propagate_ledgers srcIn isHeld with old | isUnspent
      · exact noHolder holder holderIn old
      · exact isUnspent spender spenderIn isSpent
  disjoint a aIn b isSpent isHeld := by
    rcases guarded.propagate_ledgers srcIn isHeld with old | isUnspent
    · exact guarded.disjoint a aIn b isSpent old
    · exact isUnspent a aIn isSpent
  separated a aIn c cIn linked b isSpent isHeld := by
    rcases guarded.propagate_ledgers srcIn isHeld with old | isUnspent
    · exact guarded.separated a aIn c cIn linked b isSpent old
    · exact isUnspent c cIn isSpent

theorem spendAt_ledgers {nn a : Node} {bb b : Bearer}
    (isHeld : b ∈ (primed Nodes s (.spendAt nn bb)).ledgers a) :
    b ∈ s.ledgers a ∧ (b = bb → a ≠ nn ∧ (a ∈ Nodes → ¬ s.network nn a)) := by
  simp only [primed] at isHeld
  split at isHeld
  · exact ⟨isHeld.1, fun same => (isHeld.2 same).elim⟩
  · rename_i notTarget
    refine ⟨isHeld, fun _ => ⟨fun isSpender => notTarget (Or.inl isSpender), ?_⟩⟩
    intro aIn linked
    have notSpender : a ≠ nn := fun isSpender => notTarget (Or.inl isSpender)
    exact notTarget (Or.inr ⟨aIn, notSpender, linked⟩)

theorem mem_spent_spendAt {nn a : Node} {bb b : Bearer} :
    b ∈ (primed Nodes s (.spendAt nn bb)).spent a ↔ b ∈ s.spent a ∨ (a = nn ∧ b = bb) := by
  by_cases isSpender : a = nn
  · subst isSpender
    simp [primed, or_comm]
  · simp [primed, isSpender]

theorem spendAt (guarded : Guarded Nodes s) {nn : Node} (nnIn : nn ∈ Nodes) (bb : Bearer) :
    Guarded Nodes (primed Nodes s (.spendAt nn bb)) where
  symmetric := guarded.symmetric
  barred spender spenderIn b isSpent := by
    have grown : s.barrier ⊆ (primed Nodes s (.spendAt nn bb)).barrier := by
      simp only [primed]
      split
      · exact Set.subset_union_left
      · exact subset_rfl
    rcases mem_spent_spendAt.mp isSpent with old | ⟨rfl, rfl⟩
    · rcases guarded.barred spender spenderIn b old with isBarred | noHolder
      · exact Or.inl (grown isBarred)
      · exact Or.inr fun holder holderIn isHeld =>
          noHolder holder holderIn (spendAt_ledgers isHeld).1
    · by_cases isolated : PartiallyIsolated Nodes s spender
      · left
        simp [primed, isolated]
      · right
        intro holder holderIn isHeld
        obtain ⟨notSpender, unlinked⟩ := (spendAt_ledgers isHeld).2 rfl
        exact isolated ⟨holder, holderIn, notSpender, unlinked holderIn⟩
  disjoint a aIn b isSpent isHeld := by
    obtain ⟨old, notTarget⟩ := spendAt_ledgers isHeld
    rcases mem_spent_spendAt.mp isSpent with before | ⟨rfl, rfl⟩
    · exact guarded.disjoint a aIn b before old
    · exact (notTarget rfl).1 rfl
  separated a aIn c cIn linked b isSpent isHeld := by
    obtain ⟨old, notTarget⟩ := spendAt_ledgers isHeld
    rcases mem_spent_spendAt.mp isSpent with before | ⟨rfl, rfl⟩
    · exact guarded.separated a aIn c cIn linked b before old
    · exact (notTarget rfl).2 aIn (guarded.symmetric a aIn c cIn linked)

theorem clearBarrier (guarded : Guarded Nodes s)
    (unheld : ∀ b ∈ s.barrier, ∀ n ∈ Nodes, b ∉ s.ledgers n) :
    Guarded Nodes (primed Nodes s .clearBarrier) where
  symmetric := guarded.symmetric
  barred spender spenderIn b isSpent := by
    right
    rcases guarded.barred spender spenderIn b isSpent with isBarred | noHolder
    · exact unheld b isBarred
    · exact noHolder
  disjoint := guarded.disjoint
  separated := guarded.separated

theorem next (guarded : Guarded Nodes s) (edge : Next Nodes s action s') :
    Guarded Nodes s' := by
  obtain ⟨enabled, rfl⟩ := edge
  cases action with
  | linkDown n m => exact guarded.linkDown n m
  | linkUp n m => exact guarded.linkUp enabled.1 enabled.2.1
  | propagate src dst => exact guarded.propagate enabled.1 dst
  | spendAt nn bb => exact guarded.spendAt enabled.1 bb
  | clearBarrier => exact guarded.clearBarrier enabled.2

end Guarded

/-- Every reachable state of the specification satisfies both properties. -/
theorem barrier_safe [DecidableEq Node] {first last : State Node Bearer}
    (init : Init Nodes first) (reaches : Reaches (Next Nodes) anyAction first last) :
    PairwiseSyncedNoDoubleSpend Nodes last.toState ∧ BarrierConsistent Nodes last := by
  have guarded : Guarded Nodes last :=
    reaches.invariant (Guarded Nodes) init.guarded fun _ _ _ _ kept edge => kept.next edge
  exact ⟨guarded.pairwiseSynced, guarded.barrierConsistent⟩

/-- The nodes and the initial state of the checked instance. -/
def checkedNodes : Set String := {"N1", "N2", "N3"}

def checkedInit : State String String where
  ledgers a := if a = "N1" then {"b1"} else if a = "N2" then {"b2"} else ∅
  spent _ := ∅
  network a b := a ≠ b
  barrier := ∅

theorem checkedInit_init : Init checkedNodes checkedInit where
  spent _ _ := rfl
  barrier := rfl
  symmetric _ _ _ _ linked := linked.symm
  irreflexive _ _ linked := linked rfl

theorem barrier_safe_after_spend :
    ∃ last, Reaches (Next checkedNodes) anyAction checkedInit last ∧
      "b1" ∈ last.spent "N1" ∧ PairwiseSyncedNoDoubleSpend checkedNodes last.toState ∧
      BarrierConsistent checkedNodes last := by
  have enabled : Guard checkedNodes checkedInit (.spendAt "N1" "b1") := by
    simp [Guard, checkedNodes, checkedInit]
  have reaches : Reaches (Next checkedNodes) anyAction checkedInit _ :=
    Reaches.single trivial ⟨enabled, rfl⟩
  refine ⟨_, reaches, ?_, barrier_safe checkedInit_init reaches⟩
  simp [primed]

end HabiCore.Barrier
