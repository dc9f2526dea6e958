import HabiCore.BarrierSpecification
import HabiCore.PossibleRuns

/-!
# The barrier can be lifted

However bearers have been spent in isolation, the nodes of `DIL_CRDT_Barrier` can
always come to a state in which all are connected, no bearer is barred and nobody
holds what has been spent.
-/

namespace HabiCore.Barrier

open LabelledRuns
open PerLinkSymmetric (setLink_apply)

variable {Node Bearer : Type*} {Nodes : Set Node} {s s' first last : State Node Bearer}
  {action : Action Node Bearer}

def unspending (_ : State Node Bearer) : Action Node Bearer → Prop
  | .linkDown _ _ | .linkUp _ _ | .clearBarrier => True
  | _ => False

/-- Only spent bearers are barred, and a single node bars nothing. -/
structure BarredSpends (Nodes : Set Node) (s : State Node Bearer) : Prop where
  many : s.barrier.Nonempty → Nodes.Nontrivial
  spent : ∀ b ∈ s.barrier, ∃ n ∈ Nodes, b ∈ s.spent n

theorem Init.barredSpends (init : Init Nodes s) : BarredSpends Nodes s where
  many barred := by simp [init.barrier] at barred
  spent b barred := by simp [init.barrier] at barred

/-- Nothing has been spent since, and every node still holds what it held and nobody
has spent. -/
structure Keeps (Nodes : Set Node) (s last : State Node Bearer) : Prop where
  spent : last.spent = s.spent
  held : ∀ m, ∀ b ∈ s.ledgers m, (∀ n ∈ Nodes, b ∉ s.spent n) → b ∈ last.ledgers m

theorem Keeps.trans (before : Keeps Nodes first s) (after : Keeps Nodes s last) :
    Keeps Nodes first last where
  spent := after.spent.trans before.spent
  held m b isHeld unspent := after.held m b (before.held m b isHeld unspent)
    (before.spent ▸ unspent)

def unclean (Nodes : Set Node) (s : State Node Bearer) : Set Node :=
  {n | n ∈ Nodes ∧ ∃ b ∈ s.barrier, b ∈ s.ledgers n}

variable [DecidableEq Node]

theorem BarredSpends.next (barred : BarredSpends Nodes s) (next : Next Nodes s action s') :
    BarredSpends Nodes s' := by
  obtain ⟨guard, rfl⟩ := next
  cases action with
  | linkDown | linkUp | propagate => exact ⟨barred.many, barred.spent⟩
  | spendAt nn bb =>
      have stays : ∀ b ∈ s.barrier, ∃ n ∈ Nodes, b ∈ (primed Nodes s (.spendAt nn bb)).spent n := by
        intro b isBarred
        obtain ⟨n, nIn, isSpent⟩ := barred.spent b isBarred
        exact ⟨n, nIn, Guarded.mem_spent_spendAt.mpr (Or.inl isSpent)⟩
      by_cases isolated : PartiallyIsolated Nodes s nn
      · have isolates := isolated
        obtain ⟨m, mIn, other, -⟩ := isolated
        refine ⟨fun _ => ⟨m, mIn, nn, guard.1, other⟩, fun b isBarred => ?_⟩
        have isBarred : b ∈ s.barrier ∪ {bb} := by simpa [primed, isolates] using isBarred
        rcases isBarred with old | rfl
        · exact stays b old
        · exact ⟨nn, guard.1, Guarded.mem_spent_spendAt.mpr (Or.inr ⟨rfl, rfl⟩)⟩
      · have same : (primed Nodes s (.spendAt nn bb)).barrier = s.barrier := by
          simp [primed, isolated]
        exact ⟨same ▸ barred.many, same ▸ stays⟩
  | clearBarrier =>
      exact ⟨fun nonempty => (Set.not_nonempty_empty nonempty).elim, fun _ isBarred =>
        isBarred.elim⟩

theorem mem_linkUp {n m a : Node} {b : Bearer} (isHeld : b ∈ s.ledgers a)
    (nIn : n ∈ Nodes) (mIn : m ∈ Nodes) (unspent : ∀ x ∈ Nodes, b ∉ s.spent x)
    (free : b ∉ s.barrier) : b ∈ (primed Nodes s (.linkUp n m)).ledgers a := by
  have unspentHere : b ∉ s.spent n ∪ s.spent m := by simp [unspent n nIn, unspent m mIn]
  simp only [primed, Function.update_apply]
  split
  · rename_i isM
    exact ⟨⟨Or.inr (isM ▸ isHeld), unspentHere⟩, free⟩
  · split
    · rename_i isN
      exact ⟨⟨Or.inl (isN ▸ isHeld), unspentHere⟩, free⟩
    · exact isHeld

theorem unclean_linkUp (n m : Node) :
    unclean Nodes (primed Nodes s (.linkUp n m)) = unclean Nodes s \ {n, m} := by
  have clean : ∀ b ∈ s.barrier, b ∉ merged s n m := fun b barred isMerged => isMerged.2 barred
  ext a
  by_cases isN : a = n
  · subst isN
    simpa [unclean, primed, Function.update_apply] using fun _ => clean
  · by_cases isM : a = m
    · subst isM
      simpa [unclean, primed, Function.update_apply] using fun _ => clean
    · simp [unclean, primed, isN, isM]

theorem Keeps.linkUp {n m : Node} (keeps : Keeps Nodes first s) (barred : BarredSpends Nodes s)
    (nIn : n ∈ Nodes) (mIn : m ∈ Nodes) : Keeps Nodes first (primed Nodes s (.linkUp n m)) where
  spent := keeps.spent
  held a b isHeld unspent := by
    have stillUnspent : ∀ x ∈ Nodes, b ∉ s.spent x := keeps.spent ▸ unspent
    refine mem_linkUp (keeps.held a b isHeld unspent) nIn mIn stillUnspent fun isBarred => ?_
    obtain ⟨x, xIn, isSpent⟩ := barred.spent b isBarred
    exact stillUnspent x xIn isSpent

theorem exists_fullyConnected (finite : Nodes.Finite) (barred : BarredSpends Nodes s) :
    ∃ last, Reaches (Next Nodes) unspending s last ∧
      (BarredSpends Nodes last ∧ Keeps Nodes s last) ∧ FullyConnected Nodes last := by
  refine Reaches.exists_allLinked finite (fun state kept a aIn b bIn distinct down => ?_)
    ⟨barred, ⟨rfl, fun _ _ isHeld _ => isHeld⟩⟩
  have isAllowed : unspending state (.linkUp a b) := trivial
  have next : Next Nodes state (.linkUp a b) _ := ⟨⟨aIn, bIn, distinct, down⟩, rfl⟩
  refine ⟨_, .single isAllowed next, ⟨kept.1.next next, kept.2.linkUp kept.1 aIn bIn⟩, ?_,
    fun x y linked => ?_⟩
  · simp [primed, setLink_apply]
  · simp only [primed, setLink_apply, and_true]
    exact or_iff_not_imp_left.mpr fun other => ⟨other, linked⟩

/-- A link that goes down and comes up again cleans the ledgers of its nodes. -/
theorem exists_relinked {n m : Node} (barred : BarredSpends Nodes s)
    (connected : FullyConnected Nodes s) (nIn : n ∈ Nodes) (mIn : m ∈ Nodes) (distinct : n ≠ m) :
    ∃ last, Reaches (Next Nodes) unspending s last ∧
      (BarredSpends Nodes last ∧ Keeps Nodes s last) ∧ FullyConnected Nodes last ∧
      unclean Nodes last = unclean Nodes s \ {n, m} := by
  have downAllowed : unspending s (.linkDown n m) := trivial
  have goesDown : Next Nodes s (.linkDown n m) (primed Nodes s (.linkDown n m)) :=
    ⟨⟨nIn, mIn, distinct, (connected n nIn m mIn).resolve_left distinct⟩, rfl⟩
  have isDown : ¬ (primed Nodes s (.linkDown n m)).network n m := by
    simp [primed, setLink_apply]
  have upAllowed : unspending (primed Nodes s (.linkDown n m)) (.linkUp n m) := trivial
  have comesUp : Next Nodes (primed Nodes s (.linkDown n m)) (.linkUp n m) _ :=
    ⟨⟨nIn, mIn, distinct, isDown⟩, rfl⟩
  have barredDown := barred.next goesDown
  have keepsDown : Keeps Nodes s (primed Nodes s (.linkDown n m)) :=
    ⟨rfl, fun _ _ isHeld _ => isHeld⟩
  refine ⟨_, (Reaches.single downAllowed goesDown).tail upAllowed comesUp,
    ⟨barredDown.next comesUp, keepsDown.linkUp barredDown nIn mIn⟩, fun a aIn b bIn => ?_, ?_⟩
  · have before := connected a aIn b bIn
    simp only [primed, setLink_apply]
    tauto
  · rw [unclean_linkUp]
    rfl

theorem exists_clean (finite : Nodes.Finite) (barred : BarredSpends Nodes s)
    (connected : FullyConnected Nodes s) :
    ∃ last, Reaches (Next Nodes) unspending s last ∧
      (BarredSpends Nodes last ∧ Keeps Nodes s last ∧ FullyConnected Nodes last) ∧
      unclean Nodes last = ∅ := by
  refine Reaches.exists_emptied (fun state _ => finite.subset fun n isUnclean => isUnclean.1) ?_
    ⟨barred, ⟨rfl, fun _ _ isHeld _ => isHeld⟩, connected⟩
  rintro state ⟨barred, keeps, connected⟩ ⟨n, nIn, b, isBarred, isHeld⟩
  obtain ⟨m, mIn, other⟩ := (barred.many ⟨b, isBarred⟩).exists_ne n
  obtain ⟨next, reaches, ⟨barredNext, keepsNext⟩, connectedNext, cleaned⟩ :=
    exists_relinked barred connected nIn mIn other.symm
  refine ⟨next, reaches, ⟨barredNext, keeps.trans keepsNext, connectedNext⟩, ?_⟩
  rw [cleaned]
  refine ⟨Set.sdiff_subset, fun whole => ?_⟩
  exact (whole ⟨nIn, b, isBarred, isHeld⟩).2 (Or.inl rfl)

/-- From every reachable state the barrier can be lifted with all nodes connected,
without a spend and without any node losing a bearer that is unspent.  What has been
spent is then held by nobody. -/
theorem barrier_can_be_lifted (finite : Nodes.Finite) (init : Init Nodes first)
    (reaches : Reaches (Next Nodes) anyAction first s) :
    ∃ last, Reaches (Next Nodes) unspending s last ∧ FullyConnected Nodes last ∧
      last.barrier = ∅ ∧ Keeps Nodes s last ∧
      ∀ n ∈ Nodes, ∀ b ∈ s.spent n, ∀ m ∈ Nodes, b ∉ last.ledgers m := by
  have barred : BarredSpends Nodes s := reaches.invariant (BarredSpends Nodes)
    init.barredSpends fun _ _ _ _ barred next => barred.next next
  obtain ⟨linked, linking, ⟨barredLinked, keepsLinked⟩, connected⟩ :=
    exists_fullyConnected finite barred
  obtain ⟨cleaned, cleaning, ⟨-, keepsCleaned, stillConnected⟩, clean⟩ :=
    exists_clean finite barredLinked connected
  have unheld : ∀ b ∈ cleaned.barrier, ∀ n ∈ Nodes, b ∉ cleaned.ledgers n := by
    intro b isBarred n nIn isHeld
    have isUnclean : n ∈ unclean Nodes cleaned := ⟨nIn, b, isBarred, isHeld⟩
    rw [clean] at isUnclean
    exact isUnclean
  have isAllowed : unspending cleaned .clearBarrier := trivial
  have clears : Next Nodes cleaned .clearBarrier { cleaned with barrier := ∅ } :=
    ⟨⟨stillConnected, unheld⟩, rfl⟩
  have onwards := (linking.trans cleaning).tail isAllowed clears
  have guarded : Guarded Nodes { cleaned with barrier := ∅ } :=
    (reaches.trans (onwards.mono fun _ _ _ => trivial)).invariant (Guarded Nodes) init.guarded
      fun _ _ _ _ kept next => kept.next next
  have keeps := keepsLinked.trans keepsCleaned
  refine ⟨_, onwards, stillConnected, rfl, ⟨keeps.spent, keeps.held⟩, fun n nIn b isSpent => ?_⟩
  have spentStill : b ∈ cleaned.spent n := keeps.spent ▸ isSpent
  exact guarded.barrierConsistent ⟨stillConnected, rfl⟩ b ⟨n, nIn, spentStill⟩

/-- After a spend in isolation, in the checked instance. -/
theorem barrier_can_be_lifted_isolated :
    ∃ s, Reaches (Next checkedNodes) anyAction checkedInit s ∧ "b1" ∈ s.barrier ∧
      ∃ last, Reaches (Next checkedNodes) unspending s last ∧
        FullyConnected checkedNodes last ∧ last.barrier = ∅ ∧ Keeps checkedNodes s last ∧
        ∀ n ∈ checkedNodes, ∀ b ∈ s.spent n, ∀ m ∈ checkedNodes, b ∉ last.ledgers m := by
  have finite : checkedNodes.Finite := by simp [checkedNodes]
  have down : Next checkedNodes checkedInit (.linkDown "N1" "N2") _ :=
    ⟨by simp [Guard, checkedNodes, checkedInit], rfl⟩
  have spend : Next checkedNodes (primed checkedNodes checkedInit (.linkDown "N1" "N2"))
      (.spendAt "N1" "b1") _ := ⟨by simp [Guard, primed, checkedNodes, checkedInit], rfl⟩
  have reaches : Reaches (Next checkedNodes) anyAction checkedInit _ :=
    (Reaches.single trivial down).tail trivial spend
  refine ⟨_, reaches, ?_, barrier_can_be_lifted finite checkedInit_init reaches⟩
  have isolated : PartiallyIsolated checkedNodes
      (primed checkedNodes checkedInit (.linkDown "N1" "N2")) "N1" :=
    ⟨"N2", by simp [checkedNodes], by decide, by simp [primed, setLink_apply]⟩
  simp only [primed] at isolated ⊢
  simp [isolated]

end HabiCore.Barrier
