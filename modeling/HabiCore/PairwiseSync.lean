import HabiCore.NetworkRuns

/-!
# The local check along the runs of the network

Propagation and merging consult the two nodes they are called for.  A third
node linked to a receiver may have spent what is delivered, and this is the only
way in which a call makes the local check fail.
-/

namespace HabiCore

open LabelledRuns

namespace PerLinkSymmetric

variable {Node Bearer : Type*} {Nodes : Set Node} {s s' : State Node Bearer}

theorem Sound.pairwiseSynced_iff (sound : Sound Nodes s) :
    PairwiseSyncedNoDoubleSpend Nodes s ↔
      ∀ a ∈ Nodes, ∀ c ∈ Nodes, s.network a c → Disjoint (s.ledgers a) (s.spent c) := by
  constructor
  · intro synced a aIn c cIn linked
    rw [Set.disjoint_left]
    intro b isHeld isSpent
    exact (synced a aIn c cIn linked b (Or.inr isSpent)).1 isHeld
  · intro separated n1 n1In n2 n2In linked b isSpent
    have there := Set.disjoint_right.mp (separated n1 n1In n2 n2In linked)
    have back := Set.disjoint_right.mp
      (separated n2 n2In n1 n1In (sound.symmetric n1 n2 linked))
    rcases isSpent with byFirst | bySecond
    · exact ⟨Set.disjoint_right.mp (sound.disjoint n1) byFirst, back byFirst⟩
    · exact ⟨there bySecond, Set.disjoint_right.mp (sound.disjoint n2) bySecond⟩

theorem pairwiseSynced_settled (participants : Set Node)
    (synced : PairwiseSyncedNoDoubleSpend Nodes s) :
    PairwiseSyncedNoDoubleSpend Nodes (settled participants s) := by
  intro n1 n1In n2 n2In linked b isSpent
  obtain ⟨first, second⟩ := synced n1 n1In n2 n2In linked b isSpent
  exact ⟨fun isHeld => first (settled_ledgers_subset participants s n1 isHeld),
    fun isHeld => second (settled_ledgers_subset participants s n2 isHeld)⟩

variable [DecidableEq Node]

theorem pairwiseSynced_linkDown (n m : Node)
    (synced : PairwiseSyncedNoDoubleSpend Nodes s) :
    PairwiseSyncedNoDoubleSpend Nodes (primed Nodes s (.linkDown n m)) := by
  intro n1 n1In n2 n2In linked
  have old : s.network n1 n2 := by
    simp only [primed, setLink_apply, and_false, false_or] at linked
    exact linked.2
  exact synced n1 n1In n2 n2In old

theorem pairwiseSynced_spendAt (sound : Sound Nodes s) {nn : Node} {bb : Bearer}
    (next : Next Nodes s (.spendAt nn bb) s')
    (synced : PairwiseSyncedNoDoubleSpend Nodes s) :
    PairwiseSyncedNoDoubleSpend Nodes s' := by
  rw [(sound_next sound next).pairwiseSynced_iff]
  rw [sound.pairwiseSynced_iff] at synced
  obtain ⟨-, rfl⟩ := next
  intro a aIn c cIn linked
  have old : s.network a c := linked
  rw [Set.disjoint_left]
  intro b isHeld isSpent
  have wasHeld : b ∈ s.ledgers a ∧ (a ∈ connectedTo Nodes s nn → b ≠ bb) := by
    simp only [primed] at isHeld
    split at isHeld
    · exact ⟨isHeld.1, fun _ => isHeld.2⟩
    · rename_i notTarget
      exact ⟨isHeld, fun target => (notTarget (Or.inr target)).elim⟩
  by_cases spender : c = nn
  · subst spender
    simp only [primed, Function.update_self] at isSpent
    rcases isSpent with before | isNew
    · exact Set.disjoint_left.mp (synced a aIn c cIn old) wasHeld.1 before
    · have target : a ∈ connectedTo Nodes s c := by
        refine ⟨aIn, ?_, sound.symmetric a c old⟩
        rintro rfl
        exact sound.irreflexive a old
      exact wasHeld.2 target isNew
  · simp only [primed, Function.update_of_ne spender] at isSpent
    exact Set.disjoint_left.mp (synced a aIn c cIn old) wasHeld.1 isSpent

/-- A propagation keeps the local check unless a neighbour of the receiver has
spent a delivered bearer. -/
theorem pairwiseSynced_propagate_iff (sound : Sound Nodes s) {src dst : Node}
    (next : Next Nodes s (.propagate src dst) s')
    (synced : PairwiseSyncedNoDoubleSpend Nodes s) :
    PairwiseSyncedNoDoubleSpend Nodes s' ↔
      ∀ k ∈ Nodes, s.network dst k → Disjoint (deliverable s src dst) (s.spent k) := by
  rw [(sound_next sound next).pairwiseSynced_iff]
  rw [sound.pairwiseSynced_iff] at synced
  obtain ⟨⟨-, dstIn, -, -⟩, rfl⟩ := next
  constructor
  · intro separated k kIn linked
    have apart := separated dst dstIn k kIn linked
    simp only [primed, Function.update_self] at apart
    exact apart.mono_left Set.subset_union_right
  · intro unspent a aIn c cIn linked
    have old : s.network a c := linked
    by_cases receiver : a = dst
    · subst receiver
      simp only [primed, Function.update_self]
      exact Set.disjoint_union_left.mpr ⟨synced a aIn c cIn old, unspent c cIn old⟩
    · simp only [primed, Function.update_of_ne receiver]
      exact synced a aIn c cIn old

/-- A merge keeps the local check unless a third node linked to one of the two
has spent a merged bearer. -/
theorem pairwiseSynced_linkUp_iff (sound : Sound Nodes s) {n m : Node}
    (next : Next Nodes s (.linkUp n m) s')
    (synced : PairwiseSyncedNoDoubleSpend Nodes s) :
    PairwiseSyncedNoDoubleSpend Nodes s' ↔
      ∀ k ∈ Nodes, k ≠ n → k ≠ m → s.network n k ∨ s.network m k →
        Disjoint (merged s n m) (s.spent k) := by
  rw [(sound_next sound next).pairwiseSynced_iff]
  rw [sound.pairwiseSynced_iff] at synced
  obtain ⟨⟨nIn, mIn, distinct, -⟩, rfl⟩ := next
  have ledgersEq : ∀ a, (primed Nodes s (.linkUp n m)).ledgers a =
      if a = n ∨ a = m then merged s n m else s.ledgers a := by
    intro a
    by_cases isM : a = m <;> by_cases isN : a = n <;>
      simp [primed, Function.update_apply, isM, isN]
  have linkedIff : ∀ a c, (primed Nodes s (.linkUp n m)).network a c ↔
      (a = n ∧ c = m ∨ a = m ∧ c = n) ∨ s.network a c := by
    intro a c
    simp only [primed, setLink_apply, and_true]
    tauto
  constructor
  · rintro separated k kIn notN notM (toN | toM)
    · have apart := separated n nIn k kIn ((linkedIff n k).mpr (Or.inr toN))
      rwa [ledgersEq, if_pos (Or.inl rfl)] at apart
    · have apart := separated m mIn k kIn ((linkedIff m k).mpr (Or.inr toM))
      rwa [ledgersEq, if_pos (Or.inr rfl)] at apart
  · intro unspent a aIn c cIn linked
    rw [linkedIff] at linked
    change Disjoint _ (s.spent c)
    rw [ledgersEq]
    split
    · rename_i endpoint
      have excluded : ∀ x, x = n ∨ x = m → Disjoint (merged s n m) (s.spent x) := by
        rintro x (rfl | rfl)
        · exact Set.disjoint_sdiff_left.mono_right Set.subset_union_left
        · exact Set.disjoint_sdiff_left.mono_right Set.subset_union_right
      by_cases isN : c = n
      · exact excluded c (Or.inl isN)
      · by_cases isM : c = m
        · exact excluded c (Or.inr isM)
        · apply unspent c cIn isN isM
          have old : s.network a c := linked.resolve_left (by tauto)
          rcases endpoint with rfl | rfl
          · exact Or.inl old
          · exact Or.inr old
    · rename_i third
      have old : s.network a c := linked.resolve_left (by tauto)
      exact synced a aIn c cIn old

end PerLinkSymmetric

namespace Network

open PerLinkSymmetric

variable {V : Finset String} {net net' : Network}

theorem pairwiseSyncedNoDoubleSpend_eq_nil_iff :
    net.pairwiseSyncedNoDoubleSpend = [] ↔
      ∀ n1 ∈ net.nodes, ∀ n2 ∈ net.nodes, n1 ≠ n2 → net.linked n1 n2 = true →
        ∀ b, b ∈ net.spentOf n1 ∨ b ∈ net.spentOf n2 →
          b ∉ net.ledgerOf n1 ∧ b ∉ net.ledgerOf n2 := by
  simp only [pairwiseSyncedNoDoubleSpend, List.flatMap_eq_nil_iff, mem_sorted,
    Finmap.mem_keys, ← linked_eq]
  constructor
  · intro quiet n1 n1In n2 n2In distinct linked b isSpent
    have pairQuiet := quiet n1 n1In n2 n2In
    rw [if_neg distinct, linked] at pairQuiet
    simp only [Bool.not_true, Bool.false_eq_true, if_false, List.filterMap_eq_nil_iff,
      mem_sorted, Finset.mem_union] at pairQuiet
    have bearerQuiet := pairQuiet b isSpent
    split at bearerQuiet
    · simp at bearerQuiet
    · rename_i unheld
      exact not_or.mp unheld
  · intro synced n1 n1In n2 n2In
    split
    · rfl
    · rename_i distinct
      cases linked : net.linked n1 n2 with
      | false => rfl
      | true =>
          simp only [Bool.not_true, Bool.false_eq_true, if_false, List.filterMap_eq_nil_iff,
            mem_sorted, Finset.mem_union]
          intro b isSpent
          obtain ⟨first, second⟩ := synced n1 n1In n2 n2In distinct linked b isSpent
          simp [first, second]

theorem pairwiseSyncedNoDoubleSpend_eq_nil (consistent : Consistent V net)
    (sound : Sound V net.view) :
    net.pairwiseSyncedNoDoubleSpend = [] ↔ PairwiseSyncedNoDoubleSpend V net.view := by
  rw [pairwiseSyncedNoDoubleSpend_eq_nil_iff]
  simp only [consistent.nodes_known]
  constructor
  · intro synced n1 n1In n2 n2In linked b isSpent
    have distinct : n1 ≠ n2 := by
      rintro rfl
      exact sound.irreflexive n1 linked
    exact synced n1 n1In n2 n2In distinct linked b isSpent
  · intro synced n1 n1In n2 n2In _ linked b isSpent
    exact synced n1 n1In n2 n2In linked b isSpent

/-- A third node has spent a bearer that the action gives to a node linked to it:
to the receiver of a propagation, or to one of two nodes that merge. -/
def Relays (net : Network) : Action String String → Prop
  | .propagate src dst => ∃ k, net.linked dst k = true ∧
      ∃ b ∈ net.spentOf k, b ∈ net.ledgerOf src ∧ b ∉ net.spentOf dst ∧ b ∉ net.ledgerOf dst
  | .linkUp n m => ∃ k, k ≠ n ∧ k ≠ m ∧ (net.linked n k = true ∨ net.linked m k = true) ∧
      ∃ b ∈ net.spentOf k, b ∈ net.ledgerOf n ∪ net.ledgerOf m ∧
        b ∉ net.spentOf n ∪ net.spentOf m
  | .linkDown _ _ => False
  | .spendAt _ _ => False

theorem relays_propagate_iff (consistent : Consistent V net) (src dst : String) :
    net.Relays (.propagate src dst) ↔
      ¬ ∀ k ∈ (V : Set String), net.view.network dst k →
        Disjoint (deliverable net.view src dst) (net.view.spent k) := by
  simp only [Relays, Set.disjoint_right, not_forall, not_not, exists_prop]
  constructor
  · rintro ⟨k, linked, b, isSpent, delivered⟩
    exact ⟨k, (consistent.known_of_linked linked).2, linked, b, isSpent,
      ⟨delivered.1, delivered.2.1⟩, delivered.2.2⟩
  · rintro ⟨k, -, linked, b, isSpent, delivered⟩
    exact ⟨k, linked, b, isSpent, delivered.1.1, delivered.1.2, delivered.2⟩

theorem relays_linkUp_iff (consistent : Consistent V net) (n m : String) :
    net.Relays (.linkUp n m) ↔
      ¬ ∀ k ∈ (V : Set String), k ≠ n → k ≠ m →
        net.view.network n k ∨ net.view.network m k →
          Disjoint (merged net.view n m) (net.view.spent k) := by
  have memMerged : ∀ b, b ∈ merged net.view n m ↔
      b ∈ net.ledgerOf n ∪ net.ledgerOf m ∧ b ∉ net.spentOf n ∪ net.spentOf m := by
    intro b
    simp [merged]
  simp only [Relays, Set.disjoint_right, not_forall, not_not, exists_prop, memMerged]
  constructor
  · rintro ⟨k, notN, notM, linked, b, isSpent, isMerged⟩
    have known : k ∈ V := by
      rcases linked with toN | toM
      · exact (consistent.known_of_linked toN).2
      · exact (consistent.known_of_linked toM).2
    exact ⟨k, known, notN, notM, linked, b, isSpent, isMerged⟩
  · rintro ⟨k, -, notN, notM, linked, b, isSpent, isMerged⟩
    exact ⟨k, notN, notM, linked, b, isSpent, isMerged⟩

/-- A successful action keeps the local check exactly when it relays nothing. -/
theorem pairwiseSynced_next_iff (sound : Sound V net.view) (consistent : Consistent V net)
    {action : Action String String} (next : Next V net.view action net'.view)
    (synced : PairwiseSyncedNoDoubleSpend V net.view) :
    PairwiseSyncedNoDoubleSpend V net'.view ↔ ¬ net.Relays action := by
  cases action with
  | linkDown n m =>
      have kept := pairwiseSynced_linkDown n m synced
      rw [← next.2] at kept
      simp [Relays, kept]
  | spendAt nn bb =>
      have kept := pairwiseSynced_spendAt sound next synced
      simp [Relays, kept]
  | propagate src dst =>
      rw [relays_propagate_iff consistent, not_not]
      exact pairwiseSynced_propagate_iff sound next synced
  | linkUp n m =>
      rw [relays_linkUp_iff consistent, not_not]
      exact pairwiseSynced_linkUp_iff sound next synced

/-- On every reachable network on which the local check holds, a successful call
makes it fail exactly when it relays a spent bearer to a third node's neighbour.
Refused calls and settlements, whoever takes part, keep it. -/
theorem pairwiseSynced_kept_iff_not_relays {nodeIds : List String} {start : Network}
    (initial : IsInitial nodeIds start) (reaches : Reaches CallStep anyCall start net)
    (synced : net.pairwiseSyncedNoDoubleSpend = []) :
    (∀ action net', net.apply action = some (.ok (), net') →
      (net'.pairwiseSyncedNoDoubleSpend = [] ↔ ¬ net.Relays action)) ∧
    (∀ action e net', net.apply action = some (.error e, net') →
      net'.pairwiseSyncedNoDoubleSpend = []) ∧
    ∀ participants result net', net.runConversionDay participants = (result, net') →
      net'.pairwiseSyncedNoDoubleSpend = [] := by
  have consistent := initial.consistent.reaches reaches
  have sound := sound_reaches initial.consistent initial.sound reaches
  have syncedView := (pairwiseSyncedNoDoubleSpend_eq_nil consistent sound).mp synced
  refine ⟨?_, ?_, ?_⟩
  · intro action net' called
    obtain ⟨consistent', next⟩ := next_of_apply_ok consistent called
    have sound' := sound_next sound next
    rw [pairwiseSyncedNoDoubleSpend_eq_nil consistent' sound']
    exact pairwiseSynced_next_iff sound consistent next syncedView
  · intro action e net' called
    rcases apply_spec consistent action with ⟨-, after, performed, -⟩ | ⟨-, e', refused⟩
    · simp [called] at performed
    · obtain ⟨-, rfl⟩ : e = e' ∧ net' = net := by simpa [called] using refused
      exact synced
  · intro participants result net' called
    rcases runConversionDay_spec consistent participants with
      ⟨-, after, performed, consistent', viewEq⟩ | ⟨-, e, refused⟩
    · obtain ⟨-, rfl⟩ : result = .ok () ∧ net' = after := by simpa [called] using performed
      have sound' : Sound nodeIds.toFinset net'.view := viewEq ▸ sound_settled sound _
      rw [pairwiseSyncedNoDoubleSpend_eq_nil consistent' sound', viewEq]
      exact pairwiseSynced_settled _ syncedView
    · obtain ⟨-, rfl⟩ : result = .error e ∧ net' = net := by simpa [called] using refused
      exact synced

def performAll (net : Network) : List (Action String String) → Option Network
  | [] => some net
  | action :: rest =>
      match net.apply action with
      | some (.ok (), net') => net'.performAll rest
      | _ => none

theorem reaches_of_performAll {actions : List (Action String String)}
    (performed : net.performAll actions = some net') : Reaches CallStep anyCall net net' := by
  induction actions generalizing net with
  | nil =>
      obtain rfl : net = net' := Option.some_inj.mp performed
      exact .refl net
  | cons action rest ih =>
      unfold performAll at performed
      split at performed
      · rename_i next called
        exact (Reaches.single trivial (.of_apply called)).trans (ih performed)
      · cases performed

theorem apply_of_performAll {action : Action String String}
    (performed : net.performAll [action] = some net') :
    net.apply action = some (.ok (), net') := by
  unfold performAll at performed
  split at performed
  · rename_i next called
    rw [called, Option.some_inj.mp performed]
  · cases performed

/-- `N1` gets `b2` from `N2` and spends it without the other noticing. -/
def spentUnnoticed : List (Action String String) :=
  [.propagate "N2" "N1", .linkDown "N1" "N2", .spendAt "N1" "b2"]

/-- The relay of a bearer that a neighbour of the receiver has spent. -/
theorem pairwiseSynced_kept_iff_not_relays_throughN3 :
    ∃ net relayed, Reaches CallStep anyCall makeInitNetwork net ∧
      net.pairwiseSyncedNoDoubleSpend = [] ∧
      net.apply (.propagate "N2" "N3") = some (.ok (), relayed) ∧
      net.Relays (.propagate "N2" "N3") ∧
      relayed.pairwiseSyncedNoDoubleSpend = [("N1", "N3", "b2"), ("N3", "N1", "b2")] := by
  have outcome : ((makeInitNetwork.performAll spentUnnoticed).bind fun net =>
      (net.performAll [.propagate "N2" "N3"]).map fun relayed =>
        (net.pairwiseSyncedNoDoubleSpend, relayed.pairwiseSyncedNoDoubleSpend)) =
      some ([], [("N1", "N3", "b2"), ("N3", "N1", "b2")]) := by decide
  obtain ⟨net, performed, continued⟩ := Option.bind_eq_some_iff.mp outcome
  obtain ⟨relayed, relay, reports⟩ := Option.map_eq_some_iff.mp continued
  obtain ⟨synced, violated⟩ := Prod.mk.inj reports
  have called := apply_of_performAll relay
  have reaches := reaches_of_performAll performed
  have kept := (pairwiseSynced_kept_iff_not_relays makeInitNetwork_isInitial reaches synced).1
    (.propagate "N2" "N3") relayed called
  refine ⟨net, relayed, reaches, synced, called, ?_, violated⟩
  by_contra noRelay
  have quiet := kept.mpr noRelay
  simp [violated] at quiet

end Network

end HabiCore
