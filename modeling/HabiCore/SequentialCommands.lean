import HabiCore.SequentialRuns

/-!
# What commands executed alone do

The outcome of each command is described on the ledgers, spent sets and links of
all nodes.
-/

namespace HabiCore.Deployment

open LockedProcesses PerLinkSymmetric

variable {ι : Type} {D : Deployment ι} {nodeId : ι → String}

/-- The ledgers, spent sets and links of all nodes. -/
def jointState (nodeId : ι → String) (memory : ι → NodeShared) : State ι String where
  ledgers i := (memory i).node.ledger
  spent i := (memory i).node.spent
  network i j := (memory i).isLinked (nodeId j) = true

theorem Configured.lookup_cases (configured : Configured D nodeId) (i : ι) (peer : String) :
    (∃ j addr, j ≠ i ∧ peer = nodeId j ∧ (D.peers i).lookup peer = some addr ∧
      D.listener addr = some j) ∨
    ((D.peers i).lookup peer = none ∧ ∀ j, peer = nodeId j → j = i) := by
  cases found : (D.peers i).lookup peer with
  | some addr =>
      obtain ⟨j, other, same, listening⟩ := configured.only_listed i peer addr found
      exact Or.inl ⟨j, addr, other, same, rfl, listening⟩
  | none =>
      refine Or.inr ⟨rfl, fun j same => ?_⟩
      by_contra other
      obtain ⟨addr, known, -⟩ := configured.lookup other
      rw [← same, found] at known
      cases known

variable [DecidableEq ι] {memory after : ι → NodeShared} {i j : ι} {addr : String}
  {reply : AdminReply}

omit [DecidableEq ι] in
@[simp] theorem jointState_ledgers (x : ι) :
    (jointState nodeId memory).ledgers x = (memory x).node.ledger := rfl

omit [DecidableEq ι] in
@[simp] theorem jointState_spent (x : ι) :
    (jointState nodeId memory).spent x = (memory x).node.spent := rfl

omit [DecidableEq ι] in
@[simp] theorem jointState_network (x y : ι) :
    (jointState nodeId memory).network x y = ((memory x).isLinked (nodeId y) = true) := rfl

omit [DecidableEq ι] in
theorem jointState_eq {s : State ι String}
    (ledgers : ∀ x, ((memory x).node.ledger : Set String) = s.ledgers x)
    (spent : ∀ x, ((memory x).node.spent : Set String) = s.spent x)
    (network : ∀ x y, (memory x).isLinked (nodeId y) = true ↔ s.network x y) :
    jointState nodeId memory = s := by
  apply State.ext
  · exact funext ledgers
  · exact funext spent
  · exact funext fun x => funext fun y => propext (network x y)

theorem linkUp_yields (named : ∀ x, (memory x).node.nodeId = nodeId x)
    (injective : Function.Injective nodeId) (other : j ≠ i)
    (found : (D.peers i).lookup (nodeId j) = some addr) (listening : D.listener addr = some j)
    (yields : Yields D memory i (HabiNode.linkUp (D.peers i) (nodeId j)) after reply) :
    reply = .ok ∧
      jointState nodeId after = primed Set.univ (jointState nodeId memory) (.linkUp i j) := by
  rw [HabiNode.linkUp, HabiNode.withPeerAddr_known found, yields_read, HabiNode.exchangeWithPeer,
    yields_exchange listening, handlePeerConnection_linkUpHello] at yields
  change Yields D _ i (.locked _ fun _ => .persist (.done .ok)) after reply at yields
  rw [yields_locked, yields_persist, yields_done, Function.update_of_ne (Ne.symm other)] at yields
  obtain ⟨isAfter, rfl⟩ := yields
  have here : after i = (memory i).applyLinkUp (nodeId j)
      ((memory i).computeLinkUpMerge (memory j).node.ledger (memory j).node.spent) := by
    simp [isAfter, CriticalSection.execute, applyLinkUpReply, named]
  have there : after j = (memory j).applyLinkUp (nodeId i)
      ((memory j).computeLinkUpMerge (memory i).node.ledger (memory i).node.spent) := by
    simp [isAfter, other, named]
  have elsewhere : ∀ x, x ≠ i → x ≠ j → after x = memory x := by
    intro x notHere notThere
    simp [isAfter, notHere, notThere]
  have spent : ∀ x, (after x).node.spent = (memory x).node.spent := by
    intro x
    by_cases isOwn : x = i
    · rw [isOwn, here, NodeShared.applyLinkUp_node]
    · by_cases isPeer : x = j
      · rw [isPeer, there, NodeShared.applyLinkUp_node]
      · rw [elsewhere x isOwn isPeer]
  refine ⟨rfl, jointState_eq (fun x => ?_) (fun x => ?_) fun x y => ?_⟩
  · by_cases isOwn : x = i
    · subst isOwn
      simp [here, primed, merged, NodeShared.computeLinkUpMerge_eq, Ne.symm other]
    · by_cases isPeer : x = j
      · subst isPeer
        simp [there, primed, merged, NodeShared.computeLinkUpMerge_eq, Set.union_comm]
      · simp [elsewhere x isOwn isPeer, primed, isOwn, isPeer]
  · rw [spent]
    rfl
  · simp only [primed, setLink_apply, jointState_network]
    by_cases isOwn : x = i
    · subst isOwn
      simp only [here, NodeShared.applyLinkUp_isLinked, injective.eq_iff, Ne.symm other]
      by_cases linked : y = j <;> simp [linked]
    · by_cases isPeer : x = j
      · subst isPeer
        simp only [there, NodeShared.applyLinkUp_isLinked, injective.eq_iff, isOwn]
        by_cases linked : y = i <;> simp [linked]
      · simp [elsewhere x isOwn isPeer, isOwn, isPeer]

theorem linkDown_yields (named : ∀ x, (memory x).node.nodeId = nodeId x)
    (injective : Function.Injective nodeId) (other : j ≠ i)
    (found : (D.peers i).lookup (nodeId j) = some addr) (listening : D.listener addr = some j)
    (yields : Yields D memory i (HabiNode.linkDown (D.peers i) (nodeId j)) after reply) :
    reply = .ok ∧
      jointState nodeId after = primed Set.univ (jointState nodeId memory) (.linkDown i j) := by
  rw [HabiNode.linkDown, HabiNode.withPeerAddr_known found, yields_read, HabiNode.sendToPeerNoReply,
    yields_send listening] at yields
  obtain ⟨outcome, finishes, isAfter, rfl⟩ := yields
  cases finishes
  have here : after i = (memory i).applyLinkDown (nodeId j) := by
    simp [isAfter, System.deliverAll, System.deliver, CriticalSection.execute, Ne.symm other]
  have there : after j = (memory j).applyLinkDown (nodeId i) := by
    simp [isAfter, System.deliverAll, System.deliver, other, named]
  have elsewhere : ∀ x, x ≠ i → x ≠ j → after x = memory x := by
    intro x notHere notThere
    simp [isAfter, System.deliverAll, System.deliver, notHere, notThere]
  have nodes : ∀ x, (after x).node = (memory x).node := by
    intro x
    by_cases isOwn : x = i
    · rw [isOwn, here, NodeShared.applyLinkDown_node]
    · by_cases isPeer : x = j
      · rw [isPeer, there, NodeShared.applyLinkDown_node]
      · rw [elsewhere x isOwn isPeer]
  refine ⟨rfl, jointState_eq (fun x => ?_) (fun x => ?_) fun x y => ?_⟩
  · rw [nodes]
    rfl
  · rw [nodes]
    rfl
  · simp only [primed, setLink_apply, jointState_network]
    by_cases isOwn : x = i
    · subst isOwn
      simp [here, Ne.symm other, injective.eq_iff]
    · by_cases isPeer : x = j
      · subst isPeer
        simp [there, isOwn, injective.eq_iff]
      · simp [elsewhere x isOwn isPeer, isOwn, isPeer]

theorem propagate_yields
    (symmetric : (memory j).isLinked (nodeId i) = (memory i).isLinked (nodeId j))
    (named : ∀ x, (memory x).node.nodeId = nodeId x) (other : j ≠ i)
    (found : (D.peers i).lookup (nodeId j) = some addr) (listening : D.listener addr = some j)
    (linked : (memory i).isLinked (nodeId j) = true)
    (yields : Yields D memory i (HabiNode.propagate (D.peers i) (nodeId j)) after reply) :
    reply = .ok ∧
      jointState nodeId after = primed Set.univ (jointState nodeId memory) (.propagate j i) := by
  rw [HabiNode.propagate, HabiNode.withPeerAddr_known found, yields_read] at yields
  simp only [linked, Bool.not_true, Bool.false_eq_true, if_false] at yields
  rw [HabiNode.exchangeWithPeer, yields_exchange listening,
    handlePeerConnection_propagateRequest, named i, symmetric, linked, if_pos rfl,
    Function.update_eq_self] at yields
  change Yields D _ i (.locked _ fun _ => .persist (.done .ok)) after reply at yields
  rw [yields_locked, yields_persist, yields_done] at yields
  obtain ⟨isAfter, rfl⟩ := yields
  have here : after i = (memory i).applyPropagateDeliverable
      ((memory i).computePropagateDeliverable (memory j).node.ledger) := by
    simp [isAfter, CriticalSection.execute, applyPropagateReply]
  have elsewhere : ∀ x, x ≠ i → after x = memory x := by
    intro x notHere
    rw [isAfter, Function.update_of_ne notHere]
  refine ⟨rfl, jointState_eq (fun x => ?_) (fun x => ?_) fun x y => ?_⟩
  all_goals by_cases isOwn : x = i
  · subst isOwn
    simp [here, primed, deliverable, NodeShared.computePropagateDeliverable_eq]
  · simp [elsewhere x isOwn, primed, isOwn]
  · rw [isOwn, here]
    rfl
  · rw [elsewhere x isOwn]
    rfl
  · rw [isOwn, here]
    rfl
  · rw [elsewhere x isOwn]
    rfl

theorem propagate_yields_of_unlinked (found : (D.peers i).lookup (nodeId j) = some addr)
    (unlinked : (memory i).isLinked (nodeId j) = false)
    (yields : Yields D memory i (HabiNode.propagate (D.peers i) (nodeId j)) after reply) :
    after = memory ∧ reply = .error s!"no link to {nodeId j}, cannot propagate" := by
  rw [HabiNode.propagate, HabiNode.withPeerAddr_known found, yields_read] at yields
  simp only [unlinked, Bool.not_false, if_true] at yields
  exact yields_done.mp yields

theorem spendAt_yields_of_missing {bearer : String} (missing : bearer ∉ (memory i).node.ledger)
    (yields : Yields D memory i (HabiNode.spendAt (D.peers i) bearer) after reply) :
    after = memory ∧
      reply = .error s!"{(memory i).node.nodeId} does not hold {bearer}, cannot spend" := by
  have outcome := ((memory i).localSpend_cases bearer).resolve_left fun held => missing held.1
  rw [HabiNode.spendAt, yields_locked, HabiNode.finishSpend, CriticalSection.execute, outcome.2,
    Function.update_eq_self] at yields
  exact yields_done.mp yields

theorem spendAt_yields (configured : Configured D nodeId) {bearer : String}
    (isHeld : bearer ∈ (memory i).node.ledger)
    (yields : Yields D memory i (HabiNode.spendAt (D.peers i) bearer) after reply) :
    reply = .ok ∧
      jointState nodeId after = primed Set.univ (jointState nodeId memory) (.spendAt i bearer) := by
  obtain ⟨left, succeeds, ledger, spent, links⟩ := NodeShared.localSpend_of_mem isHeld
  have executed : (CriticalSection.localSpend bearer).execute (memory i) = left := by
    rw [CriticalSection.execute, succeeds]
  rw [HabiNode.spendAt, yields_locked, HabiNode.finishSpend, succeeds, yields_persist,
    executed] at yields
  obtain ⟨replied, removes⟩ := removes_of_broadcast configured
    (fun _ => HabiNode.mem_spendNotices) yields
  refine ⟨replied, jointState_eq (fun x => ?_) (fun x => ?_) fun x y => ?_⟩
  · rw [removes.ledger]
    by_cases isOwn : x = i
    · subst isOwn
      simp [primed, ledger]
    · have notified : nodeId x ∈ left.connectedPeers ↔
          x ∈ connectedTo Set.univ (jointState nodeId memory) i := by
        rw [NodeShared.mem_connectedPeers, links]
        simp [connectedTo, isOwn]
      by_cases isTarget : x ∈ connectedTo Set.univ (jointState nodeId memory) i
      · simp [primed, isOwn, notified, isTarget]
      · simp [primed, isOwn, notified, isTarget]
  · rw [removes.spent]
    by_cases isOwn : x = i
    · subst isOwn
      simp [primed, spent]
    · simp [primed, isOwn]
  · rw [removes.links]
    by_cases isOwn : x = i
    · subst isOwn
      simp [primed, links]
    · simp [primed, isOwn]

def snapshotOf (nodeId : ι → String) (memory : ι → NodeShared) (x : ι) : PeerSnapshot :=
  ⟨nodeId x, (memory x).node.ledger, (memory x).node.spent⟩

theorem yields_gather {order : IterationOrder} {selfId : String}
    {rest : List (Sigma fun _ : String => String)} {snapshots : List PeerSnapshot}
    (listed : ∀ peer ∈ rest, ∃ x, peer.1 = nodeId x ∧ D.listener peer.2 = some x)
    (yields : Yields D memory i
      (HabiNode.gather (D.peers i) order selfId rest snapshots []) after reply) :
    ∃ gathered, Yields D memory i
        (HabiNode.settle (D.peers i) order selfId (snapshots ++ gathered) []) after reply ∧
      (∀ snap ∈ gathered, ∃ x, snap = snapshotOf nodeId memory x) ∧
      ∀ x, (∃ peer ∈ rest, peer.1 = nodeId x ∧ D.listener peer.2 = some x) →
        snapshotOf nodeId memory x ∈ gathered := by
  induction rest generalizing snapshots with
  | nil => exact ⟨[], by simpa [HabiNode.gather] using yields, by simp, by simp⟩
  | cons peer rest ih =>
      obtain ⟨id, addr⟩ := peer
      obtain ⟨x, rfl, listening⟩ := listed _ List.mem_cons_self
      rw [HabiNode.gather, HabiNode.exchangeWithPeer, yields_exchange listening,
        handlePeerConnection_statusRequest, Function.update_eq_self] at yields
      change Yields D memory i (HabiNode.gather (D.peers i) order selfId rest
        (snapshots ++ [⟨nodeId x, (memory x).ledgerSorted.toFinset,
          (memory x).spentSorted.toFinset⟩]) []) after reply at yields
      rw [NodeShared.ledgerSorted_toFinset, NodeShared.spentSorted_toFinset] at yields
      obtain ⟨gathered, settles, genuine, complete⟩ :=
        ih (fun peer member => listed peer (List.mem_cons_of_mem _ member)) yields
      refine ⟨snapshotOf nodeId memory x :: gathered, ?_, ?_, ?_⟩
      · rw [List.append_assoc] at settles
        exact settles
      · intro snap member
        rcases List.mem_cons.mp member with rfl | later
        · exact ⟨x, rfl⟩
        · exact genuine snap later
      · rintro y ⟨peer, member, isPeer, listening'⟩
        rcases List.mem_cons.mp member with rfl | later
        · obtain rfl : x = y := Option.some_inj.mp (listening.symm.trans listening')
          exact List.mem_cons_self
        · exact List.mem_cons_of_mem _ (complete y ⟨peer, later, isPeer, listening'⟩)

omit [DecidableEq ι] in
theorem unanimous_iff (injective : Function.Injective nodeId) {snapshots : List PeerSnapshot}
    (genuine : ∀ snap ∈ snapshots, ∃ x, snap = snapshotOf nodeId memory x)
    (complete : ∀ x, snapshotOf nodeId memory x ∈ snapshots) :
    Unanimous snapshots ↔ ¬ Conflicted Set.univ (jointState nodeId memory) := by
  constructor
  · rintro unanimous ⟨b, x, -, y, -, distinct, spentX, spentY⟩
    exact distinct (injective (unanimous _ (complete x) _ (complete y) b spentX spentY))
  · intro quiet first firstIn second secondIn b firstSpent secondSpent
    obtain ⟨x, rfl⟩ := genuine first firstIn
    obtain ⟨y, rfl⟩ := genuine second secondIn
    by_contra distinct
    refine quiet ⟨b, x, Set.mem_univ x, y, Set.mem_univ y, fun same => distinct ?_, firstSpent,
      secondSpent⟩
    rw [same]

theorem settle_yields (configured : Configured D nodeId) {order : IterationOrder}
    {selfId : String} {snapshots : List PeerSnapshot}
    (genuine : ∀ snap ∈ snapshots, ∃ x, snap = snapshotOf nodeId memory x)
    (complete : ∀ x, snapshotOf nodeId memory x ∈ snapshots)
    (yields : Yields D memory i
      (HabiNode.settle (D.peers i) order selfId snapshots []) after reply) :
    (¬ Conflicted Set.univ (jointState nodeId memory) ∧ reply = .ok ∧
      jointState nodeId after = settled Set.univ (jointState nodeId memory)) ∨
    (Conflicted Set.univ (jointState nodeId memory) ∧ after = memory ∧
      ∃ detail, reply = .error detail) := by
  have quietIff := unanimous_iff configured.distinct genuine complete
  rw [HabiNode.settle, if_neg (not_not.mpr rfl)] at yields
  cases outcome : computeConversionDay snapshots with
  | error conflict =>
      simp only [outcome] at yields
      obtain ⟨unchanged, replied⟩ := yields_done.mp yields
      refine Or.inr ⟨?_, unchanged, _, replied⟩
      by_contra quiet
      have burns : computeConversionDay snapshots =
          .ok (snapshots.toFinset.biUnion PeerSnapshot.spent) :=
        computeConversionDay_eq_ok_iff.mpr ⟨quietIff.mpr quiet, by simp⟩
      rw [outcome] at burns
      cases burns
  | ok burned =>
      simp only [outcome] at yields
      obtain ⟨unanimous, burns⟩ := computeConversionDay_eq_ok_iff.mp outcome
      have isBurned : ∀ b, b ∈ order.visit burned ↔
          b ∈ burnSet Set.univ (jointState nodeId memory) := by
        intro b
        rw [order.mem_visit, burns]
        constructor
        · rintro ⟨snap, member, recorded⟩
          obtain ⟨x, rfl⟩ := genuine snap member
          exact ⟨x, Set.mem_univ x, recorded⟩
        · rintro ⟨x, -, recorded⟩
          exact ⟨_, complete x, recorded⟩
      rw [yields_locked, yields_persist] at yields
      obtain ⟨replied, elsewhere⟩ := removes_of_broadcast configured
        (fun _ => HabiNode.mem_burnNotices) yields
      have here : Removes (fun x => {b | x = i ∧ b ∈ (order.visit burned).toFinset}) memory
          (Function.update memory i
            ((CriticalSection.burn (order.visit burned)).execute (memory i))) := by
        apply removes_update
        exact foldl_applySpentNotify _ _
      have removes : Removes (fun _ => burnSet Set.univ (jointState nodeId memory)) memory
          after := by
        apply (here.trans elsewhere).congr
        intro x b
        by_cases isOwn : x = i <;> simp [isOwn, isBurned]
      refine Or.inl ⟨quietIff.mp unanimous, replied, jointState_eq (fun x => ?_) (fun x => ?_)
        fun x y => ?_⟩
      · rw [removes.ledger]
        simp [settled]
      · rw [removes.spent]
        rfl
      · rw [removes.links]
        rfl

theorem conversionDay_yields (configured : Configured D nodeId)
    (named : ∀ x, (memory x).node.nodeId = nodeId x) {order : IterationOrder}
    (yields : Yields D memory i (HabiNode.conversionDay (D.peers i) order) after reply) :
    (¬ Conflicted Set.univ (jointState nodeId memory) ∧ reply = .ok ∧
      jointState nodeId after = settled Set.univ (jointState nodeId memory)) ∨
    (Conflicted Set.univ (jointState nodeId memory) ∧ after = memory ∧
      ∃ detail, reply = .error detail) := by
  have listed : ∀ peer ∈ (D.peers i).entries,
      ∃ x, peer.1 = nodeId x ∧ D.listener peer.2 = some x :=
    fun _ member => configured.only_entry member
  rw [HabiNode.conversionDay, yields_read, named] at yields
  obtain ⟨gathered, settles, genuine, complete⟩ := yields_gather listed yields
  apply settle_yields configured _ _ settles
  · intro snap member
    rcases List.mem_append.mp member with own | later
    · exact ⟨i, List.mem_singleton.mp own⟩
    · exact genuine snap later
  · intro x
    by_cases isOwn : x = i
    · subst isOwn
      exact List.mem_append_left _ List.mem_cons_self
    · obtain ⟨addr, found, listening⟩ := configured.lookup isOwn
      exact List.mem_append_right _
        (complete x ⟨⟨nodeId x, addr⟩, AList.mem_lookup_iff.mp found, rfl, listening⟩)

theorem status_yields (yields : Yields D memory i HabiNode.status after reply) :
    after = memory ∧ reply = .statusReport (memory i).node.nodeId (memory i).ledgerSorted
      (memory i).spentSorted (memory i).connectedPeers := by
  rw [HabiNode.status, yields_read] at yields
  exact yields_done.mp yields

end HabiCore.Deployment
