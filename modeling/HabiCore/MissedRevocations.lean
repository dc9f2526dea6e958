import HabiCore.Deployment
import HabiCore.PairwiseSync

/-!
# Revocations that were missed

A node that is not reached by the revocation of a spend keeps the bearer.  The
spent set of the spender is part of what a merge consults, but it is not part of
what is propagated: propagation only adds to the receiver's ledger.
-/

namespace HabiCore

open LabelledRuns

namespace PerLinkSymmetric

variable {Node Bearer : Type*} [DecidableEq Node] {Nodes : Set Node} {s : State Node Bearer}
  {b : Bearer}

theorem primed_linkUp_heals {n : Node} (m : Node) (isSpent : b ∈ s.spent n) :
    b ∉ (primed Nodes s (.linkUp n m)).ledgers m := by
  simp only [primed, Function.update_self, merged]
  exact fun kept => kept.2 (Or.inl isSpent)

theorem primed_propagate_keeps {a : Node} (src dst : Node) (isHeld : b ∈ s.ledgers a) :
    b ∈ (primed Nodes s (.propagate src dst)).ledgers a := by
  simp only [primed, Function.update_apply]
  split
  · rename_i isDst
    exact Or.inl (isDst ▸ isHeld)
  · exact isHeld

end PerLinkSymmetric

/-- The exchanges in which a node learns from another one. -/
inductive Exchange where
  | linkUp
  | propagate
  deriving DecidableEq

namespace Exchange

def action (src dst : String) : Exchange → PerLinkSymmetric.Action String String
  | linkUp => .linkUp src dst
  | propagate => .propagate src dst

def applyReply (shared : NodeShared) (reply : PeerMessage) :
    Exchange → Except StateError Unit × NodeShared
  | linkUp => applyLinkUpReply shared reply
  | propagate => applyPropagateReply shared reply

end Exchange

namespace Network

open PerLinkSymmetric

variable {nodeIds : List String} {initial net net' : Network} {s d b : String}

theorem healed_iff_of_reaches (isInitial : IsInitial nodeIds initial)
    (reaches : Reaches CallStep anyCall initial net) (isSpent : b ∈ net.spentOf s)
    (isStale : b ∈ net.ledgerOf d) {exchange : Exchange}
    (succeeded : net.apply (exchange.action s d) = some (.ok (), net')) :
    b ∉ net'.ledgerOf d ↔ exchange = .linkUp := by
  have consistent := isInitial.consistent.reaches reaches
  obtain ⟨-, -, viewEq⟩ := next_of_apply_ok consistent succeeded
  have held : b ∈ net'.ledgerOf d ↔ b ∈ net'.view.ledgers d := Iff.rfl
  rw [held, viewEq]
  cases exchange with
  | linkUp => exact iff_of_true (primed_linkUp_heals d isSpent) rfl
  | propagate =>
      exact iff_of_false (fun gone => gone (primed_propagate_keeps s d isStale)) (by decide)

end Network

variable {self self' peer : NodeShared} {request reply : PeerMessage} {b : String}

theorem mem_spent_of_linkUpAck {sender : String} {ledger spent : List String}
    (replied : (handlePeerConnection peer request).1 = some (.linkUpAck sender ledger spent))
    (isSpent : b ∈ peer.node.spent) : b ∈ spent := by
  cases request with
  | linkUpHello =>
      simp only [handlePeerConnection_linkUpHello, Option.some_inj, PeerMessage.linkUpAck.injEq]
        at replied
      obtain ⟨-, -, rfl⟩ := replied
      rwa [← List.mem_toFinset, NodeShared.spentSorted_toFinset]
  | propagateRequest =>
      rw [handlePeerConnection_propagateRequest] at replied
      dsimp only at replied
      split at replied <;> simp at replied
  | linkDown => simp at replied
  | spentNotify => simp at replied
  | statusRequest => simp at replied
  | linkUpAck => simp at replied
  | propagateReply => simp at replied
  | statusReply => simp at replied

theorem healed_iff_of_replied (isSpent : b ∈ peer.node.spent) (isStale : b ∈ self.node.ledger)
    (replied : (handlePeerConnection peer request).1 = some reply) {exchange : Exchange}
    (applied : exchange.applyReply self reply = (.ok (), self')) :
    b ∉ self'.node.ledger ↔ exchange = .linkUp := by
  cases exchange with
  | linkUp =>
      cases reply with
      | linkUpAck sender ledger spent =>
          obtain rfl := (Prod.mk.inj applied).2
          have known := mem_spent_of_linkUpAck replied isSpent
          simp [NodeShared.computeLinkUpMerge, known]
      | _ => cases (Prod.mk.inj applied).1
  | propagate =>
      cases reply with
      | propagateReply sender bearers =>
          obtain rfl := (Prod.mk.inj applied).2
          simp [isStale]
      | _ => cases (Prod.mk.inj applied).1

/-- Of the two exchanges with the spender, the merge removes a bearer whose
revocation was missed, and the propagation does not. -/
theorem missed_revocation_healed_iff (b : String) :
    (∀ nodeIds initial net, Network.IsInitial nodeIds initial →
      Reaches Network.CallStep Network.anyCall initial net →
      ∀ s d, b ∈ net.spentOf s → b ∈ net.ledgerOf d →
      ∀ (exchange : Exchange) net', net.apply (exchange.action s d) = some (.ok (), net') →
        (b ∉ net'.ledgerOf d ↔ exchange = .linkUp)) ∧
    ∀ peer self : NodeShared, b ∈ peer.node.spent → b ∈ self.node.ledger →
      ∀ request reply, (handlePeerConnection peer request).1 = some reply →
      ∀ (exchange : Exchange) self', exchange.applyReply self reply = (.ok (), self') →
        (b ∉ self'.node.ledger ↔ exchange = .linkUp) :=
  ⟨fun _ _ _ isInitial reaches _ _ isSpent isStale _ _ =>
      Network.healed_iff_of_reaches isInitial reaches isSpent isStale,
    fun _ _ isSpent isStale _ _ replied _ _ => healed_iff_of_replied isSpent isStale replied⟩

namespace Network

def sharedInitNetwork : Network :=
  let net := new ["N1", "N2", "N3"]
  { net with
    nodes := (net.nodes.insert "N1" { Node.new "N1" with ledger := {"b1", "b2"} }).insert
      "N2" { Node.new "N2" with ledger := {"b1"} } }

theorem sharedInitNetwork_isInitial : IsInitial ["N1", "N2", "N3"] sharedInitNetwork :=
  ((new_isInitial _).insert (by simp) {"b1", "b2"}).insert (by simp) {"b1"}

/-- `N1` spends a bearer that `N2` then relays to `N3`, a neighbour of `N1`. -/
def relayedSpend : List (PerLinkSymmetric.Action String String) :=
  [.linkDown "N1" "N2", .spendAt "N1" "b1", .propagate "N2" "N3"]

theorem stale_after_propagate :
    IsInitial ["N1", "N2", "N3"] sharedInitNetwork ∧
    ∃ net net', Reaches CallStep anyCall sharedInitNetwork net ∧
      "b1" ∈ net.spentOf "N1" ∧ "b1" ∈ net.ledgerOf "N3" ∧
      net.apply (.propagate "N1" "N3") = some (.ok (), net') ∧ "b1" ∈ net'.ledgerOf "N3" := by
  have outcome : ((sharedInitNetwork.performAll relayedSpend).bind fun net =>
      (net.performAll [.propagate "N1" "N3"]).map fun net' =>
        (net.spentOf "N1", net.ledgerOf "N3", net'.ledgerOf "N3")) =
      some ({"b1"}, {"b1"}, {"b1", "b2"}) := by decide
  obtain ⟨net, performed, continued⟩ := Option.bind_eq_some_iff.mp outcome
  obtain ⟨net', propagated, facts⟩ := Option.map_eq_some_iff.mp continued
  simp only [Prod.mk.injEq] at facts
  obtain ⟨isSpent, isStale, isKept⟩ := facts
  refine ⟨sharedInitNetwork_isInitial, net, net', reaches_of_performAll performed, ?_, ?_,
    apply_of_performAll propagated, ?_⟩
  · rw [isSpent]; decide
  · rw [isStale]; decide
  · rw [isKept]; decide

theorem missed_revocation_healed_iff_merged :
    ∃ net net', Reaches CallStep anyCall sharedInitNetwork net ∧
      "b1" ∈ net.spentOf "N1" ∧ "b1" ∈ net.ledgerOf "N2" ∧
      net.apply (.linkUp "N1" "N2") = some (.ok (), net') ∧ "b1" ∉ net'.ledgerOf "N2" := by
  have outcome : ((sharedInitNetwork.performAll relayedSpend).bind fun net =>
      (net.performAll [.linkUp "N1" "N2"]).map fun _ => (net.spentOf "N1", net.ledgerOf "N2")) =
      some ({"b1"}, {"b1"}) := by decide
  obtain ⟨net, performed, continued⟩ := Option.bind_eq_some_iff.mp outcome
  obtain ⟨net', merged, facts⟩ := Option.map_eq_some_iff.mp continued
  obtain ⟨spentEq, ledgerEq⟩ := Prod.mk.inj facts
  have isSpent : "b1" ∈ net.spentOf "N1" := by rw [spentEq]; decide
  have isStale : "b1" ∈ net.ledgerOf "N2" := by rw [ledgerEq]; decide
  have called := apply_of_performAll merged
  have reaches := reaches_of_performAll performed
  exact ⟨net, net', reaches, isSpent, isStale, called,
    ((missed_revocation_healed_iff "b1").1 _ _ _ sharedInitNetwork_isInitial reaches _ _
      isSpent isStale .linkUp _ called).mpr rfl⟩

end Network

end HabiCore
