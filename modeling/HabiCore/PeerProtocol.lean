import HabiCore.SharedState
import HabiCore.Wire

/-!
# The peer protocol

What a node does with a message that arrives on its peer listener, and with
the reply to a message it has sent.  Each function holds the node's lock from
its first access to the shared state to its end.
-/

namespace HabiCore

/-- Handles a message someone else initiated; the result is the reply to write
back, if the protocol calls for one. -/
def handleIncomingPeerMessage (shared : NodeShared) :
    PeerMessage → Except StateError (Option PeerMessage) × NodeShared
  | .linkUpHello sender ledger spent =>
      let peerLedger := ledger.toFinset
      let peerSpent := spent.toFinset
      let ownLedger := shared.ledgerSorted
      let ownSpent := shared.spentSorted
      let merged := shared.computeLinkUpMerge peerLedger peerSpent
      (.ok (some (.linkUpAck shared.node.nodeId ownLedger ownSpent)),
        shared.applyLinkUp sender merged)
  | .linkDown sender => (.ok none, shared.applyLinkDown sender)
  | .propagateRequest sender =>
      if !shared.isLinked sender then
        (.error ⟨s!"no link to {sender}, cannot propagate"⟩, shared)
      else
        (.ok (some (.propagateReply shared.node.nodeId shared.ledgerSorted)), shared)
  | .spentNotify _ bearer => (.ok none, shared.applySpentNotify bearer)
  | .statusRequest _ =>
      (.ok (some (.statusReply shared.node.nodeId shared.ledgerSorted shared.spentSorted)),
        shared)
  | .linkUpAck .. | .propagateReply .. | .statusReply .. =>
      (.error ⟨"LinkUpAck/PropagateReply/StatusReply must only arrive as a " ++
        "direct reply on a connection we initiated, not as an " ++
        "unsolicited incoming message"⟩, shared)

def applyLinkUpReply (shared : NodeShared) : PeerMessage → Except StateError Unit × NodeShared
  | .linkUpAck sender ledger spent =>
      let peerLedger := ledger.toFinset
      let peerSpent := spent.toFinset
      let merged := shared.computeLinkUpMerge peerLedger peerSpent
      (.ok (), shared.applyLinkUp sender merged)
  | other => (.error ⟨s!"expected LinkUpAck, got {other.debug}"⟩, shared)

/-- Applies the reply to a `PropagateRequest` we sent, filtered against our own
spent set and ledger. -/
def applyPropagateReply (shared : NodeShared) :
    PeerMessage → Except StateError Unit × NodeShared
  | .propagateReply _ bearers =>
      let peerLedger := bearers.toFinset
      let deliverable := shared.computePropagateDeliverable peerLedger
      (.ok (), shared.applyPropagateDeliverable deliverable)
  | other => (.error ⟨s!"expected PropagateReply, got {other.debug}"⟩, shared)

end HabiCore
