import HabiCore.ConversionDayCoordinator
import HabiCore.LockedProcesses
import HabiCore.PeerProtocol
import Mathlib.Data.List.AList

/-!
# The networked node

The handler of the admin commands, as a program over the critical sections of
the node's lock.  Between two sections the node may run other commands and
handle messages of its peers.  The map of peer addresses is never written; its
own lock, which makes broadcasts wait for each other, is left out.  This allows
more interleavings than the code has, and says nothing about progress.
-/

namespace HabiCore

open LockedProcesses

/-- The sections in which a command holds the lock of the shared state. -/
inductive CriticalSection where
  | read
  | localSpend (bearer : String)
  | applyLinkUpReply (reply : PeerMessage)
  | applyPropagateReply (reply : PeerMessage)
  | applyLinkDown (peer : String)
  | burn (bearers : List String)
  | seed (bearer : String)
  deriving DecidableEq

/-- Why an exchange with a peer, or a message to it, fails; the text is that of
the operating system or of the decoder. -/
inductive ExchangeFailure where
  | connect (e : String)
  | send (e : String)
  | read (e : String)
  | closed
  | badReply (e : String)
  deriving DecidableEq

abbrev Handler :=
  Program CriticalSection NodeShared String PeerMessage ExchangeFailure AdminReply

/-- The order in which a loop visits the elements of a hash set. -/
structure IterationOrder where
  visit : Finset String → List String
  nodup : ∀ items, (visit items).Nodup
  mem_visit : ∀ items item, item ∈ visit items ↔ item ∈ items

def IterationOrder.sorted : IterationOrder where
  visit := HabiCore.sorted
  nodup := nodup_sorted
  mem_visit := by simp

/-- Other nodes' ids with their addresses; the entries are in the order in which
the map is iterated. -/
abbrev PeerAddrs := AList fun _ : String => String

namespace CriticalSection

def execute : CriticalSection → NodeShared → NodeShared
  | .read, shared => shared
  | .localSpend bearer, shared => (shared.localSpend bearer).2
  | .applyLinkUpReply reply, shared => (HabiCore.applyLinkUpReply shared reply).2
  | .applyPropagateReply reply, shared => (HabiCore.applyPropagateReply shared reply).2
  | .applyLinkDown peer, shared => shared.applyLinkDown peer
  | .burn bearers, shared => bearers.foldl NodeShared.applySpentNotify shared
  | .seed bearer, shared => shared.setLedger (insert bearer shared.node.ledger)

end CriticalSection

namespace ExchangeFailure

def detail (addr : String) : ExchangeFailure → String
  | .connect e => s!"connect to {addr} failed: {e}"
  | .send e => s!"send to {addr} failed: {e}"
  | .read e => s!"read from {addr} failed: {e}"
  | .closed => s!"peer {addr} closed connection without replying"
  | .badReply e => s!"bad reply from {addr}: {e}"

end ExchangeFailure

namespace HabiNode

/-- Connect to a peer, send one message, read exactly one reply line. -/
def exchangeWithPeer (addr : String) (msg : PeerMessage)
    (next : Except String PeerMessage → Handler) : Handler :=
  .exchange addr msg fun answer => next (answer.mapError (ExchangeFailure.detail addr))

def sendToPeerNoReply (addr : String) (msg : PeerMessage)
    (next : Except String Unit → Handler) : Handler :=
  .send addr msg fun result => next (result.mapError (ExchangeFailure.detail addr))

/-- A best-effort broadcast: failures are reported nowhere but on stderr. -/
def broadcast : List (String × PeerMessage) → Handler
  | [] => .done .ok
  | (addr, notify) :: rest => sendToPeerNoReply addr notify fun _ => broadcast rest

/-- The arm of an exchange for the answer of the peer.  A reply of the expected
kind is applied in a section of its own. -/
def finishExchange (peer : String) (expected : PeerMessage → Bool)
    (body : PeerMessage → CriticalSection)
    (apply : NodeShared → PeerMessage → Except StateError Unit × NodeShared) :
    Except String PeerMessage → Handler
  | .ok reply =>
      bif expected reply then
        .locked (body reply) fun shared =>
          match (apply shared reply).1 with
          | .ok () => .persist (.done .ok)
          | .error e => .done (.error e.detail)
      else .done (.error s!"unexpected reply from {peer}: {reply.debug}")
  | .error e => .done (.error e)

def isLinkUpAck : PeerMessage → Bool
  | .linkUpAck .. => true
  | _ => false

def isPropagateReply : PeerMessage → Bool
  | .propagateReply .. => true
  | _ => false

def finishLinkUp (peer : String) : Except String PeerMessage → Handler :=
  finishExchange peer isLinkUpAck .applyLinkUpReply applyLinkUpReply

def finishPropagate (peer : String) : Except String PeerMessage → Handler :=
  finishExchange peer isPropagateReply .applyPropagateReply applyPropagateReply

/-- The notifications of a spend, for the linked peers whose address is known. -/
def spendNotices (peers : PeerAddrs) (selfId bearer : String) (connected : List String) :
    List (String × PeerMessage) :=
  connected.filterMap fun peerId =>
    (peers.lookup peerId).map fun addr => (addr, .spentNotify selfId bearer)

/-- The notifications of a burn, for every peer and every burned bearer. -/
def burnNotices (peers : PeerAddrs) (selfId : String) (burned : List String) :
    List (String × PeerMessage) :=
  peers.entries.flatMap fun entry =>
    burned.map fun b => (entry.2, .spentNotify selfId b)

/-- Conversion Day after the gathering of the snapshots: quorum check, conflict
check, local burn and broadcast. -/
def settle (peers : PeerAddrs) (order : IterationOrder) (selfId : String)
    (snapshots : List PeerSnapshot) (unreachable : List String) : Handler :=
  if unreachable ≠ [] then
    .done (.error ("ConversionDay deferred: quorum not met, unreachable peers: " ++
      DebugFormat.strings (unreachable.insertionSort (· ≤ ·))))
  else
    match computeConversionDay snapshots with
    | .error conflict => .done (.error conflict.toString)
    | .ok burnSet =>
        let burned := order.visit burnSet
        .locked (.burn burned) fun _ =>
          .persist (broadcast (burnNotices peers selfId burned))

/-- The loop that asks the remaining peers for their snapshots. -/
def gather (peers : PeerAddrs) (order : IterationOrder) (selfId : String) :
    List (Sigma fun _ : String => String) → List PeerSnapshot → List String → Handler
  | [], snapshots, unreachable => settle peers order selfId snapshots unreachable
  | ⟨peerId, addr⟩ :: rest, snapshots, unreachable =>
      exchangeWithPeer addr (.statusRequest selfId) fun
        | .ok (.statusReply _ ledger spent) =>
            gather peers order selfId rest
              (snapshots ++ [⟨peerId, ledger.toFinset, spent.toFinset⟩]) unreachable
        | _ => gather peers order selfId rest snapshots (unreachable ++ [peerId])

def withPeerAddr (peers : PeerAddrs) (peer : String) (next : String → Handler) : Handler :=
  match peers.lookup peer with
  | some addr => next addr
  | none => .done (.error s!"unknown peer {peer}")

def linkUp (peers : PeerAddrs) (peer : String) : Handler :=
  withPeerAddr peers peer fun addr =>
    .locked .read fun shared =>
      exchangeWithPeer addr
        (.linkUpHello shared.node.nodeId shared.ledgerSorted shared.spentSorted)
        (finishLinkUp peer)

def linkDown (peers : PeerAddrs) (peer : String) : Handler :=
  withPeerAddr peers peer fun addr =>
    .locked .read fun shared =>
      sendToPeerNoReply addr (.linkDown shared.node.nodeId) fun
        | .error e => .done (.error e)
        | .ok () => .locked (.applyLinkDown peer) fun _ => .persist (.done .ok)

def propagate (peers : PeerAddrs) (peer : String) : Handler :=
  withPeerAddr peers peer fun addr =>
    .locked .read fun shared =>
      if !shared.isLinked peer then
        .done (.error s!"no link to {peer}, cannot propagate")
      else
        exchangeWithPeer addr (.propagateRequest shared.node.nodeId) (finishPropagate peer)

def finishSpend (peers : PeerAddrs) (bearer : String) (shared : NodeShared) : Handler :=
  match shared.localSpend bearer with
  | (.error e, _) => .done (.error e.detail)
  | (.ok (), shared) =>
      .persist (broadcast
        (spendNotices peers shared.node.nodeId bearer shared.connectedPeers))

def spendAt (peers : PeerAddrs) (bearer : String) : Handler :=
  .locked (.localSpend bearer) (finishSpend peers bearer)

def conversionDay (peers : PeerAddrs) (order : IterationOrder) : Handler :=
  .locked .read fun shared =>
    let selfId := shared.node.nodeId
    gather peers order selfId peers.entries
      [⟨selfId, shared.node.ledger, shared.node.spent⟩] []

def status : Handler :=
  .locked .read fun shared =>
    .done (.statusReport shared.node.nodeId shared.ledgerSorted shared.spentSorted
      shared.connectedPeers)

/-- Test and bootstrap only: no provenance check and no broadcast. -/
def seed (bearer : String) : Handler :=
  .locked (.seed bearer) fun _ => .persist (.done .ok)

def handleAdminCommand (peers : PeerAddrs) (order : IterationOrder) : AdminMessage → Handler
  | .linkUp peer => linkUp peers peer
  | .linkDown peer => linkDown peers peer
  | .propagate peer => propagate peers peer
  | .spendAt bearer => spendAt peers bearer
  | .conversionDay => conversionDay peers order
  | .status => status
  | .seed bearer => seed bearer

/-- The state `main` starts from, given what the state file holds; links are
not saved. -/
def restoreState (nodeId : String) : Option Node → NodeShared
  | some node => ⟨node, ∅⟩
  | none => NodeShared.new nodeId

variable {peers : PeerAddrs} {peer addr selfId bearer : String} {next : String → Handler}
  {notice : String × PeerMessage}

theorem withPeerAddr_known (found : peers.lookup peer = some addr) :
    withPeerAddr peers peer next = next addr := by
  simp [withPeerAddr, found]

theorem withPeerAddr_unknown (missing : peers.lookup peer = none) :
    withPeerAddr peers peer next = .done (.error s!"unknown peer {peer}") := by
  simp [withPeerAddr, missing]

theorem mem_spendNotices {connected : List String} :
    notice ∈ spendNotices peers selfId bearer connected ↔
      ∃ peerId addr b, peers.lookup peerId = some addr ∧ (peerId ∈ connected ∧ b = bearer) ∧
        notice = (addr, .spentNotify selfId b) := by
  simp only [spendNotices, List.mem_filterMap, Option.map_eq_some_iff]
  constructor
  · rintro ⟨peerId, isConnected, addr, found, rfl⟩
    exact ⟨peerId, addr, bearer, found, ⟨isConnected, rfl⟩, rfl⟩
  · rintro ⟨peerId, addr, b, found, ⟨isConnected, rfl⟩, rfl⟩
    exact ⟨peerId, isConnected, addr, found, rfl⟩

theorem mem_burnNotices {burned : List String} :
    notice ∈ burnNotices peers selfId burned ↔
      ∃ peerId addr b, peers.lookup peerId = some addr ∧ b ∈ burned ∧
        notice = (addr, .spentNotify selfId b) := by
  simp only [burnNotices, List.mem_flatMap, List.mem_map]
  constructor
  · rintro ⟨⟨peerId, addr⟩, listed, b, isBurned, rfl⟩
    exact ⟨peerId, addr, b, AList.mem_lookup_iff.mpr listed, isBurned, rfl⟩
  · rintro ⟨peerId, addr, b, found, isBurned, rfl⟩
    exact ⟨⟨peerId, addr⟩, AList.mem_lookup_iff.mp found, b, isBurned, rfl⟩

end HabiNode

end HabiCore
