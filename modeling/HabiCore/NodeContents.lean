import HabiCore.LinkSymmetry
import Mathlib.Order.CompletePartialOrder

/-!
# What nodes and messages contain

A condition on node ids, on bearers in ledgers and on bearers in spent sets is
kept by all nodes, by what they write to each other and by what their commands
still have to do, as long as only bearers that meet it are seeded.
-/

namespace HabiCore

open LockedProcesses

/-- A condition on what nodes contain.  A bearer that is held may be spent. -/
structure Contents where
  nodeId : String → Prop
  held : String → Prop
  spent : String → Prop
  spent_of_held : ∀ b, held b → spent b

namespace Contents

variable (c : Contents)

def InNode (node : Node) : Prop :=
  c.nodeId node.nodeId ∧ (∀ b ∈ node.ledger, c.held b) ∧ ∀ b ∈ node.spent, c.spent b

def InMessage : PeerMessage → Prop
  | .linkUpHello sender ledger spent | .linkUpAck sender ledger spent
  | .statusReply sender ledger spent =>
      c.nodeId sender ∧ (∀ b ∈ ledger, c.held b) ∧ ∀ b ∈ spent, c.spent b
  | .propagateReply sender bearers => c.nodeId sender ∧ ∀ b ∈ bearers, c.held b
  | .spentNotify sender bearer => c.nodeId sender ∧ c.spent bearer
  | .linkDown sender | .propagateRequest sender | .statusRequest sender => c.nodeId sender

/-- Live links are to such nodes. -/
def InLinks (shared : NodeShared) : Prop :=
  ∀ peer, shared.isLinked peer = true → c.nodeId peer

def InReply : AdminReply → Prop
  | .ok | .error _ => True
  | .statusReport nodeId ledger spent links =>
      c.nodeId nodeId ∧ (∀ b ∈ ledger, c.held b) ∧ (∀ b ∈ spent, c.spent b) ∧
        ∀ peer ∈ links, c.nodeId peer

def InSection : CriticalSection → Prop
  | .applyLinkUpReply reply | .applyPropagateReply reply => c.InMessage reply
  | .seed bearer => c.held bearer
  | .read | .localSpend _ | .applyLinkDown _ | .burn _ => True

def Seeds (command : Command) : Prop :=
  ∀ bearer, command.message = .seed bearer → c.held bearer

/-- The contract that nothing else is written or brought in.  It may also cover
the links and what is reported of them. -/
def contract (reports : Prop) (ι : Type) : Deployment.NodeContract Unit ι where
  memory _ _ found := c.InNode found.node ∧ (reports → c.InLinks found)
  message _ := c.InMessage
  request _ _ _ := c.InMessage
  answer _ _ := c.InMessage
  body _ _ _ := c.InSection
  learned _ _ _ _ := True
  owed _ _ _ _ _ := False
  reply _ _ _ reply := reports → c.InReply reply
  memory_mono _ := id
  message_mono _ := id
  request_mono _ := id
  body_mono _ := id
  reply_mono _ := id

variable {c} {found : NodeShared} {reports : Prop}

theorem inNode_new {id : String} (named : c.nodeId id) : c.InNode (NodeShared.new id).node := by
  simpa [InNode, NodeShared.new, Node.new] using named

theorem held_of_brings {body : CriticalSection} (allowed : c.InSection body) {b : String}
    (isBrought : b ∈ body.brings found) : c.held b := by
  cases body with
  | applyLinkUpReply reply =>
      cases reply with
      | linkUpAck sender ledger spent =>
          exact allowed.2.1 b (List.mem_toFinset.mp (Finset.mem_sdiff.mp isBrought).1)
      | _ => simp [CriticalSection.brings] at isBrought
  | applyPropagateReply reply =>
      cases reply with
      | propagateReply sender bearers =>
          exact allowed.2 b (List.mem_toFinset.mp (Finset.mem_sdiff.mp isBrought).1)
      | _ => simp [CriticalSection.brings] at isBrought
  | seed bearer =>
      obtain rfl := Finset.mem_singleton.mp isBrought
      exact allowed
  | read | localSpend | applyLinkDown | burn => simp [CriticalSection.brings] at isBrought

theorem InNode.execute {body : CriticalSection} (contains : c.InNode found.node)
    (allowed : c.InSection body) : c.InNode (body.execute found).node := by
  refine ⟨by rw [execute_nodeId]; exact contains.1, fun b isHeld => ?_, fun b isSpent => ?_⟩
  · rcases mem_ledger_of_execute isHeld with old | isBrought
    · exact contains.2.1 b old
    · exact held_of_brings allowed isBrought
  · rcases mem_execute_spent.mp isSpent with old | ⟨-, wasHeld⟩
    · exact contains.2.2 b old
    · exact c.spent_of_held b (contains.2.1 b wasHeld)

theorem InNode.respond {msg : PeerMessage} (contains : c.InNode found.node)
    (allowed : c.InMessage msg) : c.InNode (handlePeerConnection found msg).2.node := by
  refine ⟨by rw [respond_nodeId]; exact contains.1, fun b isHeld => ?_, ?_⟩
  · rcases mem_ledger_of_respond isHeld with old | isBrought
    · exact contains.2.1 b old
    · cases msg with
      | linkUpHello sender ledger spent =>
          exact allowed.2.1 b (List.mem_toFinset.mp (Finset.mem_sdiff.mp isBrought).1)
      | _ => simp [PeerMessage.brings] at isBrought
  · rw [respond_spent]
    exact contains.2.2

theorem InNode.ledgerSorted (contains : c.InNode found.node) :
    ∀ b ∈ found.ledgerSorted, c.held b := by
  simpa [NodeShared.ledgerSorted] using contains.2.1

theorem InNode.spentSorted (contains : c.InNode found.node) :
    ∀ b ∈ found.spentSorted, c.spent b := by
  simpa [NodeShared.spentSorted] using contains.2.2

theorem InNode.answer {msg reply : PeerMessage} (contains : c.InNode found.node)
    (replied : (handlePeerConnection found msg).1 = some reply) : c.InMessage reply := by
  cases msg with
  | linkUpHello | statusRequest =>
      obtain rfl := Option.some_inj.mp replied
      exact ⟨contains.1, contains.ledgerSorted, contains.spentSorted⟩
  | propagateRequest sender =>
      rw [handlePeerConnection_propagateRequest] at replied
      split at replied
      · obtain rfl := Option.some_inj.mp replied
        exact ⟨contains.1, contains.ledgerSorted⟩
      · simp at replied
  | _ => simp at replied

theorem InLinks.execute {body : CriticalSection} (live : c.InLinks found)
    (allowed : c.InSection body) : c.InLinks (body.execute found) := by
  intro peer linked
  rcases execute_isLinked body found peer with ⟨up, writes, -⟩ | ⟨-, same⟩
  · cases body with
    | applyLinkUpReply reply =>
        cases reply with
        | linkUpAck sender ledger spent =>
            obtain ⟨rfl, -⟩ : sender = peer ∧ true = up := by
              simpa [CriticalSection.linkWrite] using writes
            exact allowed.1
        | _ => simp [CriticalSection.linkWrite] at writes
    | applyLinkDown other =>
        obtain ⟨rfl, -⟩ : other = peer ∧ false = up := by
          simpa [CriticalSection.linkWrite] using writes
        simp [CriticalSection.execute] at linked
    | _ => simp [CriticalSection.linkWrite] at writes
  · exact live peer (same ▸ linked)

theorem InLinks.respond {msg : PeerMessage} (live : c.InLinks found)
    (allowed : c.InMessage msg) : c.InLinks (handlePeerConnection found msg).2 := by
  intro peer linked
  rcases respond_isLinked found msg peer with ⟨up, writes, -⟩ | ⟨-, same⟩
  · cases msg with
    | linkUpHello sender ledger spent =>
        obtain ⟨rfl, -⟩ : sender = peer ∧ true = up := by
          simpa [PeerMessage.linkWrite] using writes
        exact allowed.1
    | linkDown sender =>
        obtain ⟨rfl, -⟩ : sender = peer ∧ false = up := by
          simpa [PeerMessage.linkWrite] using writes
        exact allowed
    | _ => simp [PeerMessage.linkWrite] at writes
  · exact live peer (same ▸ linked)

section Handlers

open Deployment

variable {ι : Type} {i : ι} {k : Unit} {command : Command} {peers : PeerAddrs}
  {order : IterationOrder} {selfId : String}

theorem honours_locked {body : CriticalSection} {next : NodeShared → Handler}
    (allowed : c.InSection body)
    (honours : ∀ found, c.InNode found.node → (reports → c.InLinks found) →
      (c.contract reports ι).Honours i command (next found) k) :
    (c.contract reports ι).Honours i command (.locked body next) k :=
  ⟨allowed, fun found _ _ admits _ => ⟨honours found admits.1 admits.2, fun _ _ owed => owed.elim⟩⟩

theorem honours_settle {snapshots : List PeerSnapshot} {unreachable : List String}
    (named : c.nodeId selfId) (reported : ∀ snap ∈ snapshots, ∀ b ∈ snap.spent, c.spent b) :
    (c.contract reports ι).Honours i command
      (HabiNode.settle peers order selfId snapshots unreachable) k := by
  unfold HabiNode.settle
  split
  · exact fun _ => trivial
  · cases outcome : computeConversionDay snapshots with
    | error conflict => exact fun _ => trivial
    | ok burnSet =>
        refine honours_locked trivial fun _ _ _ => honours_broadcast _ ?_ fun _ => trivial
        intro notice member
        obtain ⟨_, _, b, -, isBurned, rfl⟩ := HabiNode.mem_burnNotices.mp member
        obtain ⟨snap, snapIn, recorded⟩ :=
          ((computeConversionDay_eq_ok_iff.mp outcome).2 b).mp ((order.mem_visit _ _).mp isBurned)
        exact ⟨named, reported snap snapIn b recorded⟩

theorem honours_gather (remaining : List (Sigma fun _ : String => String))
    {snapshots : List PeerSnapshot} {unreachable : List String} (named : c.nodeId selfId)
    (reported : ∀ snap ∈ snapshots, ∀ b ∈ snap.spent, c.spent b) :
    (c.contract reports ι).Honours i command
      (HabiNode.gather peers order selfId remaining snapshots unreachable) k := by
  induction remaining generalizing snapshots unreachable with
  | nil => exact honours_settle named reported
  | cons entry rest ih =>
      refine ⟨named, fun _ _ => ⟨fun reply answer => ?_, fun failure => ih reported⟩⟩
      cases reply with
      | statusReply sender ledger spent =>
          refine ih fun snap snapIn b recorded => ?_
          rcases List.mem_append.mp snapIn with old | new
          · exact reported snap old b recorded
          · obtain rfl := List.mem_singleton.mp new
            exact answer.2.2 b (List.mem_toFinset.mp recorded)
      | _ => exact ih reported

theorem honours_finishExchange {peer : String} {reply : PeerMessage}
    {expected : PeerMessage → Bool} {body : PeerMessage → CriticalSection}
    {apply : NodeShared → PeerMessage → Except StateError Unit × NodeShared}
    (allowed : c.InSection (body reply)) :
    (c.contract reports ι).Honours i command
      (HabiNode.finishExchange peer expected body apply (.ok reply)) k := by
  simp only [HabiNode.finishExchange]
  cases expected reply with
  | true =>
      refine honours_locked allowed fun shared _ _ => ?_
      split <;> exact fun _ => trivial
  | false => exact fun _ => trivial

theorem honours_linkUp (peer : String) :
    (c.contract reports ι).Honours i command (HabiNode.linkUp peers peer) k := by
  refine honours_withPeerAddr (fun addr => honours_locked trivial fun shared contains _ =>
    ⟨⟨contains.1, contains.ledgerSorted, contains.spentSorted⟩, fun _ _ => ⟨?_, ?_⟩⟩)
    fun _ _ => trivial
  · exact fun reply answer => honours_finishExchange answer
  · exact fun failure _ => trivial

theorem honours_linkDown (peer : String) :
    (c.contract reports ι).Honours i command (HabiNode.linkDown peers peer) k := by
  refine honours_withPeerAddr (fun addr => honours_locked trivial fun shared contains _ =>
    ⟨contains.1, fun result => ?_⟩) fun _ _ => trivial
  cases result with
  | error failure => exact fun _ => trivial
  | ok done => exact honours_locked trivial fun _ _ _ _ => trivial

theorem honours_propagate (peer : String) :
    (c.contract reports ι).Honours i command (HabiNode.propagate peers peer) k := by
  refine honours_withPeerAddr (fun addr => honours_locked trivial fun shared contains _ => ?_)
    fun _ _ => trivial
  split
  · exact fun _ => trivial
  · exact ⟨contains.1, fun _ _ =>
      ⟨fun reply answer => honours_finishExchange answer, fun failure _ => trivial⟩⟩

theorem honours_spendAt (bearer : String) :
    (c.contract reports ι).Honours i command (HabiNode.spendAt peers bearer) k := by
  refine honours_locked trivial fun shared contains _ => ?_
  rcases shared.localSpend_cases bearer with ⟨isHeld, outcome⟩ | ⟨-, outcome⟩
  · simp only [HabiNode.finishSpend, outcome]
    refine honours_broadcast _ (fun notice member => ?_) fun _ => trivial
    obtain ⟨_, _, _, -, ⟨-, rfl⟩, rfl⟩ := HabiNode.mem_spendNotices.mp member
    exact ⟨contains.1, c.spent_of_held _ (contains.2.1 _ isHeld)⟩
  · simp only [HabiNode.finishSpend, outcome]
    exact fun _ => trivial

theorem honours_handleAdminCommand {message : AdminMessage}
    (seeds : ∀ bearer, message = .seed bearer → c.held bearer) :
    (c.contract reports ι).Honours i command
      (HabiNode.handleAdminCommand peers order message) k := by
  cases message with
  | linkUp peer => exact honours_linkUp peer
  | linkDown peer => exact honours_linkDown peer
  | propagate peer => exact honours_propagate peer
  | spendAt bearer => exact honours_spendAt bearer
  | conversionDay =>
      refine honours_locked trivial fun shared contains _ => honours_gather _ contains.1 ?_
      intro snap snapIn b recorded
      obtain rfl := List.mem_singleton.mp snapIn
      exact contains.2.2 b recorded
  | status =>
      refine honours_locked trivial fun shared contains live reporting =>
        ⟨contains.1, contains.ledgerSorted, contains.spentSorted, fun peer connected => ?_⟩
      exact live reporting peer (NodeShared.mem_connectedPeers.mp connected)
  | seed bearer => exact honours_locked (seeds bearer rfl) fun _ _ _ _ => trivial

theorem kept [DecidableEq ι] (c : Contents) (reports : Prop) (D : Deployment ι) :
    (c.contract reports ι).Kept D.system (fun _ => ()) c.Seeds where
  handler _ _ _ seeds := honours_handleAdminCommand seeds
  execute _ i _ _ contains allowed := ⟨le_rfl, ⟨(contains i).1.execute allowed,
    fun reporting => ((contains i).2 reporting).execute allowed⟩, trivial⟩
  respond _ i _ contains allowed := by
    have message := allowed.elim id fun ⟨_, _, requested⟩ => requested
    exact ⟨le_rfl, ⟨(contains i).1.respond message,
      fun reporting => ((contains i).2 reporting).respond message⟩,
      fun _ replied => (contains i).1.answer replied⟩

end Handlers

end Contents

end HabiCore
