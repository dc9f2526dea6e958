import HabiCore.LinkWrites
import HabiCore.ThreadConduct

/-!
# The conduct of the admin handlers

What the handlers of all commands have in common: a change of the ledger or the
spent set is followed at once by a write of the state file, a burn is announced
to all peers, and the two ends of a link are written together, the own end as soon
as the peer has acknowledged a Hello or a `LinkDown` has been sent to it.
-/

namespace HabiCore

open LockedProcesses

/-- A section that changes the node's data is followed by `persist`. -/
def SavesChange (body : CriticalSection) (found : NodeShared) (rest : Handler) : Prop :=
  (∃ later, rest = .persist later) ∨ (body.execute found).node = found.node

/-- A burn is followed by `persist` and by the notifications of all peers. -/
def AnnouncesBurn (peers : PeerAddrs) (self : String) (body : CriticalSection)
    (rest : Handler) : Prop :=
  ∀ burned, body = .burn burned →
    rest = .persist (HabiNode.broadcast (HabiNode.burnNotices peers self burned))

/-- The link flag that the program writes first of all. -/
def linkDue : Handler → Option (String × Bool)
  | .locked body _ => body.linkWrite
  | _ => none

/-- A Hello carries the node's own id, and its thread brings up the own end of the
link as soon as it has the Ack. -/
def AsksToLink (self : String) (msg : PeerMessage)
    (next : Except ExchangeFailure PeerMessage → Handler) : Prop :=
  match msg with
  | .linkUpHello sender _ _ => sender = self ∧ ∀ peer ledger spent,
      linkDue (next (.ok (.linkUpAck peer ledger spent))) = some (peer, true)
  | .linkDown _ => False
  | _ => ∀ answer, linkDue (next answer) = none

/-- A `LinkDown` carries the node's own id, and its thread then takes down the own
end of the link to the peer it was sent to. -/
def TakesLinkDown (peers : PeerAddrs) (self : String) (addr : String) (msg : PeerMessage)
    (next : Except ExchangeFailure Unit → Handler) : Prop :=
  match msg with
  | .linkDown sender => sender = self ∧ ∃ peer, peers.lookup peer = some addr ∧
      linkDue (next (.ok ())) = some (peer, false)
  | .linkUpHello .. => False
  | _ => linkDue (next (.ok ())) = none

def nodeConduct (peers : PeerAddrs) (self : String) :
    Conduct CriticalSection NodeShared String PeerMessage ExchangeFailure AdminReply where
  admits found := found.node.nodeId = self
  afterSection body found rest :=
    SavesChange body found rest ∧ AnnouncesBurn peers self body rest ∧ linkDue rest = none
  afterSave rest := linkDue rest = none
  onRequest := AsksToLink self
  onSend := TakesLinkDown peers self

variable {peers : PeerAddrs} {self : String}

theorem broadcast_linkDue (notices : List (String × PeerMessage)) :
    linkDue (HabiNode.broadcast notices) = none := by
  cases notices <;> rfl

theorem finishPropagate_linkDue (peer : String) (answer : Except String PeerMessage) :
    linkDue (HabiNode.finishPropagate peer answer) = none := by
  cases answer with
  | error e => rfl
  | ok reply => cases reply <;> rfl

theorem gather_linkDue (order : IterationOrder) (rest : List (Sigma fun _ : String => String))
    (snapshots : List PeerSnapshot) (unreachable : List String) :
    linkDue (HabiNode.gather peers order self rest snapshots unreachable) = none := by
  cases rest with
  | nil =>
      unfold HabiNode.gather HabiNode.settle
      split
      · rfl
      · split <;> rfl
  | cons peer rest => rfl

theorem handleAdminCommand_linkDue (order : IterationOrder) (message : AdminMessage) :
    linkDue (HabiNode.handleAdminCommand peers order message) = none := by
  cases message with
  | linkUp peer | linkDown peer | propagate peer =>
      simp only [HabiNode.handleAdminCommand, HabiNode.linkUp, HabiNode.linkDown,
        HabiNode.propagate, HabiNode.withPeerAddr]
      split <;> rfl
  | spendAt | conversionDay | status | seed => rfl

theorem broadcast_keeps (notices : List (String × PeerMessage))
    (isNotice : ∀ notice ∈ notices, ∃ sender bearer, notice.2 = .spentNotify sender bearer) :
    (HabiNode.broadcast notices).Keeps (nodeConduct peers self) := by
  induction notices with
  | nil => trivial
  | cons notice rest ih =>
      obtain ⟨addr, msg⟩ := notice
      obtain ⟨sender, bearer, rfl⟩ := isNotice _ List.mem_cons_self
      exact ⟨broadcast_linkDue rest,
        fun _ => ih fun other member => isNotice other (List.mem_cons_of_mem _ member)⟩

theorem read_keeps {next : NodeShared → Handler}
    (keeps : ∀ found, found.node.nodeId = self →
      linkDue (next found) = none ∧ (next found).Keeps (nodeConduct peers self)) :
    (Program.locked .read next).Keeps (nodeConduct peers self) :=
  fun found named =>
    ⟨⟨Or.inr rfl, by simp [AnnouncesBurn], (keeps found named).1⟩, (keeps found named).2⟩

theorem saved_keeps {body : CriticalSection} (noBurn : ∀ burned, body ≠ .burn burned)
    (reply : AdminReply) :
    (Program.locked body fun _ => .persist (.done reply) : Handler).Keeps
      (nodeConduct peers self) :=
  fun _ _ => ⟨⟨Or.inl ⟨_, rfl⟩, fun burned isBurn => (noBurn burned isBurn).elim, rfl⟩,
    rfl, trivial⟩

theorem withPeerAddr_keeps {peer : String} {next : String → Handler}
    (keeps : ∀ addr, peers.lookup peer = some addr →
      (next addr).Keeps (nodeConduct peers self)) :
    (HabiNode.withPeerAddr peers peer next).Keeps (nodeConduct peers self) := by
  unfold HabiNode.withPeerAddr
  split
  · exact keeps _ ‹_›
  · trivial

theorem finishExchange_keeps {expected : PeerMessage → Bool} {body : PeerMessage → CriticalSection}
    {apply : NodeShared → PeerMessage → Except StateError Unit × NodeShared}
    (noBurn : ∀ reply burned, body reply ≠ .burn burned)
    (succeeds : ∀ reply, expected reply = true → ∀ shared, (apply shared reply).1 = .ok ())
    (peer : String) (answer : Except String PeerMessage) :
    (HabiNode.finishExchange peer expected body apply answer).Keeps (nodeConduct peers self) := by
  cases answer with
  | error e => trivial
  | ok reply =>
      simp only [HabiNode.finishExchange]
      cases isExpected : expected reply with
      | true =>
          simp only [succeeds reply isExpected]
          exact saved_keeps (noBurn reply) _
      | false => trivial

theorem finishLinkUp_keeps (peer : String) (answer : Except String PeerMessage) :
    (HabiNode.finishLinkUp peer answer).Keeps (nodeConduct peers self) :=
  finishExchange_keeps (by simp)
    (fun reply isAck _ => by cases reply <;> first | rfl | cases isAck) _ _

theorem finishPropagate_keeps (peer : String) (answer : Except String PeerMessage) :
    (HabiNode.finishPropagate peer answer).Keeps (nodeConduct peers self) :=
  finishExchange_keeps (by simp)
    (fun reply isReply _ => by cases reply <;> first | rfl | cases isReply) _ _

theorem settle_keeps (order : IterationOrder) (snapshots : List PeerSnapshot)
    (unreachable : List String) :
    (HabiNode.settle peers order self snapshots unreachable).Keeps (nodeConduct peers self) := by
  unfold HabiNode.settle
  split
  · trivial
  · split
    · trivial
    · intro found _
      refine ⟨⟨Or.inl ⟨_, rfl⟩, fun burned isBurn => ?_, rfl⟩, broadcast_linkDue _,
        broadcast_keeps _ fun notice member => ?_⟩
      · obtain rfl := CriticalSection.burn.inj isBurn
        rfl
      · obtain ⟨_, _, b, -, -, rfl⟩ := HabiNode.mem_burnNotices.mp member
        exact ⟨self, b, rfl⟩

theorem gather_keeps (order : IterationOrder) (rest : List (Sigma fun _ : String => String))
    (snapshots : List PeerSnapshot) (unreachable : List String) :
    (HabiNode.gather peers order self rest snapshots unreachable).Keeps
      (nodeConduct peers self) := by
  induction rest generalizing snapshots unreachable with
  | nil => exact settle_keeps _ _ _
  | cons peer rest ih =>
      refine ⟨fun answer => ?_, fun answer => ?_⟩
      · dsimp only
        split <;> exact gather_linkDue _ _ _ _
      · dsimp only
        split <;> exact ih _ _

theorem spendAt_keeps (bearer : String) :
    (HabiNode.spendAt peers bearer).Keeps (nodeConduct peers self) := by
  intro found named
  rcases found.localSpend_cases bearer with ⟨-, outcome⟩ | ⟨-, outcome⟩
  · simp only [HabiNode.finishSpend, outcome]
    refine ⟨⟨Or.inl ⟨_, rfl⟩, by simp [AnnouncesBurn], rfl⟩, broadcast_linkDue _,
      broadcast_keeps _ fun notice member => ?_⟩
    obtain ⟨_, _, b, -, -, rfl⟩ := HabiNode.mem_spendNotices.mp member
    exact ⟨_, b, rfl⟩
  · simp only [HabiNode.finishSpend, outcome]
    exact ⟨⟨Or.inr (by simp [CriticalSection.execute, outcome]), by simp [AnnouncesBurn], rfl⟩,
      trivial⟩

theorem handleAdminCommand_keeps (order : IterationOrder) (message : AdminMessage) :
    (HabiNode.handleAdminCommand peers order message).Keeps (nodeConduct peers self) := by
  cases message with
  | linkUp peer =>
      apply withPeerAddr_keeps
      intro addr _
      apply read_keeps
      intro found named
      exact ⟨rfl, ⟨named, fun _ _ _ => rfl⟩, fun _ => finishLinkUp_keeps _ _⟩
  | linkDown peer =>
      apply withPeerAddr_keeps
      intro addr isListed
      apply read_keeps
      intro found named
      refine ⟨rfl, ⟨named, peer, isListed, rfl⟩, fun result => ?_⟩
      cases result with
      | error failure => trivial
      | ok _ => exact saved_keeps (by simp) _
  | propagate peer =>
      apply withPeerAddr_keeps
      intro addr _
      apply read_keeps
      intro found named
      split
      · exact ⟨rfl, trivial⟩
      · exact ⟨rfl, fun _ => finishPropagate_linkDue _ _, fun _ => finishPropagate_keeps _ _⟩
  | spendAt bearer => exact spendAt_keeps bearer
  | conversionDay =>
      apply read_keeps
      rintro found rfl
      exact ⟨gather_linkDue _ _ _ _, gather_keeps _ _ _ _⟩
  | status => exact read_keeps fun found named => ⟨rfl, trivial⟩
  | seed bearer => exact saved_keeps (by simp) _

/-- In every run from an idle world the nodes keep their ids, and the threads the
conduct of the handlers. -/
theorem Deployment.conduct_of_run {ι : Type} [DecidableEq ι] {D : Deployment ι}
    {nodeId : ι → String} {start last : Deployment.World ι}
    {trace : List (Deployment.World ι × Deployment.Event ι)}
    (run : LabelledRuns.Run D.system.Step start trace last) (idle : start.Idle)
    (named : ∀ i, (start.memory i).node.nodeId = nodeId i) :
    (∀ i, (last.memory i).node.nodeId = nodeId i) ∧
      last.Keeps fun i => nodeConduct (D.peers i) (nodeId i) := by
  apply run.invariant (fun w => (∀ i, (w.memory i).node.nodeId = nodeId i) ∧
    w.Keeps fun i => nodeConduct (D.peers i) (nodeId i)) ⟨named, idle.keeps⟩
  intro w event w' _ inv edge
  exact ⟨fun i => (nodeId_step edge i).trans (inv.1 i),
    inv.2.step (fun _ _ => handleAdminCommand_keeps _ _) inv.1 edge⟩

end HabiCore
