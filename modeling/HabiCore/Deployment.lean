import HabiCore.HabiNode
import HabiCore.HandlerContracts

/-!
# Deployments

A deployment runs one node for each member of a type of processes.  Its nodes
know some peers by their addresses, and a message to an address is handled by
the node that listens there.
-/

namespace HabiCore

open LockedProcesses

/-- An admin command, with the iteration order of the hash set it may build. -/
structure Command where
  message : AdminMessage
  order : IterationOrder

/-- A command whose hash set happens to be iterated in sorted order. -/
def AdminMessage.command (message : AdminMessage) : Command :=
  ⟨message, .sorted⟩

def isSpend (command : Command) : Bool :=
  match command.message with
  | .spendAt _ => true
  | _ => false

/-- Handles one connection of a peer; nothing is written back when the message
has no reply or is refused. -/
def handlePeerConnection (shared : NodeShared) (msg : PeerMessage) :
    Option PeerMessage × NodeShared :=
  match handleIncomingPeerMessage shared msg with
  | (.ok reply, shared) => (reply, shared)
  | (.error _, shared) => (none, shared)

section Reactions

variable (shared : NodeShared) (sender bearer : String) (ledger spent bearers : List String)

@[simp] theorem handlePeerConnection_linkUpHello :
    handlePeerConnection shared (.linkUpHello sender ledger spent) =
      (some (.linkUpAck shared.node.nodeId shared.ledgerSorted shared.spentSorted),
        shared.applyLinkUp sender
          (shared.computeLinkUpMerge ledger.toFinset spent.toFinset)) := rfl

@[simp] theorem handlePeerConnection_linkDown :
    handlePeerConnection shared (.linkDown sender) = (none, shared.applyLinkDown sender) := rfl

theorem handlePeerConnection_propagateRequest :
    handlePeerConnection shared (.propagateRequest sender) =
      (if shared.isLinked sender then
        some (.propagateReply shared.node.nodeId shared.ledgerSorted) else none, shared) := by
  cases linked : shared.isLinked sender <;>
    simp [handlePeerConnection, handleIncomingPeerMessage, linked]

@[simp] theorem handlePeerConnection_spentNotify :
    handlePeerConnection shared (.spentNotify sender bearer) =
      (none, shared.applySpentNotify bearer) := rfl

@[simp] theorem handlePeerConnection_statusRequest :
    handlePeerConnection shared (.statusRequest sender) =
      (some (.statusReply shared.node.nodeId shared.ledgerSorted shared.spentSorted),
        shared) := rfl

@[simp] theorem handlePeerConnection_linkUpAck :
    handlePeerConnection shared (.linkUpAck sender ledger spent) = (none, shared) := rfl

@[simp] theorem handlePeerConnection_propagateReply :
    handlePeerConnection shared (.propagateReply sender bearers) = (none, shared) := rfl

@[simp] theorem handlePeerConnection_statusReply :
    handlePeerConnection shared (.statusReply sender ledger spent) = (none, shared) := rfl

end Reactions

theorem foldl_applySpentNotify (bearers : List String) (shared : NodeShared) :
    bearers.foldl NodeShared.applySpentNotify shared =
      shared.setLedger (shared.node.ledger \ bearers.toFinset) := by
  induction bearers generalizing shared with
  | nil => simp [NodeShared.setLedger]
  | cons head tail ih =>
      rw [List.foldl_cons, ih]
      simp only [NodeShared.applySpentNotify, NodeShared.setLedger]
      congr 2
      ext b
      simp
      tauto

theorem execute_nodeId (body : CriticalSection) (found : NodeShared) :
    (body.execute found).node.nodeId = found.node.nodeId := by
  cases body with
  | localSpend bearer =>
      rcases found.localSpend_cases bearer with ⟨-, outcome⟩ | ⟨-, outcome⟩ <;>
        simp [CriticalSection.execute, outcome]
  | applyLinkUpReply reply => cases reply <;> rfl
  | applyPropagateReply reply => cases reply <;> rfl
  | burn bearers => simp [CriticalSection.execute, foldl_applySpentNotify]
  | read | applyLinkDown | seed => rfl

theorem mem_execute_spent {body : CriticalSection} {found : NodeShared} {b : String} :
    b ∈ (body.execute found).node.spent ↔
      b ∈ found.node.spent ∨ (body = .localSpend b ∧ b ∈ found.node.ledger) := by
  cases body with
  | localSpend bearer =>
      rcases found.localSpend_cases bearer with ⟨isHeld, outcome⟩ | ⟨missing, outcome⟩
      · simp only [CriticalSection.execute, outcome, Finset.mem_insert]
        constructor
        · rintro (rfl | old)
          · exact Or.inr ⟨rfl, isHeld⟩
          · exact Or.inl old
        · rintro (old | ⟨same, -⟩)
          · exact Or.inr old
          · exact Or.inl (by simpa using same.symm)
      · simp only [CriticalSection.execute, outcome, CriticalSection.localSpend.injEq]
        constructor
        · exact Or.inl
        · rintro (old | ⟨rfl, isHeld⟩)
          · exact old
          · exact (missing isHeld).elim
  | applyLinkUpReply reply => cases reply <;> simp [CriticalSection.execute, applyLinkUpReply]
  | applyPropagateReply reply =>
      cases reply <;> simp [CriticalSection.execute, applyPropagateReply]
  | burn bearers => simp [CriticalSection.execute, foldl_applySpentNotify]
  | read | applyLinkDown | seed => simp [CriticalSection.execute]

theorem respond_nodeId (found : NodeShared) (msg : PeerMessage) :
    (handlePeerConnection found msg).2.node.nodeId = found.node.nodeId := by
  cases msg <;> simp [handlePeerConnection_propagateRequest]

theorem respond_spent (found : NodeShared) (msg : PeerMessage) :
    (handlePeerConnection found msg).2.node.spent = found.node.spent := by
  cases msg <;> simp [handlePeerConnection_propagateRequest]

/-- The bearers that a section may add to the ledger. -/
def CriticalSection.brings (found : NodeShared) : CriticalSection → Finset String
  | .applyLinkUpReply (.linkUpAck _ ledger spent) =>
      ledger.toFinset \ (found.node.spent ∪ spent.toFinset)
  | .applyPropagateReply (.propagateReply _ bearers) => bearers.toFinset \ found.node.spent
  | .seed bearer => {bearer}
  | _ => ∅

/-- The bearers that a message may add to the ledger of its receiver. -/
def PeerMessage.brings (found : NodeShared) : PeerMessage → Finset String
  | .linkUpHello _ ledger spent => ledger.toFinset \ (found.node.spent ∪ spent.toFinset)
  | _ => ∅

section Ledgers

variable {found : NodeShared} {b : String}

theorem mem_ledger_of_execute {body : CriticalSection}
    (isHeld : b ∈ (body.execute found).node.ledger) :
    b ∈ found.node.ledger ∨ b ∈ body.brings found := by
  cases body with
  | read => exact Or.inl isHeld
  | localSpend bearer =>
      rcases found.localSpend_cases bearer with ⟨-, outcome⟩ | ⟨-, outcome⟩
      · simp only [CriticalSection.execute, outcome] at isHeld
        exact Or.inl (Finset.mem_of_mem_erase isHeld)
      · simp only [CriticalSection.execute, outcome] at isHeld
        exact Or.inl isHeld
  | applyLinkUpReply reply =>
      cases reply with
      | linkUpAck sender ledger spent =>
          have merged : b ∈ found.computeLinkUpMerge ledger.toFinset spent.toFinset := isHeld
          rw [NodeShared.computeLinkUpMerge_eq, Finset.mem_sdiff, Finset.mem_union] at merged
          rcases merged.1 with own | offered
          · exact Or.inl own
          · exact Or.inr (Finset.mem_sdiff.mpr ⟨offered, merged.2⟩)
      | _ => exact Or.inl isHeld
  | applyPropagateReply reply =>
      cases reply with
      | propagateReply sender bearers =>
          rcases Finset.mem_union.mp isHeld with own | delivered
          · exact Or.inl own
          · rw [NodeShared.computePropagateDeliverable_eq] at delivered
            exact Or.inr (Finset.mem_sdiff.mp delivered).1
      | _ => exact Or.inl isHeld
  | applyLinkDown peer => exact Or.inl isHeld
  | burn bearers =>
      simp only [CriticalSection.execute, foldl_applySpentNotify, NodeShared.setLedger_ledger,
        Finset.mem_sdiff] at isHeld
      exact Or.inl isHeld.1
  | seed bearer =>
      rcases Finset.mem_insert.mp isHeld with rfl | own
      · exact Or.inr (Finset.mem_singleton_self _)
      · exact Or.inl own

theorem mem_ledger_of_respond {msg : PeerMessage}
    (isHeld : b ∈ (handlePeerConnection found msg).2.node.ledger) :
    b ∈ found.node.ledger ∨ b ∈ msg.brings found := by
  cases msg with
  | linkUpHello sender ledger spent =>
      have merged : b ∈ found.computeLinkUpMerge ledger.toFinset spent.toFinset := isHeld
      rw [NodeShared.computeLinkUpMerge_eq, Finset.mem_sdiff, Finset.mem_union] at merged
      rcases merged.1 with own | offered
      · exact Or.inl own
      · exact Or.inr (Finset.mem_sdiff.mpr ⟨offered, merged.2⟩)
  | spentNotify sender bearer => exact Or.inl (Finset.mem_of_mem_erase isHeld)
  | propagateRequest sender =>
      simp only [handlePeerConnection_propagateRequest] at isHeld
      exact Or.inl isHeld
  | _ => exact Or.inl isHeld

theorem not_spent_of_brings {body : CriticalSection} (noSeed : body ≠ .seed b)
    (isBrought : b ∈ body.brings found) : b ∉ found.node.spent := by
  cases body with
  | applyLinkUpReply reply =>
      cases reply with
      | linkUpAck sender ledger spent =>
          have unspent := (Finset.mem_sdiff.mp isBrought).2
          exact fun isSpent => unspent (Finset.mem_union_left _ isSpent)
      | _ => simp [CriticalSection.brings] at isBrought
  | applyPropagateReply reply =>
      cases reply with
      | propagateReply sender bearers => exact (Finset.mem_sdiff.mp isBrought).2
      | _ => simp [CriticalSection.brings] at isBrought
  | seed bearer =>
      obtain rfl := Finset.mem_singleton.mp isBrought
      exact (noSeed rfl).elim
  | read | localSpend | applyLinkDown | burn => simp [CriticalSection.brings] at isBrought

theorem not_spent_of_message_brings {msg : PeerMessage} (isBrought : b ∈ msg.brings found) :
    b ∉ found.node.spent := by
  cases msg with
  | linkUpHello sender ledger spent =>
      have unspent := (Finset.mem_sdiff.mp isBrought).2
      exact fun isSpent => unspent (Finset.mem_union_left _ isSpent)
  | _ => simp [PeerMessage.brings] at isBrought

end Ledgers

structure Deployment (ι : Type) where
  peers : ι → PeerAddrs
  listener : String → Option ι

namespace Deployment

variable {ι : Type}

/-- The joint state of a deployment; a state file holds a `Node`. -/
abbrev World (ι : Type) :=
  LockedProcesses.World ι Command CriticalSection NodeShared String PeerMessage
    ExchangeFailure AdminReply Node

abbrev Event (ι : Type) := LockedProcesses.Event ι Command ExchangeFailure

abbrev Thread (ι : Type) :=
  LockedProcesses.Thread ι Command CriticalSection NodeShared String PeerMessage
    ExchangeFailure AdminReply

abbrev NodeContract (K : Type) [Preorder K] (ι : Type) :=
  Contract K ι Command CriticalSection NodeShared String PeerMessage AdminReply

def system (D : Deployment ι) :
    System ι Command CriticalSection NodeShared String PeerMessage ExchangeFailure
      AdminReply Node where
  handler i command :=
    HabiNode.handleAdminCommand (D.peers i) command.order command.message
  execute := CriticalSection.execute
  respond := handlePeerConnection
  listener := D.listener
  unanswered := .closed
  image shared := shared.node

@[simp] theorem system_handler (D : Deployment ι) (i : ι) (command : Command) :
    D.system.handler i command =
      HabiNode.handleAdminCommand (D.peers i) command.order command.message := rfl

@[simp] theorem system_execute (D : Deployment ι) (body : CriticalSection) :
    D.system.execute body = body.execute := rfl

@[simp] theorem system_respond (D : Deployment ι) (shared : NodeShared) (msg : PeerMessage) :
    D.system.respond shared msg = handlePeerConnection shared msg := rfl

@[simp] theorem system_listener (D : Deployment ι) (addr : String) :
    D.system.listener addr = D.listener addr := rfl

def spentSets (memory : ι → NodeShared) (i : ι) : Finset String :=
  (memory i).node.spent

theorem spentSets_update [DecidableEq ι] {memory : ι → NodeShared} {i : ι} {left : NodeShared}
    (grows : (memory i).node.spent ⊆ left.node.spent) :
    spentSets memory ≤ spentSets (Function.update memory i left) := by
  intro j
  by_cases same : j = i
  · subst same
    simpa [spentSets] using grows
  · simp [spentSets, same]

def spentSomewhere (memory : ι → NodeShared) : Set String :=
  {b | ∃ i, b ∈ (memory i).node.spent}

/-- A spend takes effect: the node holds the bearer at the moment of the local
spend. -/
def Spends (w : World ι) (event : Event ι) (x : ι) (b : String) : Prop :=
  ∃ k command next, event = .thread k .locked ∧
    w.threads[k]? = some ⟨x, command, .running (.locked (.localSpend b) next)⟩ ∧
    b ∈ (w.memory x).node.ledger

def spendAttempt (w : World ι) : Event ι → Option (ι × String)
  | .thread k .locked =>
      match w.threads[k]? with
      | some ⟨x, _, .running (.locked (.localSpend b) _)⟩ => some (x, b)
      | _ => none
  | _ => none

theorem spends_iff {w : World ι} {event : Event ι} {x : ι} {b : String} :
    Spends w event x b ↔
      spendAttempt w event = some (x, b) ∧ b ∈ (w.memory x).node.ledger := by
  constructor
  · rintro ⟨k, command, next, rfl, present, isHeld⟩
    exact ⟨by simp [spendAttempt, present], isHeld⟩
  · rintro ⟨attempt, isHeld⟩
    unfold spendAttempt at attempt
    split at attempt
    · split at attempt
      · rename_i present
        cases attempt
        exact ⟨_, _, _, rfl, present, isHeld⟩
      · cases attempt
    · cases attempt

theorem Spends.unique {w : World ι} {event : Event ι} {x y : ι} {b b' : String}
    (first : Spends w event x b) (second : Spends w event y b') : x = y := by
  have attempts := (spends_iff.mp first).1.symm.trans (spends_iff.mp second).1
  exact (Prod.mk.inj (Option.some_inj.mp attempts)).1

section Steps

variable [DecidableEq ι] {D : Deployment ι} {w w' : World ι} {event : Event ι}

theorem nodeId_step (edge : D.system.Step w event w') (i : ι) :
    (w'.memory i).node.nodeId = (w.memory i).node.nodeId := by
  rcases edge.memory_cases with ⟨-, -, same⟩ | ⟨k, j, command, body, next, -, -, changed⟩ |
    ⟨-, peer, message, -, changed⟩
  · rw [same]
  · by_cases isOwn : i = j
    · subst isOwn
      rw [changed, Function.update_self]
      exact execute_nodeId body _
    · rw [changed, Function.update_of_ne isOwn]
  · by_cases isOwn : i = peer
    · subst isOwn
      rw [changed, Function.update_self]
      exact respond_nodeId _ message
    · rw [changed, Function.update_of_ne isOwn]

/-- A step adds to the spent sets what it spends. -/
theorem mem_spent_step (edge : D.system.Step w event w') {x : ι} {b : String} :
    b ∈ (w'.memory x).node.spent ↔ b ∈ (w.memory x).node.spent ∨ Spends w event x b := by
  rcases edge.memory_cases with ⟨unlocked, -, same⟩ |
    ⟨k, i, command, body, next, rfl, present, changed⟩ | ⟨unlocked, peer, message, -, changed⟩
  · have noSpend : ¬ Spends w event x b := fun ⟨k, _, _, isLocked, _⟩ => unlocked k isLocked
    rw [same, or_iff_left noSpend]
  · by_cases isOwn : x = i
    · subst isOwn
      rw [changed, Function.update_self, system_execute, mem_execute_spent]
      constructor
      · rintro (old | ⟨rfl, isHeld⟩)
        · exact Or.inl old
        · exact Or.inr ⟨k, command, next, rfl, present, isHeld⟩
      · rintro (old | ⟨k', command', next', isLocked, present', isHeld⟩)
        · exact Or.inl old
        · obtain rfl : k = k' := by simpa using isLocked
          obtain ⟨rfl, rfl, -⟩ : command = command' ∧ body = .localSpend b ∧ next ≍ next' := by
            simpa using present.symm.trans present'
          exact Or.inr ⟨rfl, isHeld⟩
    · have noSpend : ¬ Spends w (.thread k .locked) x b := by
        rintro ⟨k', command', next', isLocked, present', -⟩
        obtain rfl : k = k' := by simpa using isLocked
        exact isOwn (congrArg Thread.process (Option.some_inj.mp (present'.symm.trans present)))
      rw [changed, Function.update_of_ne isOwn, or_iff_left noSpend]
  · have noSpend : ¬ Spends w event x b := fun ⟨k, _, _, isLocked, _⟩ => unlocked k isLocked
    rw [or_iff_left noSpend, changed]
    by_cases isOwn : x = peer
    · subst isOwn
      rw [Function.update_self, system_respond, respond_spent]
    · rw [Function.update_of_ne isOwn]

end Steps

section Handlers

variable {K : Type} [Preorder K] {C : NodeContract K ι} {k : K} {i : ι} {command : Command}
  {peers : PeerAddrs}

theorem honours_broadcast (notices : List (String × PeerMessage))
    (allowed : ∀ notice ∈ notices, C.message k notice.2) (finish : C.reply k i command .ok) :
    C.Honours i command (HabiNode.broadcast notices) k := by
  induction notices with
  | nil => exact finish
  | cons notice rest ih =>
      refine ⟨allowed notice List.mem_cons_self, fun _ => ih ?_⟩
      intro other member
      exact allowed other (List.mem_cons_of_mem _ member)

theorem owes_broadcast {notices : List (String × PeerMessage)} {addr : String}
    {notify : PeerMessage} (member : (addr, notify) ∈ notices) :
    (HabiNode.broadcast notices).Owes addr notify := by
  induction notices with
  | nil => simp at member
  | cons notice rest ih =>
      rcases List.mem_cons.mp member with rfl | later
      · exact Or.inl ⟨rfl, rfl⟩
      · exact Or.inr (ih later)

/-- Spending a bearer that is held obliges a node to notify the peers it is
linked to. -/
def OwedForSpend (D : Deployment ι) (nodeId : ι → String) (i : ι) (body : CriticalSection)
    (found : NodeShared) (addr : String) (notify : PeerMessage) : Prop :=
  ∃ b, body = .localSpend b ∧ b ∈ found.node.ledger ∧ notify = .spentNotify (nodeId i) b ∧
    ∃ peer, found.isLinked peer = true ∧ (D.peers i).lookup peer = some addr

theorem owes_finishSpend {D : Deployment ι} {nodeId : ι → String} {bearer : String}
    {found : NodeShared} {addr : String} {notify : PeerMessage}
    (named : found.node.nodeId = nodeId i)
    (owed : OwedForSpend D nodeId i (.localSpend bearer) found addr notify) :
    (HabiNode.finishSpend (D.peers i) bearer found).Owes addr notify := by
  obtain ⟨b, same, isHeld, rfl, peer, linked, known⟩ := owed
  obtain rfl : bearer = b := by simpa using same
  have outcome := (found.localSpend_cases bearer).resolve_right fun refused => refused.1 isHeld
  simp only [HabiNode.finishSpend, outcome.2]
  refine owes_broadcast
    (HabiNode.mem_spendNotices.mpr ⟨peer, addr, bearer, known, ⟨?_, rfl⟩, ?_⟩)
  · exact NodeShared.mem_connectedPeers.mpr linked
  · rw [named]

/-- A spend keeps to a contract that allows its section, its notifications and
its replies. -/
theorem honours_spendAt {D : Deployment ι} {nodeId : ι → String} {bearer : String}
    (allowed : C.body k i command (.localSpend bearer))
    (named : ∀ k' found, C.memory k' i found → found.node.nodeId = nodeId i)
    (succeeds : ∀ k' found, C.learned k' i (.localSpend bearer) found →
      bearer ∈ found.node.ledger →
        C.message k' (.spentNotify (nodeId i) bearer) ∧ C.reply k' i command .ok)
    (fails : ∀ k' detail, C.reply k' i command (.error detail))
    (owed : ∀ found addr notify, C.owed i (.localSpend bearer) found addr notify →
      OwedForSpend D nodeId i (.localSpend bearer) found addr notify) :
    C.Honours i command (HabiNode.spendAt (D.peers i) bearer) k := by
  refine ⟨allowed, fun found later _ admits learned => ⟨?_, fun addr notify isOwed =>
    owes_finishSpend (named later found admits) (owed found addr notify isOwed)⟩⟩
  rcases found.localSpend_cases bearer with ⟨isHeld, outcome⟩ | ⟨-, outcome⟩
  · simp only [HabiNode.finishSpend, outcome]
    obtain ⟨sends, replies⟩ := succeeds later found learned isHeld
    apply honours_broadcast _ _ replies
    intro notice member
    obtain ⟨_, _, _, -, ⟨-, rfl⟩, rfl⟩ := HabiNode.mem_spendNotices.mp member
    simpa [named later found admits] using sends
  · simp only [HabiNode.finishSpend, outcome]
    exact fails later _

theorem honours_withPeerAddr {peer : String} {next : String → Handler}
    (honours : ∀ addr, C.Honours i command (next addr) k)
    (failure : ∀ detail, C.reply k i command (.error detail)) :
    C.Honours i command (HabiNode.withPeerAddr peers peer next) k := by
  unfold HabiNode.withPeerAddr
  split
  · exact honours _
  · exact failure _

end Handlers

/-- Every node lists every other node under its own id, with the address where
that node listens, and lists nothing else. -/
structure Configured (D : Deployment ι) (nodeId : ι → String) : Prop where
  distinct : Function.Injective nodeId
  listed : ∀ i j, j ≠ i → nodeId j ∈ D.peers i
  only_listed : ∀ i id addr, (D.peers i).lookup id = some addr →
    ∃ j, j ≠ i ∧ id = nodeId j ∧ D.listener addr = some j

theorem Configured.lookup {D : Deployment ι} {nodeId : ι → String}
    (configured : Configured D nodeId) {i j : ι} (other : j ≠ i) :
    ∃ addr, (D.peers i).lookup (nodeId j) = some addr ∧ D.listener addr = some j := by
  obtain ⟨addr, found⟩ := Option.isSome_iff_exists.mp
    (AList.lookup_isSome.mpr (configured.listed i j other))
  obtain ⟨j', -, same, listening⟩ := configured.only_listed i (nodeId j) addr found
  obtain rfl := configured.distinct same
  exact ⟨addr, found, listening⟩

theorem Configured.of_listener {D : Deployment ι} {nodeId : ι → String}
    (configured : Configured D nodeId) {i x : ι} {id addr : String}
    (found : (D.peers i).lookup id = some addr) (listening : D.listener addr = some x) :
    x ≠ i ∧ id = nodeId x := by
  obtain ⟨j, other, named, listening'⟩ := configured.only_listed i id addr found
  obtain rfl := Option.some_inj.mp (listening'.symm.trans listening)
  exact ⟨other, named⟩

theorem Configured.only_entry {D : Deployment ι} {nodeId : ι → String}
    (configured : Configured D nodeId) {i : ι} {peer : Sigma fun _ : String => String}
    (isPeer : peer ∈ (D.peers i).entries) :
    ∃ x, peer.1 = nodeId x ∧ D.listener peer.2 = some x := by
  obtain ⟨x, -, named, listening⟩ :=
    configured.only_listed i peer.1 peer.2 (AList.mem_lookup_iff.mpr isPeer)
  exact ⟨x, named, listening⟩

/-- A spend that takes effect leaves the notification of a linked peer
outstanding. -/
theorem outstanding_of_spend [DecidableEq ι] {K : Type} [Preorder K] {C : NodeContract K ι}
    {D : Deployment ι} {nodeId : ι → String} {known : (ι → NodeShared) → K}
    {commands : Command → Prop} {w w' : World ι} (kept : C.Kept D.system known commands)
    (complies : C.Complies (known w.memory) w) (configured : Configured D nodeId)
    (owing : ∀ i body found addr notify, OwedForSpend D nodeId i body found addr notify →
      C.owed i body found addr notify)
    {k : Nat} {x y : ι} {command : Command} {b : String} {next : NodeShared → Handler}
    (linked : (w.memory x).isLinked (nodeId y) = true) (other : y ≠ x)
    (present : w.threads[k]? = some ⟨x, command, .running (.locked (.localSpend b) next)⟩)
    (isHeld : b ∈ (w.memory x).node.ledger)
    (edge : D.system.Step w (.thread k .locked) w') :
    D.system.Outstanding w' y (.spentNotify (nodeId x) b) := by
  obtain ⟨addr, found, listening⟩ := configured.lookup other
  have owes := kept.owes complies present
    (owing x _ _ addr _ ⟨b, rfl, isHeld, rfl, nodeId y, linked, found⟩)
  refine Or.inr ⟨⟨x, command, .running (next (w.memory x))⟩, ?_, addr, listening, owes⟩
  rw [(edge.of_locked present).2]
  exact List.mem_set (List.getElem?_eq_some_iff.mp present).1 _

/-- The nodes of the given names, each of which listens on a host of its name. -/
def cluster (names : List String) : Deployment (Fin names.length) where
  peers i := ((names.eraseIdx i).map fun name => ⟨name, "host-" ++ name⟩).toAList
  listener addr := (List.finRange names.length).find? fun j => "host-" ++ names.get j = addr

theorem cluster_configured {names : List String} (distinct : names.Nodup) :
    Configured (cluster names) names.get where
  distinct := List.nodup_iff_injective_get.mp distinct
  listed i j other := by
    rw [← AList.lookup_isSome, cluster, AList.lookup_to_alist, List.dlookup_isSome]
    simp only [List.keys, List.map_map, Function.comp_def, List.mem_map, exists_eq_right]
    rw [List.mem_eraseIdx_iff_getElem]
    exact ⟨j, j.isLt, fun same => other (Fin.ext same), rfl⟩
  only_listed i id addr found := by
    rw [cluster, AList.lookup_to_alist] at found
    obtain ⟨name, member, pairEq⟩ := List.mem_map.mp (List.of_mem_dlookup found)
    obtain ⟨rfl, rfl⟩ : name = id ∧ "host-" ++ name = addr := by simpa using pairEq
    obtain ⟨j, inBounds, other, rfl⟩ := List.mem_eraseIdx_iff_getElem.mp member
    refine ⟨⟨j, inBounds⟩, fun same => other (congrArg Fin.val same), rfl, ?_⟩
    have found : ((cluster names).listener ("host-" ++ names[j])).isSome := by
      simp only [cluster, List.find?_isSome]
      exact ⟨⟨j, inBounds⟩, List.mem_finRange _, by simp⟩
    obtain ⟨j', listening⟩ := Option.isSome_iff_exists.mp found
    have sameHost : "host-" ++ names.get j' = "host-" ++ names[j] := by
      simpa using List.find?_some listening
    have same : names.get j' = names.get ⟨j, inBounds⟩ := String.append_right_inj _ |>.mp sameHost
    rw [listening, List.nodup_iff_injective_get.mp distinct same]

def unlinkedNode (names : List String) (ledger : String → Finset String)
    (i : Fin names.length) : NodeShared where
  node := { Node.new (names.get i) with ledger := ledger (names.get i) }
  links := ∅

def idle (memory : ι → NodeShared) : World ι where
  memory := memory
  saved _ := none
  threads := []
  inFlight := []

theorem idle_idle (memory : ι → NodeShared) : (idle memory).Idle :=
  ⟨rfl, rfl⟩

end Deployment

end HabiCore
