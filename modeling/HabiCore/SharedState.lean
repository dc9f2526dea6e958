import HabiCore.Node

/-!
# The shared state of one node

A deployed node has only its own ledger and spent set, its link flags and what
its peers send.  Each transition is a pure function on this state.
-/

namespace HabiCore

structure StateError where
  detail : String
  deriving DecidableEq

/-- One node's local view: its own node data and the status of its links. -/
structure NodeShared where
  node : Node
  links : StringMap Bool

namespace NodeShared

def new (nodeId : String) : NodeShared where
  node := Node.new nodeId
  links := ∅

def isLinked (self : NodeShared) (peer : String) : Bool :=
  (self.links.lookup peer).getD false

def setLink (self : NodeShared) (peer : String) (up : Bool) : NodeShared :=
  { self with links := self.links.insert peer up }

def connectedPeers (self : NodeShared) : List String :=
  sorted (self.links.keys.filter fun id => self.links.lookup id = some true)

/-- `setLedger` stands for an assignment to `self.node.ledger`. -/
def setLedger (self : NodeShared) (ledger : Finset String) : NodeShared :=
  { self with node := { self.node with ledger := ledger } }

def computeLinkUpMerge (self : NodeShared) (peerLedger peerSpent : Finset String) :
    Finset String :=
  let knownSpent := self.node.spent ∪ peerSpent
  (self.node.ledger ∪ peerLedger).filter fun b => b ∉ knownSpent

def applyLinkUp (self : NodeShared) (peer : String) (merged : Finset String) : NodeShared :=
  (self.setLedger merged).setLink peer true

def applyLinkDown (self : NodeShared) (peer : String) : NodeShared :=
  self.setLink peer false

def computePropagateDeliverable (self : NodeShared) (peerLedger : Finset String) :
    Finset String :=
  peerLedger.filter fun b => b ∉ self.node.spent ∧ b ∉ self.node.ledger

def applyPropagateDeliverable (self : NodeShared) (deliverable : Finset String) :
    NodeShared :=
  self.setLedger (self.node.ledger ∪ deliverable)

def applySpentNotify (self : NodeShared) (bearer : String) : NodeShared :=
  self.setLedger (self.node.ledger.erase bearer)

/-- The spender's side of a spend; the broadcast is the caller's. -/
def localSpend (self : NodeShared) (bearer : String) : Except StateError Unit × NodeShared :=
  if bearer ∉ self.node.ledger then
    (.error ⟨s!"{self.node.nodeId} does not hold {bearer}, cannot spend"⟩, self)
  else
    (.ok (), { self with
      node := { self.node with
        spent := insert bearer self.node.spent
        ledger := self.node.ledger.erase bearer } })

def ledgerSorted (self : NodeShared) : List String :=
  sorted self.node.ledger

def spentSorted (self : NodeShared) : List String :=
  sorted self.node.spent

variable {self : NodeShared} {peer peer' bearer : String} {up : Bool}
  {ledger merged deliverable : Finset String}

@[simp] theorem setLedger_ledger : (self.setLedger ledger).node.ledger = ledger := rfl
@[simp] theorem setLedger_spent : (self.setLedger ledger).node.spent = self.node.spent := rfl
@[simp] theorem setLedger_nodeId : (self.setLedger ledger).node.nodeId = self.node.nodeId := rfl
@[simp] theorem setLedger_links : (self.setLedger ledger).links = self.links := rfl
@[simp] theorem setLedger_isLinked :
    (self.setLedger ledger).isLinked peer = self.isLinked peer := rfl

@[simp] theorem setLink_node : (self.setLink peer up).node = self.node := rfl

@[simp] theorem setLink_isLinked :
    (self.setLink peer up).isLinked peer' = if peer' = peer then up else self.isLinked peer' := by
  by_cases same : peer' = peer
  · subst peer'; simp [isLinked, setLink]
  · simp [isLinked, setLink, same, Finmap.lookup_insert_of_ne]

@[simp] theorem applyLinkUp_node :
    (self.applyLinkUp peer merged).node = { self.node with ledger := merged } := rfl

@[simp] theorem applyLinkUp_isLinked :
    (self.applyLinkUp peer merged).isLinked peer' =
      if peer' = peer then true else self.isLinked peer' := by
  simp [applyLinkUp]

@[simp] theorem applyLinkDown_node : (self.applyLinkDown peer).node = self.node := rfl

@[simp] theorem applyLinkDown_isLinked :
    (self.applyLinkDown peer).isLinked peer' =
      if peer' = peer then false else self.isLinked peer' := by
  simp [applyLinkDown]

@[simp] theorem applyPropagateDeliverable_node :
    (self.applyPropagateDeliverable deliverable).node =
      { self.node with ledger := self.node.ledger ∪ deliverable } := rfl

@[simp] theorem applyPropagateDeliverable_isLinked :
    (self.applyPropagateDeliverable deliverable).isLinked peer = self.isLinked peer := rfl

@[simp] theorem applySpentNotify_node :
    (self.applySpentNotify bearer).node =
      { self.node with ledger := self.node.ledger.erase bearer } := rfl

@[simp] theorem applySpentNotify_isLinked :
    (self.applySpentNotify bearer).isLinked peer = self.isLinked peer := rfl

theorem mem_connectedPeers : peer ∈ self.connectedPeers ↔ self.isLinked peer = true := by
  simp only [connectedPeers, isLinked, mem_sorted, Finset.mem_filter, Finmap.mem_keys]
  constructor
  · rintro ⟨-, up⟩
    simp [up]
  · intro linked
    have up : self.links.lookup peer = some true := by
      cases found : self.links.lookup peer <;> simp_all
    exact ⟨Finmap.mem_of_lookup_eq_some up, up⟩

@[simp] theorem ledgerSorted_toFinset : self.ledgerSorted.toFinset = self.node.ledger :=
  sorted_toFinset _

@[simp] theorem spentSorted_toFinset : self.spentSorted.toFinset = self.node.spent :=
  sorted_toFinset _

theorem computeLinkUpMerge_eq (self : NodeShared) (peerLedger peerSpent : Finset String) :
    self.computeLinkUpMerge peerLedger peerSpent =
      (self.node.ledger ∪ peerLedger) \ (self.node.spent ∪ peerSpent) := by
  ext b
  simp [computeLinkUpMerge]

theorem computePropagateDeliverable_eq (self : NodeShared) (peerLedger : Finset String) :
    self.computePropagateDeliverable peerLedger =
      (peerLedger \ self.node.spent) \ self.node.ledger := by
  ext b
  simp [computePropagateDeliverable, and_assoc]

theorem localSpend_cases (self : NodeShared) (bearer : String) :
    (bearer ∈ self.node.ledger ∧ self.localSpend bearer =
      (.ok (), { self with
        node := { self.node with
          spent := insert bearer self.node.spent
          ledger := self.node.ledger.erase bearer } })) ∨
    (bearer ∉ self.node.ledger ∧ self.localSpend bearer =
      (.error ⟨s!"{self.node.nodeId} does not hold {bearer}, cannot spend"⟩, self)) := by
  by_cases held : bearer ∈ self.node.ledger
  · exact Or.inl ⟨held, by simp [localSpend, held]⟩
  · exact Or.inr ⟨held, by simp [localSpend, held]⟩

theorem localSpend_of_mem (held : bearer ∈ self.node.ledger) :
    ∃ left, self.localSpend bearer = (.ok (), left) ∧
      left.node.ledger = self.node.ledger.erase bearer ∧
      left.node.spent = insert bearer self.node.spent ∧
      ∀ peer, left.isLinked peer = self.isLinked peer := by
  have outcome := (self.localSpend_cases bearer).resolve_right fun refused => refused.1 held
  exact ⟨_, outcome.2, rfl, rfl, fun _ => rfl⟩

end NodeShared

end HabiCore
