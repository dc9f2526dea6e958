import HabiCore.DebugFormat
import HabiCore.Node

/-!
# The centralized network

`Network` keeps all nodes and the link matrix in one place.  A method on
`&mut self` becomes a function that returns its result together with the
network it leaves behind, whatever the result; `none` stands for a panic of an
`unwrap` or of a map index.
-/

namespace HabiCore

structure NetworkError where
  detail : String
  deriving DecidableEq

structure LogEntry where
  action : String
  detail : String
  deriving DecidableEq

structure Network where
  nodes : StringMap Node
  links : StringMap (StringMap Bool)
  log : List LogEntry

/-- The result of a method on `&mut self` and the network it leaves behind. -/
abbrev Returned (Error : Type) := Except Error Unit × Network

namespace Network

open FinmapFolds

def new (nodeIds : List String) : Network where
  nodes := insertAll ∅ Node.new nodeIds
  links := insertAll ∅ (fun a => insertAll ∅ (fun b => decide (a ≠ b)) nodeIds) nodeIds
  log := []

/-- The ledger of a node; an unknown node holds nothing. -/
def ledgerOf (net : Network) (id : String) : Finset String :=
  match net.nodes.lookup id with
  | some node => node.ledger
  | none => ∅

def spentOf (net : Network) (id : String) : Finset String :=
  match net.nodes.lookup id with
  | some node => node.spent
  | none => ∅

def connectedTo (net : Network) (n : String) : Finset String :=
  match net.links.lookup n with
  | some row => row.keys.filter fun m => m ≠ n ∧ row.lookup m = some true
  | none => ∅

def isLinked (net : Network) (n m : String) : Except NetworkError Bool :=
  match (net.links.lookup n).bind fun row => row.lookup m with
  | some up => .ok up
  | none => .error ⟨s!"unknown node pair {n}-{m}"⟩

def record (net : Network) (action detail : String) : Network :=
  { net with log := net.log ++ [⟨action, detail⟩] }

/-- `self.links.get_mut(n).unwrap().insert(m.to_string(), up)` -/
def insertLink (net : Network) (n m : String) (up : Bool) : Option Network :=
  match net.links.lookup n with
  | some row => some { net with links := net.links.insert n (row.insert m up) }
  | none => none

/-- `self.nodes.get_mut(n).unwrap()`, followed by an update of the node -/
def updateNode (net : Network) (n : String) (update : Node → Node) : Option Network :=
  match net.nodes.lookup n with
  | some node => some { net with nodes := net.nodes.insert n (update node) }
  | none => none

def insertBothLinks (net : Network) (n m : String) (up : Bool) : Option Network := do
  let net ← net.insertLink n m up
  net.insertLink m n up

/-- `LinkDown(n, m)`: tear down a link symmetrically. -/
def linkDown (net : Network) (n m : String) : Option (Returned NetworkError) :=
  if n = m then
    some (.error ⟨"cannot link a node to itself"⟩, net)
  else
    match net.isLinked n m with
    | .error e => some (.error e, net)
    | .ok false => some (.error ⟨s!"link {n}-{m} already down"⟩, net)
    | .ok true => do
        let net ← net.insertBothLinks n m false
        some (.ok (), net.record "LinkDown" s!"{n}-{m}")

/-- `LinkUp(n, m)`: bring a link up and merge ledgers.  The merge burns what
either side has spent and never writes `spent`. -/
def linkUp (net : Network) (n m : String) : Option (Returned NetworkError) :=
  if n = m then
    some (.error ⟨"cannot link a node to itself"⟩, net)
  else
    match net.isLinked n m with
    | .error e => some (.error e, net)
    | .ok true => some (.error ⟨s!"link {n}-{m} already up"⟩, net)
    | .ok false =>
        if n ∉ net.nodes ∨ m ∉ net.nodes then
          some (.error ⟨s!"unknown node {n} or {m}"⟩, net)
        else do
          let nodeN ← net.nodes.lookup n
          let nodeM ← net.nodes.lookup m
          let knownSpent := nodeN.spent ∪ nodeM.spent
          let merged := (nodeN.ledger ∪ nodeM.ledger).filter fun b => b ∉ knownSpent
          let net ← net.updateNode n fun node => { node with ledger := merged }
          let net ← net.updateNode m fun node => { node with ledger := merged }
          let net ← net.insertBothLinks n m true
          some (.ok (), net.record "LinkUp" s!"{n}-{m}")

/-- `Propagate(src, dst)`: direct-link-only propagation of unspent holdings.
Only `dst`'s own sets are consulted, not those of its other neighbors. -/
def propagate (net : Network) (src dst : String) : Option (Returned NetworkError) :=
  match net.isLinked src dst with
  | .error e => some (.error e, net)
  | .ok false => some (.error ⟨s!"no link {src}-{dst}, cannot propagate"⟩, net)
  | .ok true => do
      let nodeSrc ← net.nodes.lookup src
      let nodeDst ← net.nodes.lookup dst
      let deliverable :=
        nodeSrc.ledger.filter fun b => b ∉ nodeDst.spent ∧ b ∉ nodeDst.ledger
      if deliverable = ∅ then
        some (.error ⟨s!"nothing deliverable from {src} to {dst}"⟩, net)
      else
        let net ← net.updateNode dst fun node =>
          { node with ledger := node.ledger ∪ deliverable }
        let delivered := DebugFormat.strings (sorted deliverable)
        some (.ok (), net.record "Propagate" s!"{src}->{dst}: {delivered}")

/-- `SpendAt(nn, bb)`: the revocation reaches the current direct neighbors
only. -/
def spendAt (net : Network) (nn bb : String) : Option (Returned NetworkError) :=
  let holds := decide (bb ∈ net.ledgerOf nn)
  if holds = false then
    some (.error ⟨s!"{nn} does not hold {bb}, cannot spend"⟩, net)
  else do
    let net ← net.updateNode nn fun node => { node with spent := insert bb node.spent }
    let targets := insert nn (net.connectedTo nn)
    let nodes := modifyAll net.nodes
      (fun node => { node with ledger := node.ledger.erase bb }) (sorted targets)
    some (.ok (), { net with nodes := nodes }.record "SpendAt" s!"{nn}: {bb}")

/-- `NoDoubleSpendAcrossNodes` as a report: each bearer spent by several nodes
with the list of its spenders. -/
def noDoubleSpendAcrossNodes (net : Network) : List (String × List String) :=
  let allBearers := net.nodes.keys.biUnion fun id => net.ledgerOf id ∪ net.spentOf id
  (sorted allBearers).filterMap fun b =>
    let spenders := net.nodes.keys.filter fun id => b ∈ net.spentOf id
    if 1 < spenders.card then some (b, sorted spenders) else none

/-- `PairwiseSyncedNoDoubleSpend` as a report: each pair of linked nodes with a
bearer that one of them has spent and one of them holds. -/
def pairwiseSyncedNoDoubleSpend (net : Network) : List (String × String × String) :=
  let ids := sorted net.nodes.keys
  ids.flatMap fun n1 =>
    ids.flatMap fun n2 =>
      if n1 = n2 then
        []
      else
        let linked := ((net.links.lookup n1).bind fun row => row.lookup n2).getD false
        if !linked then
          []
        else
          let spentUnion := sorted (net.spentOf n1 ∪ net.spentOf n2)
          spentUnion.filterMap fun b =>
            if b ∈ net.ledgerOf n1 ∨ b ∈ net.ledgerOf n2 then some (n1, n2, b) else none

end Network

end HabiCore
