import HabiCore.Network
import HabiCore.PerLinkSpecification

/-!
# The methods of the network

A network over the node set `V` has a node and a link row for every member of
`V` and no other, and every row has the columns `V`.  On such a network no
method panics.  Each method is described once, by the action of the per-link
specification it performs or by the error it returns.
-/

namespace HabiCore.Network

open FinmapFolds PerLinkSymmetric

/-- The node map and the link matrix are indexed by `V`. -/
structure Consistent (V : Finset String) (net : Network) : Prop where
  nodes_known : ∀ id, id ∈ net.nodes ↔ id ∈ V
  rows_known : ∀ id, id ∈ net.links ↔ id ∈ V
  columns_known : ∀ id row, net.links.lookup id = some row → ∀ m, m ∈ row ↔ m ∈ V

def linked (net : Network) (n m : String) : Bool :=
  match net.isLinked n m with
  | .ok up => up
  | .error _ => false

/-- The specification's variables, read off a network. -/
def view (net : Network) : State String String where
  ledgers n := net.ledgerOf n
  spent n := net.spentOf n
  network n m := net.linked n m = true

@[simp] theorem view_ledgers (net : Network) (n : String) :
    net.view.ledgers n = (net.ledgerOf n : Set String) := rfl

@[simp] theorem view_spent (net : Network) (n : String) :
    net.view.spent n = (net.spentOf n : Set String) := rfl

@[simp] theorem view_network (net : Network) (n m : String) :
    net.view.network n m = (net.linked n m = true) := rfl

variable {V : Finset String} {net net' : Network} {n m : String}

theorem linked_eq (net : Network) (n m : String) :
    net.linked n m = (((net.links.lookup n).bind fun row => row.lookup m).getD false) := by
  simp only [linked, isLinked]
  cases (net.links.lookup n).bind fun row => row.lookup m <;> rfl

namespace Consistent

theorem exists_node (consistent : Consistent V net) (known : n ∈ V) :
    ∃ node, net.nodes.lookup n = some node :=
  Finmap.mem_iff.mp ((consistent.nodes_known n).mpr known)

theorem exists_row (consistent : Consistent V net) (known : n ∈ V) :
    ∃ row, net.links.lookup n = some row :=
  Finmap.mem_iff.mp ((consistent.rows_known n).mpr known)

theorem isLinked_known (consistent : Consistent V net) (nKnown : n ∈ V) (mKnown : m ∈ V) :
    net.isLinked n m = .ok (net.linked n m) := by
  obtain ⟨row, rowAt⟩ := consistent.exists_row nKnown
  obtain ⟨up, upAt⟩ := Finmap.mem_iff.mp ((consistent.columns_known n row rowAt m).mpr mKnown)
  simp [linked, isLinked, rowAt, upAt]

theorem isLinked_unknown (consistent : Consistent V net) (unknown : ¬ (n ∈ V ∧ m ∈ V)) :
    ∃ e, net.isLinked n m = .error e := by
  have missing : ((net.links.lookup n).bind fun row => row.lookup m) = none := by
    cases rowAt : net.links.lookup n with
    | none => rfl
    | some row =>
        have nKnown : n ∈ V :=
          (consistent.rows_known n).mp (Finmap.mem_of_lookup_eq_some rowAt)
        have mUnknown : m ∉ row := fun mIn =>
          unknown ⟨nKnown, (consistent.columns_known n row rowAt m).mp mIn⟩
        simpa using Finmap.lookup_eq_none.mpr mUnknown
  exact ⟨⟨s!"unknown node pair {n}-{m}"⟩, by simp only [isLinked, missing]⟩

theorem known_of_linked (consistent : Consistent V net) (linked : net.linked n m = true) :
    n ∈ V ∧ m ∈ V := by
  by_contra unknown
  obtain ⟨e, failed⟩ := consistent.isLinked_unknown unknown
  simp [Network.linked, failed] at linked

theorem ledgerOf_unknown (consistent : Consistent V net) (unknown : n ∉ V) :
    net.ledgerOf n = ∅ := by
  have missing : net.nodes.lookup n = none :=
    Finmap.lookup_eq_none.mpr (mt (consistent.nodes_known n).mp unknown)
  simp [ledgerOf, missing]

theorem spentOf_unknown (consistent : Consistent V net) (unknown : n ∉ V) :
    net.spentOf n = ∅ := by
  have missing : net.nodes.lookup n = none :=
    Finmap.lookup_eq_none.mpr (mt (consistent.nodes_known n).mp unknown)
  simp [spentOf, missing]

end Consistent

theorem ledgerOf_some {node : Node} (nodeAt : net.nodes.lookup n = some node) :
    net.ledgerOf n = node.ledger := by
  simp [ledgerOf, nodeAt]

theorem spentOf_some {node : Node} (nodeAt : net.nodes.lookup n = some node) :
    net.spentOf n = node.spent := by
  simp [spentOf, nodeAt]

theorem mem_connectedTo (net : Network) (n m : String) :
    m ∈ net.connectedTo n ↔ m ≠ n ∧ net.linked n m = true := by
  rw [linked_eq]
  cases rowAt : net.links.lookup n with
  | none => simp [connectedTo, rowAt]
  | some row =>
      simp only [connectedTo, rowAt, Finset.mem_filter, Finmap.mem_keys,
        Option.bind_some]
      constructor
      · rintro ⟨-, distinct, up⟩
        exact ⟨distinct, by simp [up]⟩
      · rintro ⟨distinct, up⟩
        have entry : row.lookup m = some true := by
          cases found : row.lookup m <;> simp_all
        exact ⟨Finmap.mem_of_lookup_eq_some entry, distinct, entry⟩

@[simp] theorem record_nodes (net : Network) (action detail : String) :
    (net.record action detail).nodes = net.nodes := rfl

@[simp] theorem record_links (net : Network) (action detail : String) :
    (net.record action detail).links = net.links := rfl

@[simp] theorem record_view (net : Network) (action detail : String) :
    (net.record action detail).view = net.view := rfl

theorem Consistent.record (consistent : Consistent V net) (action detail : String) :
    Consistent V (net.record action detail) :=
  ⟨consistent.nodes_known, consistent.rows_known, consistent.columns_known⟩

theorem insertLink_spec (consistent : Consistent V net) (nKnown : n ∈ V) (mKnown : m ∈ V)
    (up : Bool) :
    ∃ net', net.insertLink n m up = some net' ∧ Consistent V net' ∧
      net'.nodes = net.nodes ∧ net'.log = net.log ∧
      ∀ a b, net'.linked a b = if a = n ∧ b = m then up else net.linked a b := by
  obtain ⟨row, rowAt⟩ := consistent.exists_row nKnown
  refine ⟨{ net with links := net.links.insert n (row.insert m up) },
    by simp [insertLink, rowAt], ⟨consistent.nodes_known, ?_, ?_⟩, rfl, rfl, ?_⟩
  · intro id
    rw [Finmap.mem_insert, consistent.rows_known]
    constructor
    · rintro (rfl | known)
      · exact nKnown
      · exact known
    · exact Or.inr
  · intro id row' rowAt' column
    by_cases isN : id = n
    · subst id
      rw [Finmap.lookup_insert, Option.some_inj] at rowAt'
      subst row'
      rw [Finmap.mem_insert, consistent.columns_known n row rowAt]
      constructor
      · rintro (rfl | known)
        · exact mKnown
        · exact known
      · exact Or.inr
    · rw [Finmap.lookup_insert_of_ne _ isN] at rowAt'
      exact consistent.columns_known id row' rowAt' column
  · intro a b
    rw [linked_eq, linked_eq]
    by_cases aIs : a = n
    · subst a
      by_cases bIs : b = m
      · subst b; simp
      · simp [rowAt, bIs, Finmap.lookup_insert_of_ne]
    · simp [aIs, Finmap.lookup_insert_of_ne]

theorem insertBothLinks_spec (consistent : Consistent V net) (nKnown : n ∈ V)
    (mKnown : m ∈ V) (up : Bool) :
    ∃ net', net.insertBothLinks n m up = some net' ∧ Consistent V net' ∧
      net'.nodes = net.nodes ∧ net'.log = net.log ∧
      ∀ a b, net'.linked a b =
        if a = n ∧ b = m ∨ a = m ∧ b = n then up else net.linked a b := by
  obtain ⟨oneWay, firstEq, oneWayConsistent, oneWayNodes, oneWayLog, oneWayLinked⟩ :=
    insertLink_spec consistent nKnown mKnown up
  obtain ⟨both, secondEq, bothConsistent, bothNodes, bothLog, bothLinked⟩ :=
    insertLink_spec oneWayConsistent mKnown nKnown up
  refine ⟨both, by simp [insertBothLinks, firstEq, secondEq], bothConsistent,
    bothNodes.trans oneWayNodes, bothLog.trans oneWayLog, ?_⟩
  intro a b
  rw [bothLinked, oneWayLinked]
  by_cases backward : a = m ∧ b = n
  · simp [backward]
  · by_cases forward : a = n ∧ b = m <;> simp [backward, forward]

theorem view_network_of_bothLinks {up : Bool} (nodesEq : net'.nodes = net.nodes)
    (linkedEq : ∀ a b, net'.linked a b =
      if a = n ∧ b = m ∨ a = m ∧ b = n then up else net.linked a b) :
    net'.view =
      { net.view with network := setLink net.view.network n m (up = true) } := by
  refine State.ext ?_ ?_ ?_
  · funext a; simp [view, ledgerOf, nodesEq]
  · funext a; simp [view, spentOf, nodesEq]
  · funext a b
    apply propext
    change net'.linked a b = true ↔ setLink net.view.network n m (up = true) a b
    rw [setLink_apply, linkedEq a b]
    split <;> simp_all

theorem updateNode_spec (consistent : Consistent V net) (known : n ∈ V)
    (update : Node → Node) :
    ∃ node net', net.nodes.lookup n = some node ∧ net.updateNode n update = some net' ∧
      Consistent V net' ∧ net'.links = net.links ∧ net'.log = net.log ∧
      ∀ id, net'.nodes.lookup id =
        if id = n then some (update node) else net.nodes.lookup id := by
  obtain ⟨node, nodeAt⟩ := consistent.exists_node known
  refine ⟨node, { net with nodes := net.nodes.insert n (update node) }, nodeAt,
    by simp [updateNode, nodeAt], ⟨?_, consistent.rows_known, consistent.columns_known⟩,
    rfl, rfl, ?_⟩
  · intro id
    rw [Finmap.mem_insert, consistent.nodes_known]
    constructor
    · rintro (rfl | isKnown)
      · exact known
      · exact isKnown
    · exact Or.inr
  · intro id
    by_cases isN : id = n
    · subst id; simp
    · simp [isN, Finmap.lookup_insert_of_ne]

theorem ledgerOf_of_lookup {node : Node}
    (lookups : ∀ id, net'.nodes.lookup id = if id = n then some node else net.nodes.lookup id)
    (id : String) :
    net'.ledgerOf id = if id = n then node.ledger else net.ledgerOf id := by
  by_cases isN : id = n <;> simp [ledgerOf, lookups, isN]

theorem spentOf_of_lookup {node : Node}
    (lookups : ∀ id, net'.nodes.lookup id = if id = n then some node else net.nodes.lookup id)
    (id : String) :
    net'.spentOf id = if id = n then node.spent else net.spentOf id := by
  by_cases isN : id = n <;> simp [spentOf, lookups, isN]

theorem view_network_eq (linksEq : net'.links = net.links) :
    net'.view.network = net.view.network := by
  funext a b
  simp [view, linked, isLinked, linksEq]

/-- A call that performs an action of the specification. -/
def Performs (V : Finset String) (net : Network) (action : Action String String)
    (call : Option (Returned NetworkError)) : Prop :=
  Guard V net.view action ∧ ∃ net', call = some (.ok (), net') ∧
    Consistent V net' ∧ net'.view = primed V net.view action

/-- A call that is refused and changes nothing, the log included. -/
def Refuses (V : Finset String) (net : Network) (action : Action String String)
    (call : Option (Returned NetworkError)) : Prop :=
  ¬ Guard V net.view action ∧ ∃ e, call = some (.error e, net)

theorem linkDown_spec (consistent : Consistent V net) (n m : String) :
    Performs V net (.linkDown n m) (net.linkDown n m) ∨
      Refuses V net (.linkDown n m) (net.linkDown n m) := by
  by_cases same : n = m
  · exact Or.inr ⟨fun guard => guard.2.2.1 same, _, by simp [linkDown, same]; rfl⟩
  by_cases known : n ∈ V ∧ m ∈ V
  · have entry := consistent.isLinked_known known.1 known.2
    cases up : net.linked n m with
    | false =>
        rw [up] at entry
        refine Or.inr ⟨fun guard => ?_, _, by simp [linkDown, same, entry]; rfl⟩
        simpa [up] using guard.2.2.2
    | true =>
        rw [up] at entry
        obtain ⟨cut, cutEq, cutConsistent, nodesEq, -, linkedEq⟩ :=
          insertBothLinks_spec consistent known.1 known.2 false
        refine Or.inl ⟨⟨known.1, known.2, same, up⟩, _,
          by simp [linkDown, same, entry, cutEq]; rfl, cutConsistent.record _ _, ?_⟩
        rw [record_view, view_network_of_bothLinks nodesEq linkedEq]
        simp [primed]
  · obtain ⟨e, entry⟩ := consistent.isLinked_unknown known
    exact Or.inr ⟨fun guard => known ⟨guard.1, guard.2.1⟩, e,
      by simp [linkDown, same, entry]⟩

theorem linkUp_spec (consistent : Consistent V net) (n m : String) :
    Performs V net (.linkUp n m) (net.linkUp n m) ∨
      Refuses V net (.linkUp n m) (net.linkUp n m) := by
  by_cases same : n = m
  · exact Or.inr ⟨fun guard => guard.2.2.1 same, _, by simp [linkUp, same]; rfl⟩
  by_cases known : n ∈ V ∧ m ∈ V
  · have entry := consistent.isLinked_known known.1 known.2
    cases up : net.linked n m with
    | true =>
        rw [up] at entry
        refine Or.inr ⟨fun guard => guard.2.2.2 ?_, _, by simp [linkUp, same, entry]; rfl⟩
        simp [up]
    | false =>
        rw [up] at entry
        obtain ⟨nodeM, atM⟩ := consistent.exists_node known.2
        obtain ⟨nodeN, atN⟩ := consistent.exists_node known.1
        let burned := (nodeN.ledger ∪ nodeM.ledger).filter fun b =>
          b ∉ nodeN.spent ∪ nodeM.spent
        obtain ⟨_, first, atN', firstEq, firstConsistent, firstLinks, -, firstNodes⟩ :=
          updateNode_spec consistent known.1 fun node => { node with ledger := burned }
        obtain ⟨_, second, atM', secondEq, secondConsistent, secondLinks, -, secondNodes⟩ :=
          updateNode_spec firstConsistent known.2 fun node => { node with ledger := burned }
        obtain ⟨final, finalEq, finalConsistent, finalNodes, -, finalLinked⟩ :=
          insertBothLinks_spec secondConsistent known.1 known.2 true
        obtain rfl := Option.some_inj.mp (atN.symm.trans atN')
        rw [firstNodes m, if_neg (Ne.symm same), atM, Option.some_inj] at atM'
        subst atM'
        refine Or.inl ⟨⟨known.1, known.2, same, by simp [up]⟩, final.record "LinkUp" s!"{n}-{m}",
          ?_, finalConsistent.record _ _, ?_⟩
        · simp only [linkUp, same, if_false, entry, consistent.nodes_known, known,
            not_true_eq_false, or_self, atN, atM, Option.bind_eq_bind, Option.bind_some]
          change ((net.updateNode n fun node => { node with ledger := burned }).bind _) = _
          rw [firstEq, Option.bind_some]
          change ((first.updateNode m fun node => { node with ledger := burned }).bind _) = _
          rw [secondEq, Option.bind_some, finalEq, Option.bind_some]
        · rw [record_view, view_network_of_bothLinks finalNodes finalLinked]
          have burnedEq : (burned : Set String) = merged net.view n m := by
            ext b
            simp [burned, merged, ledgerOf_some atN, ledgerOf_some atM,
              spentOf_some atN, spentOf_some atM]
          refine State.ext ?_ ?_ ?_
          · funext a
            change (second.ledgerOf a : Set String) = _
            rw [ledgerOf_of_lookup secondNodes, ledgerOf_of_lookup firstNodes]
            by_cases isM : a = m
            · subst a; simp [primed, burnedEq]
            · by_cases isN : a = n
              · subst a; simp [primed, burnedEq, isM]
              · simp [primed, isM, isN]
          · funext a
            change (second.spentOf a : Set String) = (net.spentOf a : Set String)
            rw [spentOf_of_lookup secondNodes, spentOf_of_lookup firstNodes]
            by_cases isM : a = m
            · subst a; simp [spentOf_some atM]
            · by_cases isN : a = n
              · subst a; simp [spentOf_some atN, isM]
              · simp [isM, isN]
          · simp [primed, view_network_eq (secondLinks.trans firstLinks)]
  · obtain ⟨e, entry⟩ := consistent.isLinked_unknown known
    exact Or.inr ⟨fun guard => known ⟨guard.1, guard.2.1⟩, e,
      by simp [linkUp, same, entry]⟩

theorem propagate_spec (consistent : Consistent V net) (src dst : String) :
    Performs V net (.propagate src dst) (net.propagate src dst) ∨
      Refuses V net (.propagate src dst) (net.propagate src dst) := by
  by_cases known : src ∈ V ∧ dst ∈ V
  · have entry := consistent.isLinked_known known.1 known.2
    cases up : net.linked src dst with
    | false =>
        rw [up] at entry
        refine Or.inr ⟨fun guard => ?_, _, by simp [propagate, entry]; rfl⟩
        simpa [up] using guard.2.2.1
    | true =>
        rw [up] at entry
        obtain ⟨nodeSrc, atSrc⟩ := consistent.exists_node known.1
        obtain ⟨nodeDst, atDst⟩ := consistent.exists_node known.2
        let fresh := nodeSrc.ledger.filter fun b => b ∉ nodeDst.spent ∧ b ∉ nodeDst.ledger
        have freshEq : (fresh : Set String) = deliverable net.view src dst := by
          ext b
          simp [fresh, deliverable, ledgerOf_some atSrc, ledgerOf_some atDst,
            spentOf_some atDst, and_assoc]
        have called : net.propagate src dst =
            if fresh = ∅ then
              some (.error ⟨s!"nothing deliverable from {src} to {dst}"⟩, net)
            else
              (net.updateNode dst fun node => { node with ledger := node.ledger ∪ fresh }).bind
                fun net => some (.ok (), net.record "Propagate"
                  s!"{src}->{dst}: {DebugFormat.strings (sorted fresh)}") := by
          simp only [propagate, entry, atSrc, atDst, Option.bind_eq_bind, Option.bind_some]
          rfl
        by_cases empty : fresh = ∅
        · refine Or.inr ⟨fun guard => ?_, _, by rw [called, if_pos empty]⟩
          have nonempty := guard.2.2.2
          rw [← freshEq, empty] at nonempty
          simp at nonempty
        · obtain ⟨_, after, atDst', afterEq, afterConsistent, linksEq, -, lookups⟩ :=
            updateNode_spec consistent known.2 fun node =>
              { node with ledger := node.ledger ∪ fresh }
          obtain rfl := Option.some_inj.mp (atDst.symm.trans atDst')
          have nonempty : (deliverable net.view src dst).Nonempty := by
            rw [← freshEq]
            exact Finset.coe_nonempty.mpr (Finset.nonempty_iff_ne_empty.mpr empty)
          refine Or.inl ⟨⟨known.1, known.2, up, nonempty⟩,
            after.record "Propagate" s!"{src}->{dst}: {DebugFormat.strings (sorted fresh)}",
            by rw [called, if_neg empty, afterEq, Option.bind_some],
            afterConsistent.record _ _, ?_⟩
          rw [record_view]
          refine State.ext ?_ ?_ (view_network_eq linksEq)
          · funext a
            change (after.ledgerOf a : Set String) = _
            rw [ledgerOf_of_lookup lookups]
            by_cases isDst : a = dst
            · subst a; simp [primed, freshEq, view, ledgerOf_some atDst]
            · simp [primed, isDst]
          · funext a
            change (after.spentOf a : Set String) = (net.spentOf a : Set String)
            rw [spentOf_of_lookup lookups]
            by_cases isDst : a = dst
            · subst a; simp [spentOf_some atDst]
            · simp [isDst]
  · obtain ⟨e, entry⟩ := consistent.isLinked_unknown known
    exact Or.inr ⟨fun guard => known ⟨guard.1, guard.2.1⟩, e, by simp [propagate, entry]⟩

/-- A loop that shrinks the ledgers of its targets. -/
def shrinkLedgers (net : Network) (shrink : Finset String → Finset String)
    (targets : Finset String) : Network :=
  { net with
    nodes := modifyAll net.nodes
      (fun node => { node with ledger := shrink node.ledger }) (sorted targets) }

section ShrinkLedgers

variable {shrink : Finset String → Finset String}

theorem ledgerOf_shrinkLedgers (empty : shrink ∅ = ∅)
    (idempotent : ∀ ledger, shrink (shrink ledger) = shrink ledger)
    (net : Network) (targets : Finset String) (id : String) :
    (net.shrinkLedgers shrink targets).ledgerOf id =
      if id ∈ targets then shrink (net.ledgerOf id) else net.ledgerOf id := by
  simp only [ledgerOf, shrinkLedgers]
  rw [lookup_modifyAll _ _ (by simp [idempotent])]
  by_cases isTarget : id ∈ targets
  · cases net.nodes.lookup id <;> simp [isTarget, empty]
  · simp [isTarget]

theorem spentOf_shrinkLedgers
    (idempotent : ∀ ledger, shrink (shrink ledger) = shrink ledger)
    (net : Network) (targets : Finset String) (id : String) :
    (net.shrinkLedgers shrink targets).spentOf id = net.spentOf id := by
  simp only [spentOf, shrinkLedgers]
  rw [lookup_modifyAll _ _ (by simp [idempotent])]
  by_cases isTarget : id ∈ targets
  · cases net.nodes.lookup id <;> simp [isTarget]
  · simp [isTarget]

theorem Consistent.shrinkLedgers (consistent : Consistent V net)
    (idempotent : ∀ ledger, shrink (shrink ledger) = shrink ledger)
    (targets : Finset String) : Consistent V (net.shrinkLedgers shrink targets) := by
  refine ⟨fun id => ?_, consistent.rows_known, consistent.columns_known⟩
  rw [← consistent.nodes_known id, ← Finmap.lookup_isSome, ← Finmap.lookup_isSome,
    Network.shrinkLedgers, lookup_modifyAll _ _ (by simp [idempotent])]
  split <;> simp

end ShrinkLedgers

theorem spendAt_spec (consistent : Consistent V net) (nn bb : String) :
    Performs V net (.spendAt nn bb) (net.spendAt nn bb) ∨
      Refuses V net (.spendAt nn bb) (net.spendAt nn bb) := by
  by_cases holds : bb ∈ net.ledgerOf nn
  · have known : nn ∈ V := by
      by_contra unknown
      simp [consistent.ledgerOf_unknown unknown] at holds
    obtain ⟨node, after, atNn, afterEq, afterConsistent, linksEq, -, lookups⟩ :=
      updateNode_spec consistent known fun node => { node with spent := insert bb node.spent }
    let targets := insert nn (after.connectedTo nn)
    let erase := fun ledger : Finset String => ledger.erase bb
    have eraseTwice : ∀ ledger, erase (erase ledger) = erase ledger := by simp [erase]
    refine Or.inl ⟨⟨known, holds⟩,
      (after.shrinkLedgers erase targets).record "SpendAt" s!"{nn}: {bb}", ?_,
      (afterConsistent.shrinkLedgers eraseTwice targets).record _ _, ?_⟩
    · simp only [spendAt, holds, decide_true, Bool.true_eq_false, if_false,
        Option.bind_eq_bind, afterEq, Option.bind_some]
      rfl
    · rw [record_view]
      have isTarget : ∀ a, a ∈ targets ↔
          a = nn ∨ a ∈ PerLinkSymmetric.connectedTo V net.view nn := by
        intro a
        have linkedSame : after.linked nn a = net.linked nn a := by
          simp [linked, isLinked, linksEq]
        rw [Finset.mem_insert, mem_connectedTo, linkedSame]
        simp only [PerLinkSymmetric.connectedTo, view_network, Set.mem_ofPred_eq,
          Finset.mem_coe]
        constructor
        · rintro (isSpender | ⟨distinct, up⟩)
          · exact Or.inl isSpender
          · exact Or.inr ⟨(consistent.known_of_linked up).2, distinct, up⟩
        · rintro (isSpender | ⟨-, distinct, up⟩)
          · exact Or.inl isSpender
          · exact Or.inr ⟨distinct, up⟩
      have ledgerSame : ∀ a, after.ledgerOf a = net.ledgerOf a := by
        intro a
        rw [ledgerOf_of_lookup lookups]
        split
        · subst a; exact (ledgerOf_some atNn).symm
        · rfl
      refine State.ext ?_ ?_ ?_
      · funext a
        change ((after.shrinkLedgers erase targets).ledgerOf a : Set String) = _
        rw [ledgerOf_shrinkLedgers rfl eraseTwice, ledgerSame]
        by_cases target : a ∈ targets
        · simp [primed, erase, target, (isTarget a).mp target]
        · simp [primed, target, mt (isTarget a).mpr target]
      · funext a
        change ((after.shrinkLedgers erase targets).spentOf a : Set String) = _
        rw [spentOf_shrinkLedgers eraseTwice, spentOf_of_lookup lookups]
        by_cases isSpender : a = nn
        · subst a; simp [primed, spentOf_some atNn]
        · simp [primed, isSpender]
      · funext a b
        change ((after.shrinkLedgers erase targets).linked a b = true) = _
        simp [linked, isLinked, linksEq, primed, shrinkLedgers]
  · refine Or.inr ⟨fun guard => holds guard.2, _, by simp [spendAt, holds]; rfl⟩

end HabiCore.Network
