import HabiCore.PairwiseSync
import HabiCore.SettlementAgreement

/-!
# What a settlement establishes

The barrier is run on a network of any shape: nothing is assumed of its ledgers,
spent sets and links, nor of who takes part.
-/

namespace HabiCore.Network

variable {net net' : Network} {participants : Option (Finset String)}

theorem violations_spentReports_congr {taking taking' : Finset String}
    (same : ∀ id b, id ∈ taking ∧ b ∈ net.spentOf id ↔ id ∈ taking' ∧ b ∈ net'.spentOf id) :
    (SpentBy.gather (net.spentReports taking)).violations =
      (SpentBy.gather (net'.spentReports taking')).violations := by
  apply SpentBy.violations_congr
  intro b
  ext id
  rw [mem_spendersOf_spentReports, mem_spendersOf_spentReports, same]

theorem mem_nodes_of_mem_spentOf {id b : String} (isSpent : b ∈ net.spentOf id) :
    id ∈ net.nodes := by
  cases nodeAt : net.nodes.lookup id with
  | none => simp [spentOf, nodeAt] at isSpent
  | some node => exact Finmap.mem_of_lookup_eq_some nodeAt

/-- The facts about a network that a barrier has settled. -/
structure Settles (net : Network) (taking : Finset String) (net' : Network) : Prop where
  keys : net'.nodes.keys = net.nodes.keys
  links : net'.links = net.links
  bystanders : ∀ id ∉ taking, net'.nodes.lookup id = net.nodes.lookup id
  spent : ∀ id, net'.spentOf id = net.spentOf id
  ledger : ∀ id, net'.ledgerOf id =
    if id ∈ taking then net.ledgerOf id \ taking.biUnion net.spentOf else net.ledgerOf id
  quiet : (SpentBy.gather (net.spentReports taking)).violations = []

theorem settles_of_ok (settled : net.runConversionDay participants = (.ok (), net')) :
    Settles net (participants.getD net.nodes.keys) net' := by
  rcases runConversionDay_cases net participants with
    ⟨-, refused⟩ | ⟨quiet, after, entry, performed, links, -, lookups⟩
  · rw [settled] at refused
    cases refused
  · obtain rfl : net' = after := by simpa [settled] using performed
    refine ⟨?_, links, ?_, ?_, ?_, quiet⟩
    · ext id
      rw [Finmap.mem_keys, Finmap.mem_keys, ← Finmap.lookup_isSome, ← Finmap.lookup_isSome,
        lookups]
      split <;> simp
    · intro id outside
      rw [lookups, if_neg outside]
    · intro id
      by_cases takesPart : id ∈ participants.getD net.nodes.keys
      · cases nodeAt : net.nodes.lookup id <;> simp [spentOf, lookups, takesPart, nodeAt]
      · simp [spentOf, lookups, takesPart]
    · intro id
      by_cases takesPart : id ∈ participants.getD net.nodes.keys
      · cases nodeAt : net.nodes.lookup id <;> simp [ledgerOf, lookups, takesPart, nodeAt]
      · simp [ledgerOf, lookups, takesPart]

namespace Settles

variable {taking : Finset String}

theorem ledger_subset (settles : Settles net taking net') (id : String) :
    net'.ledgerOf id ⊆ net.ledgerOf id := by
  rw [settles.ledger]
  split
  · exact Finset.sdiff_subset
  · exact subset_rfl

theorem unheld (settles : Settles net taking net') {holder spender b : String}
    (holds : holder ∈ taking) (spends : spender ∈ taking) (isSpent : b ∈ net'.spentOf spender) :
    b ∉ net'.ledgerOf holder := by
  rw [settles.ledger, if_pos holds, Finset.mem_sdiff]
  rw [settles.spent] at isSpent
  intro isHeld
  exact isHeld.2 (Finset.mem_biUnion.mpr ⟨spender, spends, isSpent⟩)

theorem getD_keys (settles : Settles net (participants.getD net.nodes.keys) net') :
    participants.getD net'.nodes.keys = participants.getD net.nodes.keys := by
  rw [settles.keys]

theorem checkPostBarrierSafety (settles : Settles net (participants.getD net.nodes.keys) net') :
    net'.checkPostBarrierSafety participants = true := by
  simp only [Network.checkPostBarrierSafety, settles.getD_keys, decide_eq_true_eq]
  rintro holder holds ⟨b, isHeld, isSpent⟩
  obtain ⟨spender, spends, spentThere⟩ := Finset.mem_biUnion.mp isSpent
  exact settles.unheld holds spends spentThere isHeld

theorem burned_of_lost (settles : Settles net taking net') {id b : String}
    (wasHeld : b ∈ net.ledgerOf id) (lost : b ∉ net'.ledgerOf id) :
    ∃ p ∈ taking, b ∈ net.spentOf p := by
  rw [settles.ledger] at lost
  split at lost
  · rw [Finset.mem_sdiff, not_and, not_not] at lost
    exact Finset.mem_biUnion.mp (lost wasHeld)
  · exact (lost wasHeld).elim

/-- A second barrier finds nothing to burn. -/
theorem again (settles : Settles net (participants.getD net.nodes.keys) net') :
    ∃ later, net'.runConversionDay participants = (.ok (), later) ∧
      ∀ id, later.ledgerOf id = net'.ledgerOf id := by
  have quietAgain :
      (SpentBy.gather (net'.spentReports (participants.getD net'.nodes.keys))).violations = [] := by
    rw [settles.getD_keys, ← settles.quiet]
    apply violations_spentReports_congr
    intro id b
    rw [settles.spent]
  rcases runConversionDay_cases net' participants with
    ⟨loud, -⟩ | ⟨-, later, entry, performed, -⟩
  · exact (loud quietAgain).elim
  · refine ⟨later, performed, fun id => ?_⟩
    have settlesAgain := settles_of_ok performed
    rw [settles.getD_keys] at settlesAgain
    rw [settlesAgain.ledger]
    split
    · rename_i holds
      rw [Finset.sdiff_eq_self_iff_disjoint, Finset.disjoint_left]
      intro b isHeld isSpent
      obtain ⟨spender, spends, spentThere⟩ := Finset.mem_biUnion.mp isSpent
      exact settles.unheld holds spends spentThere isHeld
    · rfl

theorem noDoubleSpendAcrossNodes (settles : Settles net taking net')
    (all : net.nodes.keys ⊆ taking) : net'.noDoubleSpendAcrossNodes = [] := by
  rw [← violations_allNodes, ← settles.quiet]
  apply violations_spentReports_congr
  intro id b
  rw [settles.spent, settles.keys]
  constructor
  · rintro ⟨known, isSpent⟩
    exact ⟨all known, isSpent⟩
  · rintro ⟨-, isSpent⟩
    exact ⟨Finmap.mem_keys.mpr (mem_nodes_of_mem_spentOf isSpent), isSpent⟩

theorem pairwiseSyncedNoDoubleSpend (settles : Settles net taking net')
    (all : net.nodes.keys ⊆ taking) : net'.pairwiseSyncedNoDoubleSpend = [] := by
  rw [pairwiseSyncedNoDoubleSpend_eq_nil_iff]
  have takesPart : ∀ id, id ∈ net'.nodes → id ∈ taking := by
    intro id known
    apply all
    rw [← settles.keys]
    exact Finmap.mem_keys.mpr known
  intro n1 n1In n2 n2In _ _ b isSpent
  rcases isSpent with byFirst | bySecond
  · exact ⟨settles.unheld (takesPart n1 n1In) (takesPart n1 n1In) byFirst,
      settles.unheld (takesPart n2 n2In) (takesPart n1 n1In) byFirst⟩
  · exact ⟨settles.unheld (takesPart n1 n1In) (takesPart n2 n2In) bySecond,
      settles.unheld (takesPart n2 n2In) (takesPart n2 n2In) bySecond⟩

end Settles

/-- The barrier on an arbitrary network.  If it succeeds, its participants pass
the check made afterwards, nothing else has changed, nothing was burned that no
participant has spent, running it again changes no ledger, and with all nodes
taking part both reports of the network are empty.  If it fails, nothing has
changed at all. -/
theorem conversionDay_establishes_checks (net : Network)
    (participants : Option (Finset String)) :
    (∀ net', net.runConversionDay participants = (.ok (), net') →
      net'.checkPostBarrierSafety participants = true ∧
      (∀ id ∉ participants.getD net.nodes.keys,
        net'.nodes.lookup id = net.nodes.lookup id) ∧
      (∀ id, net'.spentOf id = net.spentOf id) ∧
      net'.links = net.links ∧
      (∀ id, net'.ledgerOf id ⊆ net.ledgerOf id) ∧
      (∀ id, ∀ b ∈ net.ledgerOf id, b ∉ net'.ledgerOf id →
        ∃ p ∈ participants.getD net.nodes.keys, b ∈ net.spentOf p) ∧
      (∃ later, net'.runConversionDay participants = (.ok (), later) ∧
        ∀ id, later.ledgerOf id = net'.ledgerOf id) ∧
      (net.nodes.keys ⊆ participants.getD net.nodes.keys →
        net'.noDoubleSpendAcrossNodes = [] ∧ net'.pairwiseSyncedNoDoubleSpend = [])) ∧
    ∀ e net', net.runConversionDay participants = (.error e, net') → net' = net := by
  constructor
  · intro net' settled
    have settles := settles_of_ok settled
    exact ⟨settles.checkPostBarrierSafety, settles.bystanders, settles.spent, settles.links,
      settles.ledger_subset, fun id b wasHeld lost => settles.burned_of_lost wasHeld lost,
      settles.again, fun all =>
        ⟨settles.noDoubleSpendAcrossNodes all, settles.pairwiseSyncedNoDoubleSpend all⟩⟩
  · intro e net' failed
    rcases runConversionDay_cases net participants with
      ⟨-, refused⟩ | ⟨-, after, entry, performed, -⟩
    · rw [failed] at refused
      exact (Prod.mk.inj refused).2
    · rw [failed] at performed
      cases performed

def relaying : List (PerLinkSymmetric.Action String String) :=
  [.propagate "N2" "N1", .linkDown "N1" "N2", .spendAt "N1" "b2", .propagate "N2" "N3"]

/-- The barrier repairs what a propagation has relayed. -/
theorem conversionDay_establishes_checks_afterRelay :
    ∃ net net' : Network, net.pairwiseSyncedNoDoubleSpend ≠ [] ∧
      net.runConversionDay none = (.ok (), net') ∧
      net'.checkPostBarrierSafety none = true ∧
      net'.noDoubleSpendAcrossNodes = [] ∧ net'.pairwiseSyncedNoDoubleSpend = [] := by
  have outcome : (makeInitNetwork.performAll relaying).map (fun net =>
      (net.pairwiseSyncedNoDoubleSpend.isEmpty, (net.runConversionDay none).1.isOk)) =
      some (false, true) := by decide
  obtain ⟨net, -, reports⟩ := Option.map_eq_some_iff.mp outcome
  obtain ⟨violated, accepted⟩ := Prod.mk.inj reports
  have settled : ∃ net', net.runConversionDay none = (.ok (), net') := by
    cases result : net.runConversionDay none with
    | mk outcome net' =>
        rw [result] at accepted
        cases outcome with
        | ok value => exact ⟨net', rfl⟩
        | error e => cases accepted
  obtain ⟨net', settled⟩ := settled
  obtain ⟨safe, -, -, -, -, -, -, allNodes⟩ :=
    (conversionDay_establishes_checks net none).1 net' settled
  refine ⟨net, net', ?_, settled, safe, allNodes subset_rfl⟩
  intro empty
  simp [empty] at violated

end HabiCore.Network
