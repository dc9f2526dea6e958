import HabiCore.ConversionDayCoordinator
import HabiCore.NetworkRuns

/-!
# The two settlement implementations agree

The centralized barrier works on the network, the coordinator on snapshots of
it, and the network itself can report its double spends.  All three group spent
bearers by their spenders, each in a loop of its own.
-/

namespace HabiCore

/-- The bearers of a set that have several spenders, sorted, each with its sorted
spenders. -/
def conflictReport (spendersOf : String → Finset String) (bearers : Finset String) :
    List (String × List String) :=
  (sorted bearers).filterMap fun bearer =>
    if 1 < (spendersOf bearer).card then some (bearer, sorted (spendersOf bearer)) else none

section ConflictReport

variable {spendersOf spendersOf' : String → Finset String} {bearers bearers' : Finset String}

theorem conflictReport_eq_map (spendersOf : String → Finset String) (bearers : Finset String) :
    conflictReport spendersOf bearers =
      (sorted (bearers.filter fun bearer => 1 < (spendersOf bearer).card)).map
        fun bearer => (bearer, sorted (spendersOf bearer)) := by
  rw [← filter_sorted, conflictReport]
  induction sorted bearers with
  | nil => rfl
  | cons bearer rest ih =>
      by_cases several : 1 < (spendersOf bearer).card <;> simp [several, ih]

/-- A report depends on the bearers with several spenders only. -/
theorem conflictReport_congr (sameSpenders : ∀ bearer, spendersOf bearer = spendersOf' bearer)
    (sameBearers : ∀ bearer, 1 < (spendersOf bearer).card →
      (bearer ∈ bearers ↔ bearer ∈ bearers')) :
    conflictReport spendersOf bearers = conflictReport spendersOf' bearers' := by
  obtain rfl : spendersOf = spendersOf' := funext sameSpenders
  have same : (bearers.filter fun bearer => 1 < (spendersOf bearer).card) =
      bearers'.filter fun bearer => 1 < (spendersOf bearer).card := by
    ext bearer
    simp only [Finset.mem_filter]
    constructor
    · rintro ⟨member, several⟩
      exact ⟨(sameBearers bearer several).mp member, several⟩
    · rintro ⟨member, several⟩
      exact ⟨(sameBearers bearer several).mpr member, several⟩
  rw [conflictReport_eq_map, conflictReport_eq_map, same]

theorem mem_conflictReport {bearer : String} {spenders : List String} :
    (bearer, spenders) ∈ conflictReport spendersOf bearers ↔
      bearer ∈ bearers ∧ 1 < (spendersOf bearer).card ∧ spenders = sorted (spendersOf bearer) := by
  rw [conflictReport_eq_map]
  simp only [List.mem_map, mem_sorted, Finset.mem_filter, Prod.mk.injEq]
  constructor
  · rintro ⟨_, ⟨member, several⟩, rfl, rfl⟩
    exact ⟨member, several, rfl⟩
  · rintro ⟨member, several, rfl⟩
    exact ⟨bearer, ⟨member, several⟩, rfl, rfl⟩

theorem pairwise_conflictReport (spendersOf : String → Finset String)
    (bearers : Finset String) :
    ((conflictReport spendersOf bearers).map Prod.fst).Pairwise (· < ·) := by
  rw [conflictReport_eq_map, List.map_map]
  have firsts : (Prod.fst ∘ fun bearer => (bearer, sorted (spendersOf bearer))) = id := rfl
  rw [firsts, List.map_id]
  exact pairwise_sorted _

end ConflictReport

namespace SpentBy

theorem violations_eq_conflictReport (spentBy : SpentBy) :
    spentBy.violations = conflictReport spentBy.spendersOf spentBy.keys := rfl

theorem mem_keys_of_several {spentBy : SpentBy} {bearer : String}
    (several : 1 < (spentBy.spendersOf bearer).card) : bearer ∈ spentBy.keys := by
  have nonempty : (spentBy.spendersOf bearer).Nonempty := by
    rw [← Finset.card_pos]
    omega
  obtain ⟨nid, member⟩ := nonempty
  exact Finmap.mem_keys.mpr (mem_of_mem_spendersOf member)

theorem violations_congr {spentBy spentBy' : SpentBy}
    (same : ∀ bearer, spentBy.spendersOf bearer = spentBy'.spendersOf bearer) :
    spentBy.violations = spentBy'.violations := by
  rw [violations_eq_conflictReport, violations_eq_conflictReport]
  apply conflictReport_congr same
  intro bearer several
  have several' : 1 < (spentBy'.spendersOf bearer).card := same bearer ▸ several
  exact iff_of_true (mem_keys_of_several several) (mem_keys_of_several several')

end SpentBy

namespace Network

def snapshotsOf (net : Network) (participants : Finset String) : List PeerSnapshot :=
  (sorted participants).filterMap fun nid =>
    (net.nodes.lookup nid).map fun node => ⟨nid, node.ledger, node.spent⟩

variable {net : Network} {participants : Finset String} {snapshots : List PeerSnapshot}

theorem mem_snapshotsOf {snap : PeerSnapshot} :
    snap ∈ net.snapshotsOf participants ↔
      snap.nodeId ∈ participants ∧ ∃ node, net.nodes.lookup snap.nodeId = some node ∧
        snap.ledger = node.ledger ∧ snap.spent = node.spent := by
  simp only [snapshotsOf, List.mem_filterMap, mem_sorted, Option.map_eq_some_iff]
  constructor
  · rintro ⟨nid, member, node, nodeAt, rfl⟩
    exact ⟨member, node, nodeAt, rfl, rfl⟩
  · rintro ⟨member, node, nodeAt, ledgerEq, spentEq⟩
    obtain ⟨nid, ledger, spent⟩ := snap
    subst ledgerEq spentEq
    exact ⟨nid, member, node, nodeAt, rfl⟩

section Agreement

variable (lists : snapshots.Perm (net.snapshotsOf participants))
include lists

theorem mem_snapshot_iff {nid b : String} :
    (∃ snap ∈ snapshots, snap.nodeId = nid ∧ b ∈ snap.spent) ↔
      nid ∈ participants ∧ b ∈ net.spentOf nid := by
  simp only [lists.mem_iff, mem_snapshotsOf]
  constructor
  · rintro ⟨snap, ⟨member, node, nodeAt, -, spentEq⟩, rfl, isSpent⟩
    rw [spentOf_some nodeAt, ← spentEq]
    exact ⟨member, isSpent⟩
  · rintro ⟨member, isSpent⟩
    cases nodeAt : net.nodes.lookup nid with
    | none => simp [spentOf, nodeAt] at isSpent
    | some node =>
        rw [spentOf_some nodeAt] at isSpent
        exact ⟨⟨nid, node.ledger, node.spent⟩, ⟨member, node, nodeAt, rfl, rfl⟩, rfl, isSpent⟩

theorem mem_snapshot_ledger_iff {b : String} :
    (∃ snap ∈ snapshots, b ∈ snap.ledger) ↔ ∃ nid ∈ participants, b ∈ net.ledgerOf nid := by
  simp only [lists.mem_iff, mem_snapshotsOf]
  constructor
  · rintro ⟨snap, ⟨member, node, nodeAt, ledgerEq, -⟩, isHeld⟩
    refine ⟨snap.nodeId, member, ?_⟩
    rwa [ledgerOf_some nodeAt, ← ledgerEq]
  · rintro ⟨nid, member, isHeld⟩
    cases nodeAt : net.nodes.lookup nid with
    | none => simp [ledgerOf, nodeAt] at isHeld
    | some node =>
        rw [ledgerOf_some nodeAt] at isHeld
        exact ⟨⟨nid, node.ledger, node.spent⟩, ⟨member, node, nodeAt, rfl, rfl⟩, isHeld⟩

theorem spendersOf_snapshots (bearer : String) :
    (SpentBy.gather (HabiCore.spentReports snapshots)).spendersOf bearer =
      (SpentBy.gather (net.spentReports participants)).spendersOf bearer := by
  ext nid
  rw [HabiCore.mem_spendersOf_spentReports, mem_spendersOf_spentReports, mem_snapshot_iff lists]

theorem globalSpent_snapshots : globalSpent snapshots = participants.biUnion net.spentOf := by
  ext b
  rw [mem_globalSpent, Finset.mem_biUnion]
  constructor
  · rintro ⟨snap, member, isSpent⟩
    obtain ⟨taking, spentThere⟩ := (mem_snapshot_iff lists).mp ⟨snap, member, rfl, isSpent⟩
    exact ⟨snap.nodeId, taking, spentThere⟩
  · rintro ⟨nid, taking, spentThere⟩
    obtain ⟨snap, member, -, isSpent⟩ := (mem_snapshot_iff lists).mpr ⟨taking, spentThere⟩
    exact ⟨snap, member, isSpent⟩

theorem keys_gather_snapshots :
    (SpentBy.gather (HabiCore.spentReports snapshots)).keys =
      participants.biUnion net.spentOf := by
  rw [← globalSpent_snapshots lists]
  ext b
  rw [Finmap.mem_keys, SpentBy.mem_gather, mem_globalSpent]
  simp [HabiCore.spentReports]

theorem checkPostConversionDaySafety_snapshots :
    checkPostConversionDaySafety snapshots = net.checkPostBarrierSafety (some participants) := by
  rw [Bool.eq_iff_iff]
  simp only [checkPostConversionDaySafety, checkPostBarrierSafety, List.all_eq_true,
    Bool.not_eq_true', decide_eq_false_iff_not, decide_eq_true_eq, Option.getD_some,
    globalSpent_snapshots lists]
  constructor
  · rintro safe nid member ⟨b, isHeld, isSpent⟩
    obtain ⟨snap, snapIn, heldThere⟩ := (mem_snapshot_ledger_iff lists).mpr ⟨nid, member, isHeld⟩
    exact safe snap snapIn ⟨b, heldThere, isSpent⟩
  · rintro safe snap snapIn ⟨b, isHeld, isSpent⟩
    obtain ⟨nid, member, heldThere⟩ := (mem_snapshot_ledger_iff lists).mp ⟨snap, snapIn, isHeld⟩
    exact safe nid member ⟨b, heldThere, isSpent⟩

end Agreement

/-- With all nodes taking part, the conflicts are the double spends the network
reports. -/
theorem violations_allNodes (net : Network) :
    (SpentBy.gather (net.spentReports net.nodes.keys)).violations =
      net.noDoubleSpendAcrossNodes := by
  rw [SpentBy.violations_eq_conflictReport]
  change _ = conflictReport
    (fun b => net.nodes.keys.filter fun id => b ∈ net.spentOf id)
    (net.nodes.keys.biUnion fun id => net.ledgerOf id ∪ net.spentOf id)
  have sameSpenders : ∀ b, (SpentBy.gather (net.spentReports net.nodes.keys)).spendersOf b =
      net.nodes.keys.filter fun id => b ∈ net.spentOf id := by
    intro b
    ext nid
    rw [mem_spendersOf_spentReports, Finset.mem_filter]
  apply conflictReport_congr sameSpenders
  intro b several
  refine iff_of_true (SpentBy.mem_keys_of_several several) ?_
  rw [sameSpenders] at several
  obtain ⟨nid, member⟩ := Finset.card_pos.mp (Nat.zero_lt_of_lt several)
  obtain ⟨known, isSpent⟩ := Finset.mem_filter.mp member
  exact Finset.mem_biUnion.mpr ⟨nid, known, Finset.mem_union_right _ isSpent⟩

def spendersOf (net : Network) (b : String) : Finset String :=
  net.nodes.keys.filter fun id => b ∈ net.spentOf id

theorem mem_sorted_spendersOf {net : Network} {b id : String} :
    id ∈ sorted (net.spendersOf b) ↔ id ∈ net.nodes ∧ b ∈ net.spentOf id := by
  simp [spendersOf, Finmap.mem_keys]

/-- The double spends reported: exactly the bearers with several spenders, each
with all of its spenders. -/
theorem mem_noDoubleSpendAcrossNodes (net : Network) (b : String) (spenders : List String) :
    (b, spenders) ∈ net.noDoubleSpendAcrossNodes ↔
      1 < spenders.length ∧ spenders.Pairwise (· < ·) ∧
        ∀ id, id ∈ spenders ↔ id ∈ net.nodes ∧ b ∈ net.spentOf id := by
  have entry : (b, spenders) ∈ net.noDoubleSpendAcrossNodes ↔
      b ∈ (net.nodes.keys.biUnion fun id => net.ledgerOf id ∪ net.spentOf id) ∧
        1 < (net.spendersOf b).card ∧ spenders = sorted (net.spendersOf b) := mem_conflictReport
  have lengthEq : (sorted (net.spendersOf b)).length = (net.spendersOf b).card := by
    rw [← Multiset.coe_card, coe_sorted, Finset.card_def]
  rw [entry]
  constructor
  · rintro ⟨-, several, rfl⟩
    exact ⟨lengthEq ▸ several, pairwise_sorted _, fun id => mem_sorted_spendersOf⟩
  · rintro ⟨several, increasing, complete⟩
    have same : spenders = sorted (net.spendersOf b) := by
      have perm : spenders.Perm (sorted (net.spendersOf b)) := by
        rw [List.perm_ext_iff_of_nodup (increasing.imp ne_of_lt) (nodup_sorted _)]
        intro id
        rw [complete, mem_sorted_spendersOf]
      exact perm.eq_of_pairwise' increasing (pairwise_sorted _)
    subst same
    obtain ⟨id, member⟩ := List.length_pos_iff_exists_mem.mp (Nat.zero_lt_of_lt several)
    obtain ⟨known, isSpent⟩ := mem_sorted_spendersOf.mp member
    refine ⟨?_, lengthEq ▸ several, rfl⟩
    exact Finset.mem_biUnion.mpr
      ⟨id, Finmap.mem_keys.mpr known, Finset.mem_union_right _ isSpent⟩

/-- What the barrier does to a network, apart from the log: the participants it
knows lose the burned bearers. -/
structure Burned (net : Network) (participants burned : Finset String) (net' : Network) :
    Prop where
  participating : ∀ id ∈ participants, net'.nodes.lookup id =
    (net.nodes.lookup id).map fun node => { node with ledger := node.ledger \ burned }
  bystanders : ∀ id ∉ participants, net'.nodes.lookup id = net.nodes.lookup id
  links : net'.links = net.links

/-- Whatever the network, its participants and the order of the snapshots: both
settlements report the same conflicts, or both accept and the barrier burns what
the coordinator computes; both checks agree; and for all nodes the conflicts are
the double spends of the network, each bearer once, with all of its spenders. -/
theorem settlements_agree (net : Network) (participants : Finset String)
    (snapshots : List PeerSnapshot) (lists : snapshots.Perm (net.snapshotsOf participants)) :
    ((∃ violations, computeConversionDay snapshots = .error ⟨violations⟩ ∧
        net.runConversionDay (some participants) = (.error ⟨violations⟩, net)) ∨
      ∃ net', computeConversionDay snapshots = .ok (participants.biUnion net.spentOf) ∧
        net.runConversionDay (some participants) = (.ok (), net') ∧
        Burned net participants (participants.biUnion net.spentOf) net') ∧
    checkPostConversionDaySafety snapshots = net.checkPostBarrierSafety (some participants) ∧
    (participants = net.nodes.keys →
      (net.runConversionDay (some participants)).1 =
        if net.noDoubleSpendAcrossNodes = [] then .ok ()
        else .error ⟨net.noDoubleSpendAcrossNodes⟩) ∧
    (net.noDoubleSpendAcrossNodes.map Prod.fst).Pairwise (· < ·) ∧
    ∀ b spenders, (b, spenders) ∈ net.noDoubleSpendAcrossNodes ↔
      1 < spenders.length ∧ spenders.Pairwise (· < ·) ∧
        ∀ id, id ∈ spenders ↔ id ∈ net.nodes ∧ b ∈ net.spentOf id := by
  have sameViolations := SpentBy.violations_congr (spendersOf_snapshots lists)
  have cases := runConversionDay_cases net (some participants)
  simp only [Option.getD_some] at cases
  refine ⟨?_, checkPostConversionDaySafety_snapshots lists, ?_, pairwise_conflictReport _ _,
    mem_noDoubleSpendAcrossNodes net⟩
  · rcases cases with ⟨loud, refused⟩ | ⟨quiet, net', entry, performed, links, -, lookups⟩
    · left
      refine ⟨_, ?_, refused⟩
      simp only [computeConversionDay, sameViolations]
      rw [if_pos loud]
    · right
      refine ⟨net', ?_, performed, ?_, ?_, links⟩
      · simp only [computeConversionDay, sameViolations]
        rw [if_neg (not_not.mpr quiet), keys_gather_snapshots lists]
      · intro id member
        rw [lookups, if_pos member]
      · intro id outside
        rw [lookups, if_neg outside]
  · rintro rfl
    rw [violations_allNodes] at cases
    rcases cases with ⟨loud, refused⟩ | ⟨quiet, net', entry, performed, -⟩
    · rw [refused, if_neg loud]
    · rw [performed, if_pos quiet]

/-- Agreement on the network of the demonstration scenarios, with an unknown
participant and the snapshots in another order. -/
theorem settlements_agree_makeInitNetwork :
    ∃ net', computeConversionDay [⟨"N2", {"b2"}, ∅⟩, ⟨"N1", {"b1"}, ∅⟩] =
        .ok (({"N1", "N2", "N9"} : Finset String).biUnion makeInitNetwork.spentOf) ∧
      makeInitNetwork.runConversionDay (some {"N1", "N2", "N9"}) = (.ok (), net') ∧
      Burned makeInitNetwork {"N1", "N2", "N9"}
        (({"N1", "N2", "N9"} : Finset String).biUnion makeInitNetwork.spentOf) net' := by
  have lists : ([⟨"N2", {"b2"}, ∅⟩, ⟨"N1", {"b1"}, ∅⟩] : List PeerSnapshot).Perm
      (makeInitNetwork.snapshotsOf {"N1", "N2", "N9"}) := by decide
  have accepted : (computeConversionDay
      [⟨"N2", {"b2"}, ∅⟩, ⟨"N1", {"b1"}, ∅⟩]).toOption.isSome = true := by decide
  rcases (settlements_agree makeInitNetwork _ _ lists).1 with ⟨violations, refused, -⟩ | agree
  · rw [refused] at accepted
    cases accepted
  · exact agree

end Network

end HabiCore
