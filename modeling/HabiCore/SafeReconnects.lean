import HabiCore.HabiSafety
import HabiCore.SettlementEffects
import Mathlib.Data.Finset.Powerset

/-!
# Conversion Day and the safe reconnection

`run_conversion_day` is to be the safe reconnection of the generic model, and the
barrier extracted from that model is to do the same for three nodes and two bearers.
This file says when they do.
-/

namespace HabiCore

namespace HabiSafety

def Node3.name : Node3 → String
  | .N1 => "N1"
  | .N2 => "N2"
  | .N3 => "N3"

def Bearer2.name : Bearer2 → String
  | .b1 => "b1"
  | .b2 => "b2"

theorem Node3.exists_name {n : String} (isNode : n ∈ ({"N1", "N2", "N3"} : Finset String)) :
    ∃ node : Node3, node.name = n := by
  simp only [Finset.mem_insert, Finset.mem_singleton] at isNode
  rcases isNode with rfl | rfl | rfl
  · exact ⟨.N1, rfl⟩
  · exact ⟨.N2, rfl⟩
  · exact ⟨.N3, rfl⟩

theorem Bearer2.exists_name {b : String} (isBearer : b ∈ ({"b1", "b2"} : Finset String)) :
    ∃ bearer : Bearer2, bearer.name = b := by
  simp only [Finset.mem_insert, Finset.mem_singleton] at isBearer
  rcases isBearer with rfl | rfl
  · exact ⟨.b1, rfl⟩
  · exact ⟨.b2, rfl⟩

end HabiSafety

namespace Network

open HabiSafety (SStep StateExe Node3 Bearer2 runConversionDayExe)

variable {net net' : Network} {n b : String}

/-- A network as a state of the generic model. -/
def globalView (net : Network) (up : Bool) : HabiSafety.State String String where
  ledgers n := net.ledgerOf n
  spent n := net.spentOf n
  networkUp := up

/-- A network as a state of the extracted functions. -/
def exeView (net : Network) (up : Bool) : StateExe where
  ledgersExe n b := decide (b.name ∈ net.ledgerOf n.name)
  spentExe n b := decide (b.name ∈ net.spentOf n.name)
  networkUpExe := up

theorem mem_nodes_of_mem_ledgerOf (isHeld : b ∈ net.ledgerOf n) : n ∈ net.nodes := by
  cases nodeAt : net.nodes.lookup n with
  | none => simp [ledgerOf, nodeAt] at isHeld
  | some node => exact Finmap.mem_of_lookup_eq_some nodeAt

theorem exists_ok_of_isOk (accepted : (net.runConversionDay none).1.isOk = true) :
    ∃ net', net.runConversionDay none = (.ok (), net') := by
  rcases runConversionDay_cases net none with ⟨-, refused⟩ | ⟨-, net', entry, performed, -⟩
  · simp [refused, Except.isOk, Except.toBool] at accepted
  · exact ⟨net', performed⟩

theorem mem_ledgerOf_settled (called : net.runConversionDay none = (.ok (), net')) :
    b ∈ net'.ledgerOf n ↔ b ∈ net.ledgerOf n ∧ ∀ m, b ∉ net.spentOf m := by
  have settles := settles_of_ok called
  have everybody : ∀ m, b ∈ net.spentOf m →
      b ∈ (net.nodes.keys).biUnion net.spentOf := fun m isSpent =>
    Finset.mem_biUnion.mpr ⟨m, Finmap.mem_keys.mpr (mem_nodes_of_mem_spentOf isSpent), isSpent⟩
  have known : n ∉ net.nodes.keys → b ∉ net.ledgerOf n := fun unknown isHeld =>
    unknown (Finmap.mem_keys.mpr (mem_nodes_of_mem_ledgerOf isHeld))
  rw [settles.ledger, Option.getD_none]
  by_cases takesPart : n ∈ net.nodes.keys
  · rw [if_pos takesPart, Finset.mem_sdiff]
    refine and_congr_right fun _ => ⟨fun unburned m isSpent => unburned (everybody m isSpent), ?_⟩
    intro unspent isBurned
    obtain ⟨m, -, isSpent⟩ := Finset.mem_biUnion.mp isBurned
    exact unspent m isSpent
  · rw [if_neg takesPart]
    simp [known takesPart]

/-- A settlement of all nodes is a safe reconnection of the generic model exactly if
no unspent bearer has two holders. -/
theorem settlement_isSafeReconnect_iff (called : net.runConversionDay none = (.ok (), net')) :
    (∃ finalLedgers, SStep (net.globalView false) (.safeReconnect finalLedgers)
      (net'.globalView true)) ↔
    ∀ b, (∀ m, b ∉ net.spentOf m) →
      ∀ n m, b ∈ net.ledgerOf n → b ∈ net.ledgerOf m → n = m := by
  have ledgers : ∀ n b, b ∈ net'.ledgerOf n ↔ b ∈ net.ledgerOf n ∧ ∀ m, b ∉ net.spentOf m :=
    fun n b => mem_ledgerOf_settled called
  have spent : ∀ n, net'.spentOf n = net.spentOf n := (settles_of_ok called).spent
  constructor
  · rintro ⟨finalLedgers, ⟨-, -, -, single⟩, isNext⟩ b unspent n m byN byM
    have same : finalLedgers = (net'.globalView true).ledgers := by
      rw [isNext]
      rfl
    subst same
    exact single b n m ((ledgers n b).mpr ⟨byN, unspent⟩) ((ledgers m b).mpr ⟨byM, unspent⟩)
  · intro single
    refine ⟨(net'.globalView true).ledgers, ⟨rfl, fun n b isHeld => ?_, fun n b isHeld => ?_,
      fun b n m byN byM => ?_⟩, ?_⟩
    · exact ⟨n, ((ledgers n b).mp isHeld).1⟩
    · rintro ⟨m, isSpent⟩
      exact ((ledgers n b).mp isHeld).2 m isSpent
    · have byN := (ledgers n b).mp byN
      exact single b byN.2 n m byN.1 ((ledgers m b).mp byM).1
    · simp [globalView, HabiSafety.primed, spent]

/-- After one copy in the demonstration scenario, the settlement is not a safe
reconnection. -/
theorem settlement_isSafeReconnect_iff_afterCopy :
    ∃ net net' : Network, net.runConversionDay none = (.ok (), net') ∧
      ¬ ∃ finalLedgers, SStep (net.globalView false) (.safeReconnect finalLedgers)
        (net'.globalView true) := by
  have outcome : (makeInitNetwork.performAll [.propagate "N2" "N1"]).map (fun net =>
      ((net.runConversionDay none).1.isOk, net.nodes.keys.biUnion net.spentOf,
        decide ("b2" ∈ net.ledgerOf "N1" ∧ "b2" ∈ net.ledgerOf "N2"))) =
      some (true, ∅, true) := by decide
  obtain ⟨net, -, reports⟩ := Option.map_eq_some_iff.mp outcome
  obtain ⟨accepted, reports⟩ := Prod.mk.inj reports
  obtain ⟨unspent, copied⟩ := Prod.mk.inj reports
  obtain ⟨byN1, byN2⟩ := of_decide_eq_true copied
  obtain ⟨net', called⟩ := exists_ok_of_isOk accepted
  refine ⟨net, net', called, fun safe => ?_⟩
  have single := (settlement_isSafeReconnect_iff called).mp safe "b2" fun m isSpent => by
    have member := Finset.mem_biUnion.mpr
      ⟨m, Finmap.mem_keys.mpr (mem_nodes_of_mem_spentOf isSpent), isSpent⟩
    simp [unspent] at member
  have same : "N1" = "N2" := single "N1" "N2" byN1 byN2
  exact absurd same (by decide)

theorem exeView_ledgersExe {up : Bool} {n : Node3} {b : Bearer2} :
    (net.exeView up).ledgersExe n b = true ↔ b.name ∈ net.ledgerOf n.name :=
  decide_eq_true_iff

theorem exeView_spentExe {up : Bool} {n : Node3} {b : Bearer2} :
    (net.exeView up).spentExe n b = true ↔ b.name ∈ net.spentOf n.name :=
  decide_eq_true_iff

theorem runConversionDayExe_isSome :
    (runConversionDayExe (net.exeView false)).isSome = true ↔
      ¬ ("b1" ∈ net.spentOf "N1" ∧ "b1" ∈ net.spentOf "N2") ∧
      ¬ ("b2" ∈ net.spentOf "N1" ∧ "b2" ∈ net.spentOf "N2") ∧
      ¬ ("b1" ∈ net.spentOf "N1" ∧ "b1" ∈ net.spentOf "N3") ∧
      ¬ ("b1" ∈ net.spentOf "N2" ∧ "b1" ∈ net.spentOf "N3") := by
  have isUp : (net.exeView false).networkUpExe = false := rfl
  simp only [runConversionDayExe, isUp, Bool.false_eq_true, if_false, Bool.or_eq_true,
    Bool.and_eq_true, exeView_spentExe, Node3.name, Bearer2.name]
  split_ifs with compared
  · simp only [Option.isSome_none, Bool.false_eq_true, false_iff]
    tauto
  · simp only [Option.isSome_some, true_iff]
    tauto

theorem runConversionDayExe_eq (accepted : (runConversionDayExe (net.exeView false)).isSome) :
    runConversionDayExe (net.exeView false) = some (net.exeView true) := by
  have isUp : (net.exeView false).networkUpExe = false := rfl
  simp only [runConversionDayExe, isUp, Bool.false_eq_true, if_false] at accepted ⊢
  split_ifs at accepted ⊢ with compared
  · cases accepted
  · rfl

def spendersOfTwo (first second : Finset String) (b : String) : Finset String :=
  if b = "b1" then first else if b = "b2" then second else ∅

theorem conflictReport_of_three : ∀ first ∈ ({"N1", "N2", "N3"} : Finset String).powerset,
    ∀ second ∈ ({"N1", "N2", "N3"} : Finset String).powerset,
    (¬ ("N1" ∈ first ∧ "N2" ∈ first) ∧ ¬ ("N1" ∈ second ∧ "N2" ∈ second) ∧
      ¬ ("N1" ∈ first ∧ "N3" ∈ first) ∧ ¬ ("N2" ∈ first ∧ "N3" ∈ first)) ↔
    (conflictReport (spendersOfTwo first second) {"b1", "b2"} = [] ∨
      ∃ n ∈ ["N1", "N2"],
        conflictReport (spendersOfTwo first second) {"b1", "b2"} = [("b2", [n, "N3"])]) := by
  decide +kernel

section ThreeNodes

variable (nodes : net.nodes.keys = {"N1", "N2", "N3"})
  (known : ∀ n, net.spentOf n ⊆ {"b1", "b2"})
include nodes known

theorem noDoubleSpendAcrossNodes_of_three :
    net.noDoubleSpendAcrossNodes = conflictReport
      (spendersOfTwo (({"N1", "N2", "N3"} : Finset String).filter fun n => "b1" ∈ net.spentOf n)
        (({"N1", "N2", "N3"} : Finset String).filter fun n => "b2" ∈ net.spentOf n))
      {"b1", "b2"} := by
  change conflictReport (fun b => net.nodes.keys.filter fun n => b ∈ net.spentOf n)
    (net.nodes.keys.biUnion fun n => net.ledgerOf n ∪ net.spentOf n) = _
  rw [nodes]
  apply conflictReport_congr
  · intro b
    rw [spendersOfTwo]
    split_ifs with isFirst isSecond
    · rw [isFirst]
    · rw [isSecond]
    · refine Finset.filter_eq_empty_iff.mpr fun n _ isSpent => ?_
      have isKnown := known n isSpent
      simp [isFirst, isSecond] at isKnown
  · intro b several
    obtain ⟨n, member⟩ := Finset.card_pos.mp (Nat.zero_lt_of_lt several)
    obtain ⟨isNode, isSpent⟩ := Finset.mem_filter.mp member
    exact iff_of_true (Finset.mem_biUnion.mpr ⟨n, isNode, Finset.mem_union_right _ isSpent⟩)
      (known n isSpent)

/-- The four pairs are compared exactly in the reports of the network that are empty or
that name `b2` only, with `N3` and one other node. -/
theorem runConversionDayExe_isSome_iff :
    (runConversionDayExe (net.exeView false)).isSome = true ↔
      net.noDoubleSpendAcrossNodes = [] ∨
        ∃ n ∈ ["N1", "N2"], net.noDoubleSpendAcrossNodes = [("b2", [n, "N3"])] := by
  rw [noDoubleSpendAcrossNodes_of_three nodes known, ← conflictReport_of_three _
    (Finset.mem_powerset.mpr (Finset.filter_subset _ _)) _
    (Finset.mem_powerset.mpr (Finset.filter_subset _ _)), runConversionDayExe_isSome]
  simp

/-- Both barriers come to the same state exactly if nobody holds a spent bearer. -/
theorem exeView_settled_iff (called : net.runConversionDay none = (.ok (), net')) :
    net.exeView true = net'.exeView true ↔
      ∀ n b, b ∈ net.ledgerOf n → ∀ m, b ∉ net.spentOf m := by
  constructor
  · intro same n b isHeld m isSpent
    have isNode : n ∈ ({"N1", "N2", "N3"} : Finset String) :=
      nodes ▸ Finmap.mem_keys.mpr (mem_nodes_of_mem_ledgerOf isHeld)
    obtain ⟨node, rfl⟩ := HabiSafety.Node3.exists_name isNode
    obtain ⟨bearer, rfl⟩ := HabiSafety.Bearer2.exists_name (known m isSpent)
    have kept : (net'.exeView true).ledgersExe node bearer = true :=
      same ▸ exeView_ledgersExe.mpr isHeld
    exact ((mem_ledgerOf_settled called).mp (exeView_ledgersExe.mp kept)).2 m isSpent
  · intro unspent
    have ledgers : ∀ n b, b ∈ net.ledgerOf n ↔ b ∈ net'.ledgerOf n := by
      intro n b
      rw [mem_ledgerOf_settled called]
      exact ⟨fun isHeld => ⟨isHeld, unspent n b isHeld⟩, And.left⟩
    simp only [exeView, ledgers, (settles_of_ok called).spent]

/-- The extracted barrier refuses what `run_conversion_day` refuses, but for a bearer
`b2` that `N3` and one other node have spent.  Where both accept, they come to the same
state exactly if nobody holds a spent bearer. -/
theorem runConversionDayExe_iff :
    ((runConversionDayExe (net.exeView false)).isSome = true ↔
      (∃ net', net.runConversionDay none = (.ok (), net')) ∨
        ∃ n ∈ ["N1", "N2"], net.runConversionDay none = (.error ⟨[("b2", [n, "N3"])]⟩, net)) ∧
    ∀ net', net.runConversionDay none = (.ok (), net') →
      (runConversionDayExe (net.exeView false) = some (net'.exeView true) ↔
        ∀ n b, b ∈ net.ledgerOf n → ∀ m, b ∉ net.spentOf m) := by
  have cases := runConversionDay_cases net none
  simp only [Option.getD_none, violations_allNodes] at cases
  have isSome := runConversionDayExe_isSome_iff nodes known
  rcases cases with ⟨loud, refused⟩ | ⟨quiet, after, entry, performed, -⟩
  · rw [isSome, refused]
    simp [loud]
  · have accepted := isSome.mpr (Or.inl quiet)
    refine ⟨iff_of_true accepted (Or.inl ⟨after, performed⟩), fun net' called => ?_⟩
    rw [runConversionDayExe_eq accepted, Option.some_inj]
    exact exeView_settled_iff nodes known called

end ThreeNodes

def spentApart : List (PerLinkSymmetric.Action String String) :=
  [.propagate "N2" "N1", .propagate "N2" "N3", .linkDown "N1" "N3", .spendAt "N1" "b2",
    .spendAt "N3" "b2"]

/-- Two nodes spend copies of `b2` apart, and the extracted barrier lets it pass. -/
theorem runConversionDayExe_iff_apart :
    ∃ net : Network, (runConversionDayExe (net.exeView false)).isSome = true ∧
      ∃ n ∈ ["N1", "N2"], net.runConversionDay none = (.error ⟨[("b2", [n, "N3"])]⟩, net) := by
  have outcome : (makeInitNetwork.performAll spentApart).map (fun net =>
      ((runConversionDayExe (net.exeView false)).isSome, (net.runConversionDay none).1.isOk,
        net.nodes.keys, net.nodes.keys.biUnion net.spentOf)) =
      some (true, false, {"N1", "N2", "N3"}, {"b2"}) := by decide
  obtain ⟨net, -, reports⟩ := Option.map_eq_some_iff.mp outcome
  obtain ⟨accepted, reports⟩ := Prod.mk.inj reports
  obtain ⟨refused, reports⟩ := Prod.mk.inj reports
  obtain ⟨nodes, spent⟩ := Prod.mk.inj reports
  have known : ∀ n, net.spentOf n ⊆ {"b1", "b2"} := by
    intro n b isSpent
    have member := Finset.mem_biUnion.mpr
      ⟨n, Finmap.mem_keys.mpr (mem_nodes_of_mem_spentOf isSpent), isSpent⟩
    rw [spent, Finset.mem_singleton] at member
    simp [member]
  rcases (runConversionDayExe_iff nodes known).1.mp accepted with ⟨net', called⟩ | reported
  · simp [called, Except.isOk, Except.toBool] at refused
  · exact ⟨net, accepted, reported⟩

end Network

end HabiCore
