import HabiCore.NetworkCalls
import HabiCore.SpentBy

/-!
# Conversion Day on the centralized network

The settlement barrier reads the spent sets of its participants at one moment.
It either reports the bearers with several spenders and changes nothing, or
burns every spent bearer from the participants' ledgers.
-/

namespace HabiCore

structure DoubleSpendDetected where
  violations : List (String × List String)

namespace Network

open FinmapFolds PerLinkSymmetric

/-- The participants the network knows, with their spent sets. -/
def spentReports (net : Network) (participants : Finset String) :
    List (String × Finset String) :=
  (sorted participants).filterMap fun nid =>
    (net.nodes.lookup nid).map fun node => (nid, node.spent)

/-- `run_conversion_day`; all nodes participate when no set is given. -/
def runConversionDay (net : Network) (participants : Option (Finset String)) :
    Returned DoubleSpendDetected :=
  let allIds := net.nodes.keys
  let participants := participants.getD allIds
  let spentBy := SpentBy.gather (net.spentReports participants)
  let violations := spentBy.violations
  if violations ≠ [] then
    (.error ⟨violations⟩, net)
  else
    let globallySpent := spentBy.keys
    let nodes := modifyAll net.nodes
      (fun node => { node with ledger := node.ledger \ globallySpent }) (sorted participants)
    let cleared := DebugFormat.strings (sorted globallySpent)
    let sortedParticipants := DebugFormat.strings (sorted participants)
    (.ok (), { net with nodes := nodes }.record "ConversionDay"
      (s!"participants={sortedParticipants}, " ++ s!"cleared={cleared}"))

/-- `check_post_barrier_safety`: no participant holds what a participant has
spent. -/
def checkPostBarrierSafety (net : Network) (participants : Option (Finset String)) : Bool :=
  let allIds := net.nodes.keys
  let participants := participants.getD allIds
  let globalSpent := participants.biUnion fun nid => net.spentOf nid
  decide (∀ nid ∈ participants, ¬ ∃ b ∈ net.ledgerOf nid, b ∈ globalSpent)

variable {V : Finset String} {net : Network}

theorem mem_spentReports {participants : Finset String} {nid : String}
    {spent : Finset String} :
    (nid, spent) ∈ net.spentReports participants ↔
      nid ∈ participants ∧ ∃ node, net.nodes.lookup nid = some node ∧ node.spent = spent := by
  simp only [spentReports, List.mem_filterMap, mem_sorted, Option.map_eq_some_iff,
    Prod.mk.injEq]
  constructor
  · rintro ⟨_, member, node, nodeAt, rfl, rfl⟩
    exact ⟨member, node, nodeAt, rfl⟩
  · rintro ⟨member, node, nodeAt, rfl⟩
    exact ⟨nid, member, node, nodeAt, rfl, rfl⟩

theorem mem_spendersOf_spentReports {participants : Finset String} {nid bearer : String} :
    nid ∈ (SpentBy.gather (net.spentReports participants)).spendersOf bearer ↔
      nid ∈ participants ∧ bearer ∈ net.spentOf nid := by
  rw [SpentBy.mem_spendersOf_gather]
  constructor
  · rintro ⟨spent, report, recorded⟩
    obtain ⟨member, node, nodeAt, rfl⟩ := mem_spentReports.mp report
    exact ⟨member, by rwa [spentOf_some nodeAt]⟩
  · rintro ⟨member, recorded⟩
    cases nodeAt : net.nodes.lookup nid with
    | none => simp [spentOf, nodeAt] at recorded
    | some node =>
        rw [spentOf_some nodeAt] at recorded
        exact ⟨node.spent, mem_spentReports.mpr ⟨member, node, nodeAt, rfl⟩, recorded⟩

theorem keys_gather_spentReports (net : Network) (participants : Finset String) :
    ((SpentBy.gather (net.spentReports participants)).keys : Set String) =
      burnSet participants net.view := by
  ext bearer
  rw [Finset.mem_coe, Finmap.mem_keys]
  constructor
  · intro row
    obtain ⟨⟨nid, spent⟩, report, recorded⟩ := (SpentBy.mem_gather _).mp row
    have entered := (SpentBy.mem_spendersOf_gather (net.spentReports participants)).mpr
      ⟨spent, report, recorded⟩
    obtain ⟨member, spentHere⟩ := mem_spendersOf_spentReports.mp entered
    exact ⟨nid, member, spentHere⟩
  · rintro ⟨nid, member, spentHere⟩
    exact SpentBy.mem_of_mem_spendersOf
      (mem_spendersOf_spentReports.mpr ⟨member, spentHere⟩)

theorem keys_gather_spentReports_eq (net : Network) (participants : Finset String) :
    (SpentBy.gather (net.spentReports participants)).keys = participants.biUnion net.spentOf := by
  rw [← Finset.coe_inj, keys_gather_spentReports]
  ext bearer
  simp [burnSet]

/-- What a barrier does to any network, known or unknown participants included. -/
theorem runConversionDay_cases (net : Network) (participants : Option (Finset String)) :
    let taking := participants.getD net.nodes.keys
    let violations := (SpentBy.gather (net.spentReports taking)).violations
    (violations ≠ [] ∧ net.runConversionDay participants = (.error ⟨violations⟩, net)) ∨
    (violations = [] ∧ ∃ net' entry, net.runConversionDay participants = (.ok (), net') ∧
      net'.links = net.links ∧ net'.log = net.log ++ [entry] ∧
      ∀ id, net'.nodes.lookup id =
        if id ∈ taking then
          (net.nodes.lookup id).map fun node =>
            { node with ledger := node.ledger \ taking.biUnion net.spentOf }
        else net.nodes.lookup id) := by
  intro taking violations
  by_cases quiet : violations = []
  · right
    let burned := (SpentBy.gather (net.spentReports taking)).keys
    have burnedEq : burned = taking.biUnion net.spentOf := keys_gather_spentReports_eq net taking
    let detail := s!"participants={DebugFormat.strings (sorted taking)}, " ++
      s!"cleared={DebugFormat.strings (sorted burned)}"
    refine ⟨quiet, (net.shrinkLedgers (fun ledger => ledger \ burned) taking).record
      "ConversionDay" detail, ⟨"ConversionDay", detail⟩, ?_, rfl, rfl, fun id => ?_⟩
    · simp only [runConversionDay]
      rw [if_neg (not_not.mpr quiet)]
      rfl
    · rw [record_nodes, shrinkLedgers, lookup_modifyAll _ _ (by simp), burnedEq]
      simp only [mem_sorted]
  · left
    refine ⟨quiet, ?_⟩
    simp only [runConversionDay]
    rw [if_pos quiet]

theorem violations_spentReports_eq_nil (net : Network) (participants : Finset String) :
    (SpentBy.gather (net.spentReports participants)).violations = [] ↔
      ¬ Conflicted participants net.view := by
  rw [SpentBy.violations_eq_nil]
  constructor
  · rintro single ⟨bearer, n, nIn, m, mIn, distinct, nSpent, mSpent⟩
    exact distinct (single bearer n (mem_spendersOf_spentReports.mpr ⟨nIn, nSpent⟩)
      m (mem_spendersOf_spentReports.mpr ⟨mIn, mSpent⟩))
  · intro quiet bearer n first m second
    obtain ⟨nIn, nSpent⟩ := mem_spendersOf_spentReports.mp first
    obtain ⟨mIn, mSpent⟩ := mem_spendersOf_spentReports.mp second
    by_contra distinct
    exact quiet ⟨bearer, n, nIn, m, mIn, distinct, nSpent, mSpent⟩

/-- The barrier is refused on a conflict and otherwise settles the view. -/
theorem runConversionDay_spec (consistent : Consistent V net)
    (participants : Option (Finset String)) :
    (¬ Conflicted (participants.getD V) net.view ∧
      ∃ net', net.runConversionDay participants = (.ok (), net') ∧ Consistent V net' ∧
        net'.view = settled (participants.getD V) net.view) ∨
    (Conflicted (participants.getD V) net.view ∧
      ∃ e, net.runConversionDay participants = (.error e, net)) := by
  have allKnown : net.nodes.keys = V := by
    ext id
    rw [Finmap.mem_keys, consistent.nodes_known]
  have violationsEq := violations_spentReports_eq_nil net (participants.getD V)
  by_cases conflicted : Conflicted (participants.getD V) net.view
  · refine Or.inr ⟨conflicted,
      ⟨(SpentBy.gather (net.spentReports (participants.getD V))).violations⟩, ?_⟩
    simp only [runConversionDay, allKnown]
    rw [if_pos (fun quiet => violationsEq.mp quiet conflicted)]
  · let burned := (SpentBy.gather (net.spentReports (participants.getD V))).keys
    let burn := fun ledger : Finset String => ledger \ burned
    let detail := s!"participants={DebugFormat.strings (sorted (participants.getD V))}, " ++
      s!"cleared={DebugFormat.strings (sorted burned)}"
    have burnTwice : ∀ ledger, burn (burn ledger) = burn ledger := by simp [burn]
    have burnedEq : (burned : Set String) = burnSet (participants.getD V) net.view :=
      keys_gather_spentReports net _
    refine Or.inl ⟨conflicted,
      (net.shrinkLedgers burn (participants.getD V)).record "ConversionDay" detail, ?_,
      (consistent.shrinkLedgers burnTwice _).record _ _, ?_⟩
    · simp only [runConversionDay, allKnown]
      rw [if_neg (not_not.mpr (violationsEq.mpr conflicted))]
      rfl
    · rw [record_view]
      refine State.ext ?_ ?_ rfl
      · funext a
        change ((net.shrinkLedgers burn _).ledgerOf a : Set String) = _
        rw [ledgerOf_shrinkLedgers (by simp [burn]) burnTwice]
        by_cases participates : a ∈ participants.getD V
        · simp [settled, burn, participates, burnedEq]
        · simp [settled, participates]
      · funext a
        change ((net.shrinkLedgers burn _).spentOf a : Set String) = _
        rw [spentOf_shrinkLedgers burnTwice]
        rfl

end Network

end HabiCore
