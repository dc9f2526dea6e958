import HabiCore.SpentBy

/-!
# The Conversion Day coordinator

The conflict detection of a networked Conversion Day works on the snapshots the
coordinator has gathered.
-/

namespace HabiCore

structure PeerSnapshot where
  nodeId : String
  ledger : Finset String
  spent : Finset String
  deriving DecidableEq

structure ConversionDayConflict where
  violations : List (String × List String)

def ConversionDayConflict.toString (conflict : ConversionDayConflict) : String :=
  s!"double-spend detected during distributed reconciliation: " ++
    DebugFormat.violations conflict.violations

/-- The spent sets of the snapshots. -/
def spentReports (snapshots : List PeerSnapshot) : List (String × Finset String) :=
  snapshots.map fun snap => (snap.nodeId, snap.spent)

/-- Returns the bearers to burn, or the bearers with several spenders. -/
def computeConversionDay (snapshots : List PeerSnapshot) :
    Except ConversionDayConflict (Finset String) :=
  let spentBy := SpentBy.gather (spentReports snapshots)
  let violations := spentBy.violations
  if violations ≠ [] then
    .error ⟨violations⟩
  else
    .ok spentBy.keys

def globalSpent (snapshots : List PeerSnapshot) : Finset String :=
  snapshots.foldr (fun snap others => snap.spent ∪ others) ∅

/-- No snapshot holds what any snapshot has spent. -/
def checkPostConversionDaySafety (snapshots : List PeerSnapshot) : Bool :=
  snapshots.all fun snap => !decide (∃ b ∈ snap.ledger, b ∈ globalSpent snapshots)

variable {snapshots : List PeerSnapshot} {burnSet : Finset String}

theorem mem_globalSpent {b : String} :
    b ∈ globalSpent snapshots ↔ ∃ snap ∈ snapshots, b ∈ snap.spent := by
  induction snapshots with
  | nil => simp [globalSpent]
  | cons snap rest ih =>
      change b ∈ snap.spent ∪ globalSpent rest ↔ _
      rw [Finset.mem_union, ih]
      simp

/-- No bearer is in two snapshots with different ids. -/
def Unanimous (snapshots : List PeerSnapshot) : Prop :=
  ∀ first ∈ snapshots, ∀ second ∈ snapshots, ∀ b,
    b ∈ first.spent → b ∈ second.spent → first.nodeId = second.nodeId

theorem mem_spendersOf_spentReports {nid b : String} :
    nid ∈ (SpentBy.gather (spentReports snapshots)).spendersOf b ↔
      ∃ snap ∈ snapshots, snap.nodeId = nid ∧ b ∈ snap.spent := by
  rw [SpentBy.mem_spendersOf_gather]
  constructor
  · rintro ⟨spent, member, recorded⟩
    obtain ⟨snap, snapIn, snapEq⟩ := List.mem_map.mp member
    obtain ⟨rfl, rfl⟩ := Prod.mk.inj snapEq
    exact ⟨snap, snapIn, rfl, recorded⟩
  · rintro ⟨snap, snapIn, rfl, recorded⟩
    exact ⟨snap.spent, List.mem_map.mpr ⟨snap, snapIn, rfl⟩, recorded⟩

/-- The settlement is refused on a conflict, and otherwise burns what any
snapshot has spent. -/
theorem computeConversionDay_eq_ok_iff :
    computeConversionDay snapshots = .ok burnSet ↔
      Unanimous snapshots ∧ ∀ b, b ∈ burnSet ↔ ∃ snap ∈ snapshots, b ∈ snap.spent := by
  have quietIff : (SpentBy.gather (spentReports snapshots)).violations = [] ↔
      Unanimous snapshots := by
    simp only [SpentBy.violations_eq_nil, mem_spendersOf_spentReports]
    constructor
    · intro single first firstIn second secondIn b firstSpent secondSpent
      exact single b _ ⟨first, firstIn, rfl, firstSpent⟩ _ ⟨second, secondIn, rfl, secondSpent⟩
    · rintro unanimous b _ ⟨first, firstIn, rfl, firstSpent⟩ _
        ⟨second, secondIn, rfl, secondSpent⟩
      exact unanimous first firstIn second secondIn b firstSpent secondSpent
  have burned : ∀ b, b ∈ (SpentBy.gather (spentReports snapshots)).keys ↔
      ∃ snap ∈ snapshots, b ∈ snap.spent := by
    intro b
    rw [Finmap.mem_keys, SpentBy.mem_gather]
    simp [spentReports]
  simp only [computeConversionDay]
  by_cases quiet : (SpentBy.gather (spentReports snapshots)).violations = []
  · rw [if_neg (not_not.mpr quiet), Except.ok.injEq]
    constructor
    · rintro rfl
      exact ⟨quietIff.mp quiet, burned⟩
    · rintro ⟨-, memBurn⟩
      ext b
      rw [burned, memBurn]
  · rw [if_pos quiet]
    simp [← quietIff, quiet]

end HabiCore
