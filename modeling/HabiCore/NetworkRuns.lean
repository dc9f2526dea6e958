import HabiCore.ConversionDay

/-!
# Runs of the centralized network

A run starts from `Network::new`, whose nodes are given arbitrary ledgers, and
calls the methods of the network and the settlement barrier with arbitrary
arguments, refused calls included.  On the way from the network to its view,
every call is an action of the specification, a settlement or no step at all.
-/

namespace HabiCore.Network

open FinmapFolds PerLinkSymmetric LabelledRuns

def apply (net : Network) : Action String String → Option (Returned NetworkError)
  | .linkDown n m => net.linkDown n m
  | .linkUp n m => net.linkUp n m
  | .propagate src dst => net.propagate src dst
  | .spendAt nn bb => net.spendAt nn bb

inductive Call where
  | action (action : Action String String)
  | conversionDay (participants : Option (Finset String))

/-- A call that returns, with the network it leaves behind. -/
def CallStep (net : Network) : Call → Network → Prop
  | .action action, net' => ∃ result, net.apply action = some (result, net')
  | .conversionDay participants, net' =>
      ∃ result, net.runConversionDay participants = (result, net')

theorem CallStep.of_apply {net net' : Network} {action : Action String String}
    {result : Except NetworkError Unit} (called : net.apply action = some (result, net')) :
    CallStep net (.action action) net' :=
  ⟨result, called⟩

def anyCall (_ : Network) (_ : Call) : Prop := True

def actionsOnly (_ : Network) (call : Call) : Prop := ∃ action, call = .action action

/-- `Network::new(node_ids)` but for the ledgers of its nodes. -/
structure IsInitial (nodeIds : List String) (net : Network) : Prop where
  links_eq : net.links = (new nodeIds).links
  log_eq : net.log = (new nodeIds).log
  nodes_eq : ∀ id,
    (net.nodes.lookup id).map (fun node => (node.nodeId, node.spent)) =
      ((new nodeIds).nodes.lookup id).map fun node => (node.nodeId, node.spent)

variable {V : Finset String} {net net' : Network} {nodeIds : List String}

/-- The network of given nodes with given links, built as `Network::new` builds
its own. -/
def build (nodeIds : List String) (node : String → Node) (up : String → String → Bool) :
    Network where
  nodes := insertAll ∅ node nodeIds
  links := insertAll ∅ (fun a => insertAll ∅ (up a) nodeIds) nodeIds
  log := []

theorem build_consistent (nodeIds : List String) (node : String → Node)
    (up : String → String → Bool) :
    Consistent nodeIds.toFinset (build nodeIds node up) := by
  refine ⟨fun id => ?_, fun id => ?_, fun id row rowAt m => ?_⟩
  · rw [← Finmap.lookup_isSome, build, lookup_insertAll, List.mem_toFinset]
    split <;> simp_all
  · rw [← Finmap.lookup_isSome, build, lookup_insertAll, List.mem_toFinset]
    split <;> simp_all
  · simp only [build, lookup_insertAll, Finmap.lookup_empty] at rowAt
    split at rowAt
    · rw [Option.some_inj] at rowAt
      subst row
      rw [← Finmap.lookup_isSome, lookup_insertAll, List.mem_toFinset]
      split <;> simp_all
    · simp at rowAt

theorem build_linked (nodeIds : List String) (node : String → Node)
    (up : String → String → Bool) (a b : String) :
    (build nodeIds node up).linked a b = true ↔ a ∈ nodeIds ∧ b ∈ nodeIds ∧ up a b = true := by
  rw [linked_eq]
  simp only [build, lookup_insertAll, Finmap.lookup_empty]
  by_cases aIn : a ∈ nodeIds
  · by_cases bIn : b ∈ nodeIds <;> simp [aIn, bIn, lookup_insertAll]
  · simp [aIn]

theorem build_ledgerOf {nodeIds : List String} {node : String → Node}
    {up : String → String → Bool} {id : String} (known : id ∈ nodeIds) :
    (build nodeIds node up).ledgerOf id = (node id).ledger :=
  ledgerOf_some (by simp [build, lookup_insertAll, known])

theorem build_spentOf {nodeIds : List String} {node : String → Node}
    {up : String → String → Bool} {id : String} (known : id ∈ nodeIds) :
    (build nodeIds node up).spentOf id = (node id).spent :=
  spentOf_some (by simp [build, lookup_insertAll, known])

theorem new_consistent (nodeIds : List String) :
    Consistent nodeIds.toFinset (new nodeIds) :=
  build_consistent nodeIds Node.new fun a b => decide (a ≠ b)

theorem new_linked (nodeIds : List String) (a b : String) :
    (new nodeIds).linked a b = true ↔ a ∈ nodeIds ∧ b ∈ nodeIds ∧ a ≠ b := by
  have linked := build_linked nodeIds Node.new (fun a b => decide (a ≠ b)) a b
  rwa [decide_eq_true_iff] at linked

namespace IsInitial

theorem consistent (initial : IsInitial nodeIds net) :
    Consistent nodeIds.toFinset net := by
  have fresh := new_consistent nodeIds
  refine ⟨fun id => ?_, ?_, ?_⟩
  · rw [← fresh.nodes_known id, ← Finmap.lookup_isSome, ← Finmap.lookup_isSome]
    have same := congrArg Option.isSome (initial.nodes_eq id)
    simpa using same
  · rw [initial.links_eq]; exact fresh.rows_known
  · rw [initial.links_eq]; exact fresh.columns_known

theorem linked_iff (initial : IsInitial nodeIds net) (a b : String) :
    net.linked a b = true ↔ a ∈ nodeIds ∧ b ∈ nodeIds ∧ a ≠ b := by
  rw [← new_linked nodeIds a b]
  simp [linked, isLinked, initial.links_eq]

theorem spentOf_eq (initial : IsInitial nodeIds net) (id : String) :
    net.spentOf id = ∅ := by
  have same := initial.nodes_eq id
  cases nodeAt : net.nodes.lookup id with
  | none => simp [spentOf, nodeAt]
  | some node =>
      simp only [nodeAt, new, lookup_insertAll, Finmap.lookup_empty, Option.map_some] at same
      split at same
      · simp only [Option.map_some, Option.some_inj, Prod.mk.injEq] at same
        simp [spentOf, nodeAt, same.2, Node.new]
      · simp at same

theorem init (initial : IsInitial nodeIds net) :
    Init nodeIds.toFinset net.view := by
  refine ⟨fun a => by simp [initial.spentOf_eq a], ?_⟩
  intro a aIn b bIn
  rw [Finset.mem_coe, List.mem_toFinset] at aIn bIn
  simp [initial.linked_iff a b, aIn, bIn]

theorem sound (initial : IsInitial nodeIds net) :
    Sound nodeIds.toFinset net.view := by
  refine sound_of_init initial.init fun a b up => ?_
  obtain ⟨aIn, bIn, -⟩ := (initial.linked_iff a b).mp up
  simp [aIn, bIn]

theorem insert (initial : IsInitial nodeIds net) {id : String} (known : id ∈ nodeIds)
    (ledger : Finset String) :
    IsInitial nodeIds { net with nodes := net.nodes.insert id ⟨id, ledger, ∅⟩ } where
  links_eq := initial.links_eq
  log_eq := initial.log_eq
  nodes_eq other := by
    by_cases same : other = id
    · subst same
      simp [new, lookup_insertAll, Node.new, known]
    · rw [Finmap.lookup_insert_of_ne _ same]
      exact initial.nodes_eq other

end IsInitial

theorem new_isInitial (nodeIds : List String) : IsInitial nodeIds (new nodeIds) :=
  ⟨rfl, rfl, fun _ => rfl⟩

/-- The network of the demonstration scenarios: three linked nodes, two of which
hold one bearer each. -/
def makeInitNetwork : Network :=
  let net := new ["N1", "N2", "N3"]
  { net with
    nodes := (net.nodes.insert "N1" { Node.new "N1" with ledger := {"b1"} }).insert
      "N2" { Node.new "N2" with ledger := {"b2"} } }

theorem makeInitNetwork_isInitial : IsInitial ["N1", "N2", "N3"] makeInitNetwork :=
  ((new_isInitial _).insert (by simp) {"b1"}).insert (by simp) {"b2"}

theorem apply_spec (consistent : Consistent V net) (action : Action String String) :
    Performs V net action (net.apply action) ∨ Refuses V net action (net.apply action) := by
  cases action with
  | linkDown n m => exact linkDown_spec consistent n m
  | linkUp n m => exact linkUp_spec consistent n m
  | propagate src dst => exact propagate_spec consistent src dst
  | spendAt nn bb => exact spendAt_spec consistent nn bb

/-- A successful call performs its action. -/
theorem next_of_apply_ok (consistent : Consistent V net) {action : Action String String}
    (called : net.apply action = some (.ok (), net')) :
    Consistent V net' ∧ Next V net.view action net'.view := by
  rcases apply_spec consistent action with
    ⟨guard, after, performed, afterConsistent, viewEq⟩ | ⟨-, e, refused⟩
  · rw [called] at performed
    obtain rfl : net' = after := by simpa using performed
    exact ⟨afterConsistent, guard, viewEq⟩
  · simp [called] at refused

theorem apply_of_guard (consistent : Consistent V net) {action : Action String String}
    (guard : Guard V net.view action) :
    ∃ net', net.apply action = some (.ok (), net') ∧ Consistent V net' ∧
      net'.view = primed V net.view action := by
  rcases apply_spec consistent action with ⟨-, performed⟩ | ⟨noGuard, -⟩
  · exact performed
  · exact (noGuard guard).elim

/-- A call changes nothing, performs an action or settles. -/
theorem CallStep.view_cases (consistent : Consistent V net) {call : Call}
    (edge : CallStep net call net') :
    Consistent V net' ∧
      (net' = net ∨
        (∃ action, call = .action action ∧ net.apply action = some (.ok (), net') ∧
          Next V net.view action net'.view) ∨
        ∃ participants, call = .conversionDay participants ∧
          net.runConversionDay participants = (.ok (), net') ∧
          ¬ Conflicted (participants.getD V) net.view ∧
          net'.view = settled (participants.getD V) net.view) := by
  cases call with
  | action action =>
      obtain ⟨result, called⟩ := edge
      rcases apply_spec consistent action with
        ⟨guard, after, performed, afterConsistent, viewEq⟩ | ⟨-, e, refused⟩
      · rw [called] at performed
        obtain ⟨rfl, rfl⟩ : result = .ok () ∧ net' = after := by simpa using performed
        exact ⟨afterConsistent, Or.inr (Or.inl ⟨action, rfl, called, guard, viewEq⟩)⟩
      · rw [called] at refused
        obtain ⟨-, rfl⟩ : result = .error e ∧ net' = net := by simpa using refused
        exact ⟨consistent, Or.inl rfl⟩
  | conversionDay participants =>
      obtain ⟨result, called⟩ := edge
      rcases runConversionDay_spec consistent participants with
        ⟨quiet, after, performed, afterConsistent, viewEq⟩ | ⟨-, e, refused⟩
      · rw [called] at performed
        obtain ⟨rfl, rfl⟩ : result = .ok () ∧ net' = after := by simpa using performed
        exact ⟨afterConsistent, Or.inr (Or.inr ⟨participants, rfl, called, quiet, viewEq⟩)⟩
      · rw [called] at refused
        obtain ⟨-, rfl⟩ : result = .error e ∧ net' = net := by simpa using refused
        exact ⟨consistent, Or.inl rfl⟩

variable {allowed : Network → Call → Prop}

theorem Consistent.reaches (consistent : Consistent V net)
    (reaches : Reaches CallStep allowed net net') : Consistent V net' :=
  reaches.invariant (Consistent V) consistent
    fun _ _ _ _ inv edge => (edge.view_cases inv).1

theorem sound_reaches (consistent : Consistent V net) (sound : Sound V net.view)
    (reaches : Reaches CallStep allowed net net') : Sound V net'.view := by
  have both : Consistent V net' ∧ Sound V net'.view := by
    refine reaches.invariant (fun net => Consistent V net ∧ Sound V net.view)
      ⟨consistent, sound⟩ ?_
    rintro state call next - ⟨inv, isSound⟩ edge
    obtain ⟨invNext, same | ⟨action, -, -, performed⟩ | ⟨participants, -, -, -, viewEq⟩⟩ :=
      edge.view_cases inv
    · exact ⟨invNext, same ▸ isSound⟩
    · exact ⟨invNext, sound_next isSound performed⟩
    · exact ⟨invNext, viewEq ▸ sound_settled isSound _⟩
  exact both.2

/-- Every run of the network is a run of the token circulation. -/
theorem circulates (consistent : Consistent V net)
    (reaches : Reaches CallStep allowed net net') :
    Reaches TokenCirculation.Step (fun _ _ => True)
      (holdings net.view) (holdings net'.view) := by
  have both : Reaches TokenCirculation.Step (fun _ _ => True)
      (holdings net.view) (holdings net'.view) ∧ Consistent V net' := by
    refine reaches.invariant
      (fun state => Reaches TokenCirculation.Step (fun _ _ => True)
        (holdings net.view) (holdings state.view) ∧ Consistent V state)
      ⟨.refl _, consistent⟩ ?_
    rintro state call next - ⟨circulation, inv⟩ edge
    obtain ⟨invNext, same | ⟨action, -, -, performed⟩ | ⟨participants, -, -, -, viewEq⟩⟩ :=
      edge.view_cases inv
    · exact ⟨same ▸ circulation, invNext⟩
    · exact ⟨circulation.tail trivial (circulates_next performed), invNext⟩
    · rw [viewEq]
      exact ⟨circulation.tail trivial (circulates_settled _ state.view), invNext⟩
  exact both.1

/-- The report on double spends is empty exactly when there are none. -/
theorem noDoubleSpendAcrossNodes_eq_nil (consistent : Consistent V net) :
    net.noDoubleSpendAcrossNodes = [] ↔ NoDoubleSpendAcrossNodes V net.view := by
  simp only [noDoubleSpendAcrossNodes, List.filterMap_eq_nil_iff, mem_sorted,
    Finset.mem_biUnion, Finmap.mem_keys, Finset.mem_union]
  constructor
  · intro quiet b n nSpent m mSpent
    by_contra distinct
    have several : 1 < (net.nodes.keys.filter fun id => b ∈ net.spentOf id).card := by
      refine Finset.one_lt_card.mpr ⟨n, ?_, m, ?_, distinct⟩
      · simpa [Finmap.mem_keys, consistent.nodes_known] using nSpent
      · simpa [Finmap.mem_keys, consistent.nodes_known] using mSpent
    have few := quiet b ⟨n, (consistent.nodes_known n).mpr nSpent.1, Or.inr nSpent.2⟩
    simp [several] at few
  · intro single b _
    have few : ¬ 1 < (net.nodes.keys.filter fun id => b ∈ net.spentOf id).card := by
      intro several
      obtain ⟨n, nSpent, m, mSpent, distinct⟩ := Finset.one_lt_card.mp several
      rw [Finset.mem_filter, Finmap.mem_keys, consistent.nodes_known] at nSpent mSpent
      exact distinct (single b ⟨nSpent.1, nSpent.2⟩ ⟨mSpent.1, mSpent.2⟩)
    simp [few]

end HabiCore.Network
