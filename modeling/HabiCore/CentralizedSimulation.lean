import HabiCore.NetworkRuns
import HabiCore.SequentialCommands

/-!
# The centralized network simulates sequential runs

A deployment whose commands are executed one after the other does what the
centralized network does when its methods are called in the same order.  The
links stay symmetric, although every node sets its own flags.
-/

namespace HabiCore

open PerLinkSymmetric

def AdminMessage.addressee : AdminMessage → Option String
  | .linkUp peer | .linkDown peer | .propagate peer => some peer
  | _ => none

namespace Network

/-- The calls of the centralized network that stand for a command given to the
node named `n`, and the reply to the command. -/
inductive Calls (n : String) (net : Network) : AdminMessage → AdminReply → Network → Prop
  | linkUp {peer : String} {net' : Network}
      (called : net.linkUp n peer = some (.ok (), net')) :
      Calls n net (.linkUp peer) .ok net'
  | relink {peer : String} {down net' : Network}
      (disconnected : net.linkDown n peer = some (.ok (), down))
      (called : down.linkUp n peer = some (.ok (), net')) :
      Calls n net (.linkUp peer) .ok net'
  | linkDown {peer : String} {net' : Network}
      (called : net.linkDown n peer = some (.ok (), net')) :
      Calls n net (.linkDown peer) .ok net'
  | alreadyDown {peer : String} (known : peer ∈ net.nodes) (down : net.linked n peer = false) :
      Calls n net (.linkDown peer) .ok net
  | propagate {peer : String} {net' : Network}
      (called : net.propagate peer n = some (.ok (), net')) :
      Calls n net (.propagate peer) .ok net'
  | nothingDeliverable {peer : String} {e : NetworkError} (linked : net.linked peer n = true)
      (refused : net.propagate peer n = some (.error e, net)) :
      Calls n net (.propagate peer) .ok net
  | notLinked {peer : String} {e : NetworkError} (unlinked : net.linked peer n = false)
      (refused : net.propagate peer n = some (.error e, net)) :
      Calls n net (.propagate peer) (.error s!"no link to {peer}, cannot propagate") net
  | unknownPeer {message : AdminMessage} {peer : String}
      (addressee : message.addressee = some peer) (unknown : peer = n ∨ peer ∉ net.nodes) :
      Calls n net message (.error s!"unknown peer {peer}") net
  | spendAt {bearer : String} {net' : Network}
      (called : net.spendAt n bearer = some (.ok (), net')) :
      Calls n net (.spendAt bearer) .ok net'
  | notHeld {bearer : String} {e : NetworkError}
      (refused : net.spendAt n bearer = some (.error e, net)) :
      Calls n net (.spendAt bearer) (.error s!"{n} does not hold {bearer}, cannot spend") net
  | status {connected : List String} :
      Calls n net .status
        (.statusReport n (sorted (net.ledgerOf n)) (sorted (net.spentOf n)) connected) net
  | conversionDay {net' : Network} (called : net.runConversionDay none = (.ok (), net')) :
      Calls n net .conversionDay .ok net'
  | conflict {e : DoubleSpendDetected} {detail : String}
      (refused : net.runConversionDay none = (.error e, net)) :
      Calls n net .conversionDay (.error detail) net

end Network

namespace Deployment

open LockedProcesses LabelledRuns

variable {ι : Type} [Fintype ι] {D : Deployment ι} {nodeId : ι → String}

/-- The network has the nodes of a deployment under their ids and is in the same
joint state. -/
structure Simulates (nodeId : ι → String) (s : State ι String) (net : Network) : Prop where
  consistent : net.Consistent (Finset.univ.image nodeId)
  same : Renames nodeId s net.view

variable {s : State ι String} {net : Network}

theorem coe_image_univ (nodeId : ι → String) :
    ((Finset.univ.image nodeId : Finset String) : Set String) = Set.range nodeId := by
  simp

theorem Simulates.mem_nodes (simulates : Simulates nodeId s net) (peer : String) :
    peer ∈ net.nodes ↔ ∃ x, peer = nodeId x := by
  simp [simulates.consistent.nodes_known, eq_comm]

theorem Simulates.act [DecidableEq ι] {action : Action ι String}
    (simulates : Simulates nodeId s net) (injective : Function.Injective nodeId)
    (guard : Guard Set.univ s action) :
    ∃ net', net.apply (action.map nodeId) = some (.ok (), net') ∧
      Simulates nodeId (primed Set.univ s action) net' := by
  have enabled : Guard (Finset.univ.image nodeId : Finset String) net.view
      (action.map nodeId) := by
    rw [coe_image_univ]
    exact (simulates.same.guard injective action).mpr guard
  obtain ⟨net', called, consistent, view⟩ :=
    Network.apply_of_guard simulates.consistent enabled
  refine ⟨net', called, consistent, ?_⟩
  rw [view, coe_image_univ]
  exact simulates.same.primed injective action

theorem Simulates.refuse {action : Action ι String} (simulates : Simulates nodeId s net)
    (injective : Function.Injective nodeId) (disabled : ¬ Guard Set.univ s action) :
    ∃ e, net.apply (action.map nodeId) = some (.error e, net) := by
  rcases Network.apply_spec simulates.consistent (action.map nodeId) with
    ⟨guard, -⟩ | ⟨-, refused⟩
  · rw [coe_image_univ] at guard
    exact (disabled ((simulates.same.guard injective action).mp guard)).elim
  · exact refused

theorem Simulates.conversionDay (simulates : Simulates nodeId s net)
    (injective : Function.Injective nodeId) :
    (¬ Conflicted Set.univ s ∧ ∃ net', net.runConversionDay none = (.ok (), net') ∧
      Simulates nodeId (settled Set.univ s) net') ∨
    (Conflicted Set.univ s ∧ ∃ e, net.runConversionDay none = (.error e, net)) := by
  rcases Network.runConversionDay_spec simulates.consistent none with
    ⟨quiet, net', called, consistent, view⟩ | ⟨conflicted, refused⟩
  · rw [Option.getD_none, coe_image_univ] at quiet view
    refine Or.inl ⟨fun conflicted => quiet ((simulates.same.conflicted injective).mpr conflicted),
      net', called, consistent, ?_⟩
    rw [view]
    exact simulates.same.settled
  · rw [Option.getD_none, coe_image_univ] at conflicted
    exact Or.inr ⟨(simulates.same.conflicted injective).mp conflicted, refused⟩

/-- The nodes of the deployment and the network between two commands. -/
structure Coupled (nodeId : ι → String) (memory : ι → NodeShared) (net : Network) : Prop where
  named : ∀ x, (memory x).node.nodeId = nodeId x
  symmetric : ∀ x y, (memory x).isLinked (nodeId y) = (memory y).isLinked (nodeId x)
  simulates : Simulates nodeId (jointState nodeId memory) net

section Commands

variable [DecidableEq ι] {memory after : ι → NodeShared} {i : ι} {reply : AdminReply}
  {peer bearer : String} {order : IterationOrder}

omit [DecidableEq ι] in
theorem Coupled.linked_eq (coupled : Coupled nodeId memory net) (x y : ι) :
    net.linked (nodeId x) (nodeId y) = (memory x).isLinked (nodeId y) :=
  Bool.eq_iff_iff.mpr (coupled.simulates.same.network x y)

omit [DecidableEq ι] in
theorem Coupled.unknown (coupled : Coupled nodeId memory net)
    (isOwn : ∀ j, peer = nodeId j → j = i) : peer = nodeId i ∨ peer ∉ net.nodes := by
  by_cases known : peer ∈ net.nodes
  · obtain ⟨j, rfl⟩ := (coupled.simulates.mem_nodes peer).mp known
    exact Or.inl (congrArg nodeId (isOwn j rfl))
  · exact Or.inr known

omit [DecidableEq ι] in
theorem Coupled.of_state {s : State ι String} (named : ∀ x, (after x).node.nodeId = nodeId x)
    (state : jointState nodeId after = s) (simulates : Simulates nodeId s net)
    (symmetric : ∀ x y, s.network x y → s.network y x) : Coupled nodeId after net := by
  subst state
  exact ⟨named, fun x y => Bool.eq_iff_iff.mpr ⟨symmetric x y, symmetric y x⟩, simulates⟩

omit [DecidableEq ι] in
theorem Coupled.symmetric_network (coupled : Coupled nodeId memory net) (x y : ι)
    (linked : (jointState nodeId memory).network x y) :
    (jointState nodeId memory).network y x :=
  (coupled.symmetric x y).symm.trans linked

theorem Coupled.primed {net' : Network} {action : Action ι String}
    (coupled : Coupled nodeId memory net) (named : ∀ x, (after x).node.nodeId = nodeId x)
    (acts : jointState nodeId after =
      PerLinkSymmetric.primed Set.univ (jointState nodeId memory) action)
    (simulates : Simulates nodeId
      (PerLinkSymmetric.primed Set.univ (jointState nodeId memory) action) net') :
    Coupled nodeId after net' :=
  .of_state named acts simulates (symmetric_primed coupled.symmetric_network action)

theorem Coupled.act {action : Action ι String} (coupled : Coupled nodeId memory net)
    (injective : Function.Injective nodeId) (named : ∀ x, (after x).node.nodeId = nodeId x)
    (acts : jointState nodeId after =
      PerLinkSymmetric.primed Set.univ (jointState nodeId memory) action)
    (guard : Guard Set.univ (jointState nodeId memory) action) :
    ∃ net', net.apply (action.map nodeId) = some (.ok (), net') ∧ Coupled nodeId after net' := by
  obtain ⟨net', called, simulates⟩ := coupled.simulates.act injective guard
  exact ⟨net', called, coupled.primed named acts simulates⟩

variable (configured : Configured D nodeId) (coupled : Coupled nodeId memory net)
  (named : ∀ x, (after x).node.nodeId = nodeId x)
include configured coupled named

theorem coupled_linkUp
    (yields : Yields D memory i (HabiNode.linkUp (D.peers i) peer) after reply) :
    ∃ net', net.Calls (nodeId i) (.linkUp peer) reply net' ∧ Coupled nodeId after net' := by
  rcases configured.lookup_cases i peer with
    ⟨j, addr, other, rfl, found, listening⟩ | ⟨missing, isOwn⟩
  · obtain ⟨rfl, acts⟩ :=
      linkUp_yields coupled.named configured.distinct other found listening yields
    by_cases up : (memory i).isLinked (nodeId j) = true
    · obtain ⟨down, disconnected, simulatesDown⟩ := coupled.simulates.act
        configured.distinct
        (show Guard Set.univ _ (.linkDown i j) from ⟨trivial, trivial, Ne.symm other, up⟩)
      obtain ⟨net', called, simulates⟩ := simulatesDown.act configured.distinct
        (show Guard Set.univ _ (.linkUp i j) from ⟨trivial, trivial, Ne.symm other,
          by simp [PerLinkSymmetric.primed, setLink_apply]⟩)
      rw [primed_linkUp_linkDown] at simulates
      exact ⟨net', .relink disconnected called, coupled.primed named acts simulates⟩
    · obtain ⟨net', called, coupled'⟩ := coupled.act configured.distinct named acts
        ⟨trivial, trivial, Ne.symm other, up⟩
      exact ⟨net', .linkUp called, coupled'⟩
  · rw [HabiNode.linkUp, HabiNode.withPeerAddr_unknown missing, yields_done] at yields
    obtain ⟨rfl, rfl⟩ := yields
    exact ⟨net, .unknownPeer rfl (coupled.unknown isOwn), coupled⟩

theorem coupled_linkDown
    (yields : Yields D memory i (HabiNode.linkDown (D.peers i) peer) after reply) :
    ∃ net', net.Calls (nodeId i) (.linkDown peer) reply net' ∧ Coupled nodeId after net' := by
  rcases configured.lookup_cases i peer with
    ⟨j, addr, other, rfl, found, listening⟩ | ⟨missing, isOwn⟩
  · obtain ⟨rfl, acts⟩ :=
      linkDown_yields coupled.named configured.distinct other found listening yields
    by_cases up : (memory i).isLinked (nodeId j) = true
    · obtain ⟨net', called, coupled'⟩ := coupled.act configured.distinct named acts
        ⟨trivial, trivial, Ne.symm other, up⟩
      exact ⟨net', .linkDown called, coupled'⟩
    · have down : net.linked (nodeId i) (nodeId j) = false := by
        rw [coupled.linked_eq, Bool.eq_false_iff]
        exact up
      have known : nodeId j ∈ net.nodes := (coupled.simulates.mem_nodes _).mpr ⟨j, rfl⟩
      have back : ¬ (memory j).isLinked (nodeId i) = true := by rwa [coupled.symmetric j i]
      have unchanged : PerLinkSymmetric.primed Set.univ (jointState nodeId memory)
          (.linkDown i j) = jointState nodeId memory := primed_linkDown_of_down up back
      refine ⟨net, .alreadyDown known down, coupled.primed named acts ?_⟩
      rw [unchanged]
      exact coupled.simulates
  · rw [HabiNode.linkDown, HabiNode.withPeerAddr_unknown missing, yields_done] at yields
    obtain ⟨rfl, rfl⟩ := yields
    exact ⟨net, .unknownPeer rfl (coupled.unknown isOwn), coupled⟩

theorem coupled_propagate
    (yields : Yields D memory i (HabiNode.propagate (D.peers i) peer) after reply) :
    ∃ net', net.Calls (nodeId i) (.propagate peer) reply net' ∧ Coupled nodeId after net' := by
  rcases configured.lookup_cases i peer with
    ⟨j, addr, other, rfl, found, listening⟩ | ⟨missing, isOwn⟩
  · by_cases up : (memory i).isLinked (nodeId j) = true
    · obtain ⟨rfl, acts⟩ := propagate_yields (coupled.symmetric j i) coupled.named other found
        listening up yields
      have linked : (memory j).isLinked (nodeId i) = true := by rwa [coupled.symmetric j i]
      by_cases nothing : deliverable (jointState nodeId memory) j i = ∅
      · have unchanged : PerLinkSymmetric.primed Set.univ (jointState nodeId memory)
            (.propagate j i) = jointState nodeId memory := primed_propagate_of_empty nothing
        have disabled : ¬ Guard Set.univ (jointState nodeId memory) (.propagate j i) :=
          fun guard => guard.2.2.2.ne_empty nothing
        obtain ⟨e, refused⟩ := coupled.simulates.refuse configured.distinct disabled
        refine ⟨net, .nothingDeliverable ?_ refused, coupled.primed named acts ?_⟩
        · rwa [coupled.linked_eq]
        · rw [unchanged]
          exact coupled.simulates
      · obtain ⟨net', called, coupled'⟩ := coupled.act configured.distinct named acts
          ⟨trivial, trivial, linked, Set.nonempty_iff_ne_empty.mpr nothing⟩
        exact ⟨net', .propagate called, coupled'⟩
    · have unlinked : (memory j).isLinked (nodeId i) = false := by
        rw [coupled.symmetric j i, Bool.eq_false_iff]
        exact up
      have disabled : ¬ Guard Set.univ (jointState nodeId memory) (.propagate j i) :=
        fun guard => Bool.false_ne_true (unlinked.symm.trans guard.2.2.1)
      obtain ⟨e, refused⟩ := coupled.simulates.refuse configured.distinct disabled
      obtain ⟨rfl, rfl⟩ := propagate_yields_of_unlinked found (by simpa using up) yields
      refine ⟨net, .notLinked ?_ refused, coupled⟩
      rwa [coupled.linked_eq]
  · rw [HabiNode.propagate, HabiNode.withPeerAddr_unknown missing, yields_done] at yields
    obtain ⟨rfl, rfl⟩ := yields
    exact ⟨net, .unknownPeer rfl (coupled.unknown isOwn), coupled⟩

theorem coupled_spendAt
    (yields : Yields D memory i (HabiNode.spendAt (D.peers i) bearer) after reply) :
    ∃ net', net.Calls (nodeId i) (.spendAt bearer) reply net' ∧ Coupled nodeId after net' := by
  by_cases isHeld : bearer ∈ (memory i).node.ledger
  · obtain ⟨rfl, acts⟩ := spendAt_yields configured isHeld yields
    obtain ⟨net', called, coupled'⟩ := coupled.act configured.distinct named acts
      ⟨trivial, isHeld⟩
    exact ⟨net', .spendAt called, coupled'⟩
  · have disabled : ¬ Guard Set.univ (jointState nodeId memory) (.spendAt i bearer) :=
      fun guard => isHeld guard.2
    obtain ⟨e, refused⟩ := coupled.simulates.refuse configured.distinct disabled
    obtain ⟨rfl, rfl⟩ := spendAt_yields_of_missing isHeld yields
    rw [named i]
    exact ⟨net, .notHeld refused, coupled⟩

omit configured in
theorem coupled_status (yields : Yields D memory i HabiNode.status after reply) :
    ∃ net', net.Calls (nodeId i) .status reply net' ∧ Coupled nodeId after net' := by
  obtain ⟨rfl, rfl⟩ := status_yields yields
  have ledger : net.ledgerOf (nodeId i) = (after i).node.ledger :=
    Finset.coe_injective (coupled.simulates.same.ledgers i)
  have spent : net.spentOf (nodeId i) = (after i).node.spent :=
    Finset.coe_injective (coupled.simulates.same.spent i)
  rw [named i, NodeShared.ledgerSorted, NodeShared.spentSorted, ← ledger, ← spent]
  exact ⟨net, .status, coupled⟩

theorem coupled_conversionDay
    (yields : Yields D memory i (HabiNode.conversionDay (D.peers i) order) after reply) :
    ∃ net', net.Calls (nodeId i) .conversionDay reply net' ∧ Coupled nodeId after net' := by
  rcases conversionDay_yields configured coupled.named yields with
    ⟨quiet, rfl, settles⟩ | ⟨conflicted, rfl, detail, rfl⟩
  · obtain ⟨-, net', called, simulates⟩ :=
      (coupled.simulates.conversionDay configured.distinct).resolve_right
        fun refused => quiet refused.1
    exact ⟨net', .conversionDay called,
      .of_state named settles simulates coupled.symmetric_network⟩
  · obtain ⟨-, e, refused⟩ :=
      (coupled.simulates.conversionDay configured.distinct).resolve_left
        fun settles => settles.1 conflicted
    exact ⟨net, .conflict refused, coupled⟩

end Commands

noncomputable def nodeIds (nodeId : ι → String) : List String :=
  (Finset.univ : Finset ι).toList.map nodeId

open Classical in
/-- The node that has the id, a new one if there is none. -/
noncomputable def nodeNamed (nodeId : ι → String) (memory : ι → NodeShared) (id : String) : Node :=
  if named : ∃ x, nodeId x = id then (memory named.choose).node else Node.new id

noncomputable def startNetwork (nodeId : ι → String) (memory : ι → NodeShared) : Network :=
  Network.build (nodeIds nodeId) (nodeNamed nodeId memory) fun _ _ => false

theorem mem_nodeIds (x : ι) : nodeId x ∈ nodeIds nodeId :=
  List.mem_map_of_mem (Finset.mem_toList.mpr (Finset.mem_univ x))

theorem nodeNamed_nodeId {memory : ι → NodeShared} (injective : Function.Injective nodeId)
    (x : ι) : nodeNamed nodeId memory (nodeId x) = (memory x).node := by
  have named : ∃ y, nodeId y = nodeId x := ⟨x, rfl⟩
  simp only [nodeNamed, dif_pos named, injective named.choose_spec]

theorem startNetwork_simulates {memory : ι → NodeShared} (injective : Function.Injective nodeId)
    (down : ∀ x y, (memory x).isLinked (nodeId y) = false) :
    Simulates nodeId (jointState nodeId memory) (startNetwork nodeId memory) := by
  refine ⟨?_, fun x => ?_, fun x => ?_, fun x y => ?_⟩
  · have consistent :=
      Network.build_consistent (nodeIds nodeId) (nodeNamed nodeId memory) fun _ _ => false
    have ids : (nodeIds nodeId).toFinset = Finset.univ.image nodeId := by
      ext id
      simp [nodeIds]
    rwa [ids] at consistent
  · rw [startNetwork, Network.view_ledgers, Network.build_ledgerOf (mem_nodeIds x),
      nodeNamed_nodeId injective]
    rfl
  · rw [startNetwork, Network.view_spent, Network.build_spentOf (mem_nodeIds x),
      nodeNamed_nodeId injective]
    rfl
  · rw [startNetwork, Network.view_network, Network.build_linked]
    simp [down]

section Runs

variable [DecidableEq ι] {w w' start last : World ι} {execution : Execution ι}

omit [Fintype ι] in
theorem nodeId_executes (executes : Executes D w execution w') (x : ι) :
    (w'.memory x).node.nodeId = (w.memory x).node.nodeId := by
  obtain ⟨-, ⟨first, begins, reaches⟩, -⟩ := executes
  refine reaches.invariant (fun state => (state.memory x).node.nodeId =
    (w.memory x).node.nodeId) (nodeId_step begins x) ?_
  intro state event next _ same edge
  exact (nodeId_step edge x).trans same

/-- The step lemma: a command executed alone is answered by calls of the network. -/
theorem Executes.coupled (executes : Executes D w execution w')
    (configured : Configured D nodeId) (coupled : Coupled nodeId w.memory net)
    (noSeed : ∀ bearer, execution.command.message ≠ .seed bearer) :
    ∃ net', net.Calls (nodeId execution.node) execution.command.message execution.reply net' ∧
      Coupled nodeId w'.memory net' := by
  have named : ∀ x, (w'.memory x).node.nodeId = nodeId x := fun x =>
    (nodeId_executes executes x).trans (coupled.named x)
  have yields := executes.yields configured
  obtain ⟨i, ⟨message, order⟩, reply⟩ := execution
  cases message with
  | linkUp peer => exact coupled_linkUp configured coupled named yields
  | linkDown peer => exact coupled_linkDown configured coupled named yields
  | propagate peer => exact coupled_propagate configured coupled named yields
  | spendAt bearer => exact coupled_spendAt configured coupled named yields
  | conversionDay => exact coupled_conversionDay configured coupled named yields
  | status => exact coupled_status coupled named yields
  | seed bearer => exact (noSeed bearer rfl).elim

def Answers (nodeId : ι → String) (net : Network) (execution : Execution ι)
    (net' : Network) : Prop :=
  net.Calls (nodeId execution.node) execution.command.message execution.reply net'

/-- Sequential runs of the deployment are runs of the centralized network: the
links stay symmetric, and a network that starts in the joint state of the nodes
answers every command by calls that lead to the same joint state. -/
theorem centralized_network_simulates_sequential_runs {trace : List (World ι × Execution ι)}
    (configured : Configured D nodeId) (named : ∀ x, (start.memory x).node.nodeId = nodeId x)
    (down : ∀ x y, (start.memory x).isLinked (nodeId y) = false)
    (run : Run (Executes D) start trace last)
    (noSeed : ∀ entry ∈ trace, ∀ bearer, entry.2.command.message ≠ .seed bearer) :
    (∀ x y, (last.memory x).isLinked (nodeId y) = (last.memory y).isLinked (nodeId x)) ∧
    (∃ net, Simulates nodeId (jointState nodeId start.memory) net) ∧
    ∀ net, Simulates nodeId (jointState nodeId start.memory) net →
      ∃ trace' net', Run (Answers nodeId) net trace' net' ∧
        Simulates nodeId (jointState nodeId last.memory) net' ∧
        List.Forall₂ (fun entry entry' => entry.2 = entry'.2 ∧
          Simulates nodeId (jointState nodeId entry.1.memory) entry'.1) trace trace' := by
  have symmetric : ∀ x y, (start.memory x).isLinked (nodeId y) =
      (start.memory y).isLinked (nodeId x) := fun x y => by rw [down, down]
  have follows : ∀ net, Simulates nodeId (jointState nodeId start.memory) net →
      ∃ trace' net', Run (Answers nodeId) net trace' net' ∧ Coupled nodeId last.memory net' ∧
        List.Forall₂ (fun entry entry' => entry.2 = entry'.2 ∧
          Coupled nodeId entry.1.memory entry'.1) trace trace' := by
    intro net simulates
    refine run.simulated (fun _ execution => ∀ bearer, execution.command.message ≠ .seed bearer)
      (fun w net => Coupled nodeId w.memory net) noSeed ⟨named, symmetric, simulates⟩ ?_
    intro w execution w' net unseeded coupled executes
    exact executes.coupled configured coupled unseeded
  have simulatesFirst := startNetwork_simulates configured.distinct down
  refine ⟨?_, ⟨_, simulatesFirst⟩, fun net simulates => ?_⟩
  · obtain ⟨-, net', -, coupled, -⟩ := follows _ simulatesFirst
    exact coupled.symmetric
  · obtain ⟨trace', net', run', coupled, pairwise⟩ := follows net simulates
    exact ⟨trace', net', run', coupled.simulates,
      pairwise.imp fun entry entry' related => ⟨related.1, related.2.simulates⟩⟩

end Runs

def separated : World (Fin ["N1", "N2"].length) :=
  idle (unlinkedNode ["N1", "N2"] fun name => if name = "N1" then {"b1"} else ∅)

/-- `N2` links up to `N1` and spends the bearer it receives. -/
theorem centralized_network_simulates_sequential_runs_separated :
    ∃ trace last net trace' net',
      Run (Executes (cluster ["N1", "N2"])) separated trace last ∧
      trace.map Prod.snd = [⟨1, (AdminMessage.linkUp "N1").command, .ok⟩,
        ⟨1, (AdminMessage.spendAt "b1").command, .ok⟩] ∧
      Run (Answers ["N1", "N2"].get) net trace' net' ∧
      Simulates ["N1", "N2"].get (jointState ["N1", "N2"].get last.memory) net' ∧
      trace'.map Prod.snd = trace.map Prod.snd := by
  have executes : ((execute (cluster ["N1", "N2"]) separated
      ⟨1, (AdminMessage.linkUp "N1").command, .ok⟩
      [.thread 0 .locked, .thread 0 .requested, .thread 0 .served, .thread 0 .locked,
        .thread 0 .persisted, .thread 0 .replied]).bind fun linked =>
      execute (cluster ["N1", "N2"]) linked ⟨1, (AdminMessage.spendAt "b1").command, .ok⟩
        [.thread 1 .locked, .thread 1 .persisted, .thread 1 .sent, .delivered 0,
          .thread 1 .replied]).isSome := by decide
  obtain ⟨last, executed⟩ := Option.isSome_iff_exists.mp executes
  obtain ⟨linked, linksUp, spends⟩ := Option.bind_eq_some_iff.mp executed
  have run := (Run.refl.tail (executes_of_execute linksUp)).tail (executes_of_execute spends)
  obtain ⟨-, ⟨net, simulates⟩, follows⟩ := centralized_network_simulates_sequential_runs
    (cluster_configured (by decide)) (fun _ => rfl) (fun _ _ => rfl) run
    (by simp [AdminMessage.command])
  obtain ⟨trace', net', run', simulatesLast, pairwise⟩ := follows net simulates
  refine ⟨_, last, net, trace', net', run, rfl, run', simulatesLast, ?_⟩
  have sameLabels := pairwise.imp fun _ _ related => related.1.symm
  rw [← List.forall₂_eq_eq_eq, List.forall₂_map_left_iff, List.forall₂_map_right_iff]
  exact sameLabels.flip

end Deployment

end HabiCore
