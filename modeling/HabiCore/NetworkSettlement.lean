import HabiCore.NetworkRuns
import HabiCore.QuorumSettlement

/-!
# The network and the quorum-gated settlement

`Network` does not look at its links when it settles.  If Conversion Day is called
for all nodes, and only while all are connected, its states are exactly those of
`DIL_CRDT_PerLink_ConversionDay` over its node ids.
-/

namespace HabiCore.Network

open LabelledRuns PerLinkSymmetric
open QuorumSettlement (FullyConnected anyAction)

variable {V : Finset String} {start net net' : Network} {nodeIds : List String}

/-- Conversion Day is only called for all nodes, and while all are connected. -/
def quorate (net : Network) : Call → Prop
  | .action _ => True
  | .conversionDay participants =>
      participants = none ∧ ∀ a ∈ net.nodes, ∀ b ∈ net.nodes, a = b ∨ net.linked a b = true

def settlementView (net : Network) (justSettled : Prop) : QuorumSettlement.State String String :=
  { toState := net.view, justSettled := justSettled }

/-- A call is an action of the specification, or changes nothing. -/
theorem CallStep.quorate_cases (consistent : Consistent V net) {call : Call}
    (isQuorate : quorate net call) (edge : CallStep net call net') (justSettled : Prop) :
    net' = net ∨ ∃ action settled', QuorumSettlement.Next V (net.settlementView justSettled) action
      (net'.settlementView settled') := by
  obtain ⟨-, same | ⟨action, -, -, performed⟩ | ⟨participants, rfl, -, quiet, viewEq⟩⟩ :=
    edge.view_cases consistent
  · exact Or.inl same
  · obtain ⟨guard, viewEq⟩ := performed
    refine Or.inr ⟨.action action, False, guard, ?_⟩
    simp only [settlementView, viewEq]
    rfl
  · obtain ⟨rfl, connected⟩ := isQuorate
    have allLinked : FullyConnected V (net.settlementView justSettled) := fun a aIn b bIn =>
      connected a ((consistent.nodes_known a).mpr aIn) b ((consistent.nodes_known b).mpr bIn)
    refine Or.inr ⟨.conversionDay, True, allLinked, ?_⟩
    have performed : QuorumSettlement.primed V (net.settlementView justSettled) .conversionDay =
        { toState := settled V net.view, justSettled := True } := if_neg quiet
    rw [performed, settlementView, viewEq]
    rfl

/-- A network performs every action of the specification that is enabled. -/
theorem exists_call_of_next (consistent : Consistent V net) {justSettled : Prop}
    {action : QuorumSettlement.Action String String} {s : QuorumSettlement.State String String}
    (next : QuorumSettlement.Next V (net.settlementView justSettled) action s) :
    ∃ net', Reaches CallStep quorate net net' ∧ net'.view = s.toState := by
  obtain ⟨guard, rfl⟩ := next
  cases action with
  | action action =>
      obtain ⟨net', called, -, viewEq⟩ := apply_of_guard consistent guard
      have isQuorate : quorate net (.action action) := trivial
      exact ⟨net', .single isQuorate (.of_apply called), viewEq⟩
  | conversionDay =>
      have isQuorate : quorate net (.conversionDay none) := ⟨rfl, fun a aIn b bIn =>
        guard a ((consistent.nodes_known a).mp aIn) b ((consistent.nodes_known b).mp bIn)⟩
      rcases runConversionDay_spec consistent none with
        ⟨quiet, net', performed, -, viewEq⟩ | ⟨conflicted, -⟩
      · have settles : QuorumSettlement.primed V (net.settlementView justSettled) .conversionDay =
            { toState := settled V net.view, justSettled := True } := if_neg quiet
        refine ⟨net', .single isQuorate ⟨_, performed⟩, ?_⟩
        rw [settles]
        exact viewEq
      · have refuses : QuorumSettlement.primed V (net.settlementView justSettled) .conversionDay =
            { net.settlementView justSettled with justSettled := False } := if_pos conflicted
        refine ⟨net, .refl net, ?_⟩
        rw [refuses]
        rfl

/-- The states of the specification are exactly the states that a network reaches
by quorate calls. -/
theorem quorum_settlement_exact (initial : IsInitial nodeIds start)
    (t : PerLinkSymmetric.State String String) :
    (∃ net, Reaches CallStep quorate start net ∧ net.view = t) ↔
      ∃ justSettled, Reaches (QuorumSettlement.Next nodeIds.toFinset) anyAction
        (start.settlementView False) { toState := t, justSettled := justSettled } := by
  have consistent := initial.consistent
  constructor
  · rintro ⟨net, reaches, rfl⟩
    have both : Consistent nodeIds.toFinset net ∧ ∃ justSettled,
        Reaches (QuorumSettlement.Next nodeIds.toFinset) anyAction (start.settlementView False)
          (net.settlementView justSettled) := by
      refine reaches.invariant (fun net => Consistent nodeIds.toFinset net ∧ ∃ justSettled,
        Reaches (QuorumSettlement.Next nodeIds.toFinset) anyAction (start.settlementView False)
          (net.settlementView justSettled)) ⟨consistent, False, .refl _⟩ ?_
      rintro net call net' isQuorate ⟨consistent, justSettled, reaches⟩ edge
      refine ⟨(edge.view_cases consistent).1, ?_⟩
      rcases edge.quorate_cases consistent isQuorate justSettled with rfl |
        ⟨action, settled', next⟩
      · exact ⟨justSettled, reaches⟩
      · exact ⟨settled', reaches.tail trivial next⟩
    exact both.2
  · rintro ⟨justSettled, reaches⟩
    refine reaches.invariant (fun s => ∃ net, Reaches CallStep quorate start net ∧
      net.view = s.toState) ⟨start, .refl start, rfl⟩ ?_
    rintro s action s' - ⟨net, reached, viewEq⟩ next
    have here : s = net.settlementView s.justSettled := by rw [settlementView, viewEq]
    rw [here] at next
    obtain ⟨net', onwards, viewEq'⟩ := exists_call_of_next (consistent.reaches reached) next
    exact ⟨net', reached.trans onwards, viewEq'⟩

/-- A spend in the network of the demonstration scenarios. -/
theorem quorum_settlement_exact_makeInitNetwork :
    ∃ net : Network, "b1" ∈ net.spentOf "N1" ∧
      ∃ justSettled, Reaches (QuorumSettlement.Next ["N1", "N2", "N3"].toFinset) anyAction
        (makeInitNetwork.settlementView False)
        { toState := net.view, justSettled := justSettled } := by
  have initial := makeInitNetwork_isInitial
  have holds : "b1" ∈ makeInitNetwork.ledgerOf "N1" := by decide
  have guard : Guard (["N1", "N2", "N3"].toFinset : Finset String) makeInitNetwork.view
      (.spendAt "N1" "b1") := ⟨by simp, holds⟩
  obtain ⟨net, spent, -, viewEq⟩ := apply_of_guard initial.consistent guard
  have isQuorate : quorate makeInitNetwork (.action (.spendAt "N1" "b1")) := trivial
  have recorded : "b1" ∈ net.view.spent "N1" := by simp [viewEq, primed]
  exact ⟨net, by simpa using recorded, (quorum_settlement_exact initial net.view).mp
    ⟨net, .single isQuorate (.of_apply spent), rfl⟩⟩

end HabiCore.Network
