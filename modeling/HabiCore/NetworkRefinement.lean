import HabiCore.NetworkRuns

/-!
# The network refines the per-link specification

Every network reachable through its four methods is a state of
`DIL_CRDT_PerLink_Symmetric` over its node ids, whatever their number, and every
call performs the action of the same name or changes nothing.
-/

namespace HabiCore.Network

open PerLinkSymmetric LabelledRuns

variable {nodeIds : List String} {V : Finset String} {start net net' : Network}

theorem spendAt_refused_of_spent (consistent : Consistent V net)
    (sound : Sound V net.view) {n b : String} (recorded : b ∈ net.spentOf n) :
    ∃ e, net.spendAt n b = some (.error e, net) := by
  rcases spendAt_spec consistent n b with ⟨guard, -⟩ | ⟨-, refused⟩
  · exact (Set.disjoint_left.mp (sound.disjoint n) guard.2 recorded).elim
  · exact refused

theorem spentOf_mono_of_reaches (consistent : Consistent V net)
    {allowed : Network → Call → Prop} (reaches : Reaches CallStep allowed net net')
    (n : String) : net.spentOf n ⊆ net'.spentOf n :=
  Finset.coe_subset.mp
    (TokenCirculation.spent_monotone (circulates consistent reaches) n)

/-- What one call of a method does to a network of the specification. -/
structure Refines (V : Finset String) (net : Network) (action : Action String String)
    (result : Except NetworkError Unit) (net' : Network) : Prop where
  ok_iff : result = .ok () ↔ Guard V net.view action
  primed_of_ok : result = .ok () → net'.view = primed V net.view action
  unchanged_of_error : result ≠ .ok () → net' = net
  spent_grows : ∀ n, net.spentOf n ⊆ net'.spentOf n
  spent_only_by_spendAt : ∀ n, net'.spentOf n ≠ net.spentOf n →
    ∃ b, action = .spendAt n b ∧ result = .ok ()
  spent_once : ∀ n b, action = .spendAt n b → result = .ok () →
    ∀ later, Reaches CallStep actionsOnly net' later →
      ∃ e, later.spendAt n b = some (.error e, later)

theorem refines_of_apply (consistent : Consistent V net) (sound : Sound V net.view)
    {action : Action String String} {result : Except NetworkError Unit}
    (called : net.apply action = some (result, net')) :
    Refines V net action result net' := by
  rcases apply_spec consistent action with
    ⟨guard, after, performed, afterConsistent, viewEq⟩ | ⟨noGuard, e, refused⟩
  · obtain ⟨rfl, rfl⟩ : result = .ok () ∧ net' = after := by
      simpa [called] using performed
    have next : Next V net.view action net'.view := ⟨guard, viewEq⟩
    refine ⟨by simp [guard], fun _ => viewEq, by simp, ?_, ?_, ?_⟩
    · intro n
      rcases spent_next next n with same | ⟨b, -, grown⟩
      · rw [view_spent, view_spent, Finset.coe_inj] at same
        exact same ▸ subset_rfl
      · rw [view_spent, view_spent] at grown
        exact Finset.coe_subset.mp (grown ▸ Set.subset_union_left)
    · intro n changed
      rcases spent_next next n with same | ⟨b, isSpend, -⟩
      · rw [view_spent, view_spent, Finset.coe_inj] at same
        exact (changed same).elim
      · exact ⟨b, isSpend, rfl⟩
    · rintro n b rfl - later reaches
      have recorded : b ∈ net'.spentOf n := by
        have : b ∈ net'.view.spent n := by simp [viewEq, primed]
        simpa using this
      exact spendAt_refused_of_spent (afterConsistent.reaches reaches)
        (sound_reaches afterConsistent (sound_next sound next) reaches)
        (spentOf_mono_of_reaches afterConsistent reaches n recorded)
  · obtain ⟨rfl, rfl⟩ : result = .error e ∧ net' = net := by
      simpa [called] using refused
    exact ⟨by simp [noGuard], by simp, fun _ => rfl, fun _ => subset_rfl, by simp, by simp⟩

/-- The refinement of `DIL_CRDT_PerLink_Symmetric`: on a reachable network the
link matrix is indexed by the node set, symmetric and irreflexive, no ledger
meets its node's spent set, and every call returns, having performed its action
or changed nothing. -/
theorem refines_perLinkSymmetric (initial : IsInitial nodeIds start)
    (reaches : Reaches CallStep actionsOnly start net) :
    Consistent nodeIds.toFinset net ∧
      (∀ a b, net.linked a b = net.linked b a) ∧
      (∀ a, net.linked a a = false) ∧
      (∀ n, Disjoint (net.ledgerOf n) (net.spentOf n)) ∧
      ∀ action, ∃ result net', net.apply action = some (result, net') ∧
        Refines nodeIds.toFinset net action result net' := by
  have consistent := initial.consistent.reaches reaches
  have sound := sound_reaches initial.consistent initial.sound reaches
  refine ⟨consistent, fun a b => ?_, fun a => ?_, fun n => ?_, fun action => ?_⟩
  · exact Bool.eq_iff_iff.mpr ⟨sound.symmetric a b, sound.symmetric b a⟩
  · simpa using sound.irreflexive a
  · simpa using sound.disjoint n
  · rcases apply_spec consistent action with ⟨-, net', called, -⟩ | ⟨-, e, called⟩
    · exact ⟨_, net', called, refines_of_apply consistent sound called⟩
    · exact ⟨_, net, called, refines_of_apply consistent sound called⟩

/-- The refinement on the network of the demonstration scenarios. -/
theorem refines_perLinkSymmetric_makeInitNetwork :
    ∃ result net', makeInitNetwork.apply (.spendAt "N1" "b1") = some (result, net') ∧
      Refines {"N1", "N2", "N3"} makeInitNetwork (.spendAt "N1" "b1") result net' :=
  (refines_perLinkSymmetric makeInitNetwork_isInitial (.refl _)).2.2.2.2 (.spendAt "N1" "b1")

end HabiCore.Network
