import HabiCore.NetworkRefinement

/-!
# A settlement of all nodes is final

When Conversion Day succeeds with every node participating, each bearer spent
so far has one spender and no copy left.  By the extinction theorem of token
circulation this remains so under all further calls.
-/

namespace HabiCore.Network

open PerLinkSymmetric LabelledRuns TokenCirculation

variable {nodeIds : List String} {V : Finset String} {net settledNet last : Network}
  {b : String}

/-- A settlement without a conflict leaves each burned bearer extinct, with a
single spender. -/
theorem extinct_of_settlement (consistent : Consistent V net)
    (settle : net.runConversionDay none = (.ok (), settledNet))
    {spender : String} (recorded : b ∈ net.spentOf spender) :
    Consistent V settledNet ∧ b ∉ (holdings settledNet.view).circulating ∧
      ∀ n, b ∈ settledNet.spentOf n ↔ n = spender := by
  rcases runConversionDay_spec consistent none with
    ⟨quiet, after, performed, afterConsistent, viewEq⟩ | ⟨-, e, refused⟩
  · rw [settle] at performed
    obtain rfl : settledNet = after := by simpa using performed
    have known : ∀ n, b ∈ net.spentOf n → n ∈ V := by
      intro n spent
      by_contra unknown
      simp [consistent.spentOf_unknown unknown] at spent
    have spentSame : ∀ n, b ∈ settledNet.spentOf n ↔ b ∈ net.spentOf n := by
      intro n
      have same : settledNet.view.spent n = net.view.spent n := by rw [viewEq]; rfl
      rw [view_spent, view_spent, Finset.coe_inj] at same
      rw [same]
    refine ⟨afterConsistent, ?_, fun n => ?_⟩
    · rw [viewEq]
      apply extinct_settled
      · intro a unknown
        simp [consistent.ledgerOf_unknown unknown]
      · exact ⟨spender, known spender recorded, recorded⟩
    · rw [spentSame]
      constructor
      · intro spent
        by_contra distinct
        exact quiet ⟨b, n, known n spent, spender, known spender recorded, distinct,
          spent, recorded⟩
      · rintro rfl
        exact recorded
  · simp [settle] at refused

/-- Settlement finality: from a successful settlement of all nodes on, no ledger
contains a bearer that had been spent, its only spender stays its only spender,
and every attempt to spend it is refused. -/
theorem settlement_is_final {start : Network} (initial : IsInitial nodeIds start)
    (reached : Reaches CallStep anyCall start net)
    (settle : net.runConversionDay none = (.ok (), settledNet))
    (continued : Reaches CallStep anyCall settledNet last)
    {spender : String} (recorded : b ∈ net.spentOf spender) :
    (∀ n, b ∉ last.ledgerOf n) ∧
      (∀ n, b ∈ last.spentOf n ↔ n = spender) ∧
      ∀ n, ∃ e, last.spendAt n b = some (.error e, last) := by
  obtain ⟨consistent, extinct, spenders⟩ :=
    extinct_of_settlement (initial.consistent.reaches reached) settle recorded
  obtain ⟨stillExtinct, sameSpenders⟩ :=
    extinct_forever extinct (circulates consistent continued)
  have noCopy : ∀ n, b ∉ last.ledgerOf n := fun n held => stillExtinct ⟨n, held⟩
  refine ⟨noCopy, fun n => ?_, fun n => ?_⟩
  · rw [← spenders n]
    exact Set.ext_iff.mp sameSpenders n
  · rcases spendAt_spec (consistent.reaches continued) n b with ⟨guard, -⟩ | ⟨-, refused⟩
    · exact (noCopy n guard.2).elim
    · exact refused

/-- Finality of the settlement that follows a spend in the demonstration
scenario. -/
theorem settlement_is_final_makeInitNetwork :
    ∃ net settledNet : Network, net.runConversionDay none = (.ok (), settledNet) ∧
      (∀ n, "b1" ∉ settledNet.ledgerOf n) ∧
      (∀ n, "b1" ∈ settledNet.spentOf n ↔ n = "N1") ∧
      ∀ n, ∃ e, settledNet.spendAt n "b1" = some (.error e, settledNet) := by
  have initial := makeInitNetwork_isInitial
  have holds : "b1" ∈ makeInitNetwork.ledgerOf "N1" := by decide
  have guard : Guard (["N1", "N2", "N3"].toFinset : Finset String) makeInitNetwork.view
      (.spendAt "N1" "b1") := ⟨by simp, holds⟩
  obtain ⟨net, spent, consistent, viewEq⟩ := apply_of_guard initial.consistent guard
  have spentEq : ∀ n, net.view.spent n = if n = "N1" then {"b1"} else ∅ := by
    intro n
    rw [viewEq]
    by_cases isN1 : n = "N1" <;> simp [primed, initial.spentOf_eq, isN1]
  have recorded : "b1" ∈ net.spentOf "N1" := by
    have := spentEq "N1"
    rw [view_spent] at this
    exact Finset.mem_coe.mp (this ▸ by simp)
  rcases runConversionDay_spec consistent none with
    ⟨-, settledNet, settle, -⟩ | ⟨⟨b, n, -, m, -, distinct, nSpent, mSpent⟩, -⟩
  · exact ⟨net, settledNet, settle,
      settlement_is_final initial (.single trivial (.of_apply spent)) settle (.refl _) recorded⟩
  · rw [spentEq] at nSpent mSpent
    split at nSpent <;> split at mSpent
    · exact (distinct (by simp_all)).elim
    all_goals simp_all

end HabiCore.Network
