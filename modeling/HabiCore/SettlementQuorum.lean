import HabiCore.DoubleSpendCausality

/-!
# The quorum of an honest settlement

A settlement that is accepted certifies the absence of double spends exactly
when all nodes take part in it.  A settlement that misses one node accepts the
double spend of that node and another one.
-/

namespace HabiCore.Network

open PerLinkSymmetric LabelledRuns

variable {nodeIds : List String} {V P : Finset String} {net net' start : Network}

/-- After every accepted settlement of the participants `P` no bearer is spent
by two nodes. -/
def HonestSettlement (nodeIds : List String) (P : Finset String) : Prop :=
  ∀ start net net', IsInitial nodeIds start → Reaches CallStep actionsOnly start net →
    net.runConversionDay (some P) = (.ok (), net') → net'.noDoubleSpendAcrossNodes = []

/-- A settlement is accepted exactly when no two participants conflict. -/
theorem settles_iff (consistent : Consistent V net) :
    (∃ net', net.runConversionDay (some P) = (.ok (), net')) ↔
      ¬ Conflicted P net.view := by
  rcases runConversionDay_spec consistent (some P) with
    ⟨quiet, after, settledEq, -⟩ | ⟨conflicted, e, refused⟩
  · exact ⟨fun _ => quiet, fun _ => ⟨after, settledEq⟩⟩
  · constructor
    · rintro ⟨after, settledEq⟩
      simp [refused] at settledEq
    · intro quiet
      exact (quiet conflicted).elim

/-- An accepted settlement of all nodes leaves no double spend. -/
theorem noDoubleSpend_of_fullQuorum (consistent : Consistent V net) (full : V ⊆ P)
    (settledEq : net.runConversionDay (some P) = (.ok (), net')) :
    net'.noDoubleSpendAcrossNodes = [] := by
  rcases runConversionDay_spec consistent (some P) with
    ⟨quiet, after, performed, afterConsistent, viewEq⟩ | ⟨-, e, refused⟩
  · obtain rfl : net' = after := by simpa [settledEq] using performed
    refine (noDoubleSpendAcrossNodes_eq_nil afterConsistent).mpr ?_
    intro b n nSpent m mSpent
    by_contra distinct
    rw [viewEq] at nSpent mSpent
    exact quiet ⟨b, n, full nSpent.1, m, full mSpent.1, distinct, nSpent.2, mSpent.2⟩
  · simp [settledEq] at refused

/-- A settlement that misses the node `v` accepts a double spend of `v`. -/
theorem not_honest_of_missing {v w : String} (vIn : v ∈ nodeIds) (wIn : w ∈ nodeIds)
    (distinct : v ≠ w) (missing : v ∉ P) : ¬ HonestSettlement nodeIds P := by
  intro honest
  obtain ⟨before, after, final, reached, first, second, spentIff⟩ :=
    exists_double_spend vIn wIn distinct "b1"
  have initial := stocked_isInitial nodeIds "b1"
  have firstCall : before.apply (.spendAt v "b1") = some (.ok (), after) := first
  have secondCall : after.apply (.spendAt w "b1") = some (.ok (), final) := second
  have reachesFinal : Reaches CallStep actionsOnly (stocked nodeIds "b1") final :=
    (reached.tail ⟨_, rfl⟩ (.of_apply firstCall)).tail ⟨_, rfl⟩ (.of_apply secondCall)
  have finalConsistent := initial.consistent.reaches reachesFinal
  -- Among the participants only `w` has spent anything.
  have quiet : ¬ Conflicted P final.view := by
    rintro ⟨b, n, nIn, m, mIn, different, nSpent, mSpent⟩
    have only : ∀ x ∈ P, b ∈ final.spentOf x → x = w := by
      intro x xIn spent
      rcases ((spentIff x b).mp spent).1 with rfl | isW
      · exact (missing xIn).elim
      · exact isW
    exact different ((only n nIn nSpent).trans (only m mIn mSpent).symm)
  obtain ⟨settledNet, settledEq⟩ := (settles_iff finalConsistent).mpr quiet
  have clean := honest _ _ _ initial reachesFinal settledEq
  rcases runConversionDay_spec finalConsistent (some P) with
    ⟨-, after', performed, afterConsistent, viewEq⟩ | ⟨conflicted, -⟩
  · obtain rfl : settledNet = after' := by simpa [settledEq] using performed
    have single := (noDoubleSpendAcrossNodes_eq_nil afterConsistent).mp clean "b1"
    rw [viewEq] at single
    have spentBy : ∀ x ∈ nodeIds, (x = v ∨ x = w) →
        x ∈ (nodeIds.toFinset : Set String) ∧
          "b1" ∈ (settled (P : Set String) final.view).spent x := by
      intro x known isSpender
      exact ⟨by simpa using known, (spentIff x "b1").mpr ⟨isSpender, rfl⟩⟩
    exact distinct (single (spentBy v vIn (Or.inl rfl)) (spentBy w wIn (Or.inr rfl)))
  · exact quiet conflicted

/-- Among two nodes or more, exactly the participant sets that contain every
node settle honestly. -/
theorem honestSettlement_iff_fullQuorum (several : 2 ≤ nodeIds.toFinset.card)
    (P : Finset String) : HonestSettlement nodeIds P ↔ ∀ id ∈ nodeIds, id ∈ P := by
  constructor
  · intro honest v vIn
    by_contra missing
    have vMem : v ∈ nodeIds.toFinset := List.mem_toFinset.mpr vIn
    obtain ⟨w, wMem, distinct⟩ := Finset.exists_mem_ne several v
    exact not_honest_of_missing vIn (List.mem_toFinset.mp wMem) distinct.symm missing honest
  · intro full start net net' initial reaches settledEq
    refine noDoubleSpend_of_fullQuorum (initial.consistent.reaches reaches) ?_ settledEq
    intro id known
    exact full id (List.mem_toFinset.mp known)

/-- The three nodes of the demonstration settle honestly only together. -/
theorem honestSettlement_iff_fullQuorum_three :
    ¬ HonestSettlement ["N1", "N2", "N3"] {"N1", "N2"} := by
  have several : 2 ≤ ["N1", "N2", "N3"].toFinset.card := by decide
  rw [honestSettlement_iff_fullQuorum several {"N1", "N2"}]
  decide

end HabiCore.Network
