import HabiCore.NetworkRefinement

/-!
# What a double spend needs

A bearer can be spent a second time only if, when it was spent first, some
other node without a link to the spender held it.  Runs whose spenders are
linked to all other nodes have no double spends.
-/

namespace HabiCore.Network

open PerLinkSymmetric LabelledRuns TokenCirculation

variable {nodeIds : List String} {V : Finset String} {net net' start last : Network}

def fullyLinkedSpends (V : Finset String) (net : Network) (call : Call) : Prop :=
  ∀ x b net', call = .action (.spendAt x b) → net.spendAt x b = some (.ok (), net') →
    ∀ y ∈ V, y ≠ x → net.linked x y = true

/-- Some node other than the spender, and not linked to it, keeps a bearer that
still circulates after its spend. -/
theorem unlinked_holder (consistent : Consistent V net) {x b : String}
    (spend : net.spendAt x b = some (.ok (), net'))
    (copy : b ∈ (holdings net'.view).circulating) :
    ∃ y ∈ V, y ≠ x ∧ net.linked x y = false ∧ b ∈ net.ledgerOf y := by
  have called : net.apply (.spendAt x b) = some (.ok (), net') := spend
  obtain ⟨-, next⟩ := next_of_apply_ok consistent called
  have within : ∀ a ∉ (V : Set String), net.view.ledgers a = ∅ := by
    intro a unknown
    simp [consistent.ledgerOf_unknown unknown]
  obtain ⟨y, yIn, distinct, unlinked, held⟩ :=
    unlinked_holder_of_circulating within next copy
  exact ⟨y, yIn, distinct, by simpa using unlinked, held⟩

/-- While every spender is linked to all other nodes, spent bearers are extinct
and no bearer is spent twice. -/
theorem noDoubleSpend_of_fullyLinkedSpends (initial : IsInitial nodeIds start)
    (reaches : Reaches CallStep (fullyLinkedSpends nodeIds.toFinset) start last) :
    NoDoubleSpendAcrossNodes nodeIds.toFinset last.view := by
  have inv : Consistent nodeIds.toFinset last ∧ (holdings last.view).SpentExtinct ∧
      (holdings last.view).NoDoubleSpend := by
    refine reaches.invariant
      (fun net => Consistent nodeIds.toFinset net ∧ (holdings net.view).SpentExtinct ∧
        (holdings net.view).NoDoubleSpend)
      ⟨initial.consistent, ?_, ?_⟩ ?_
    · intro n b recorded
      simp [holdings, initial.spentOf_eq] at recorded
    · intro b n recorded
      simp [Holdings.spenders, holdings, initial.spentOf_eq] at recorded
    · rintro net call next allowedCall ⟨consistent, extinct, single⟩ edge
      obtain ⟨consistentNext, same | ⟨action, rfl, called, performed⟩ |
        ⟨participants, -, -, -, viewEq⟩⟩ := edge.view_cases consistent
      · exact ⟨consistentNext, same ▸ extinct, same ▸ single⟩
      · have circulation := circulates_next performed
        refine ⟨consistentNext, circulation.spentExtinct extinct ?_,
          circulation.noDoubleSpend extinct single⟩
        intro x b isSpend copy
        obtain rfl : action = .spendAt x b := by
          cases action <;> simp_all [Action.change]
        obtain ⟨y, yIn, distinct, unlinked, -⟩ := unlinked_holder consistent called copy
        simp [allowedCall x b next rfl called y yIn distinct] at unlinked
      · have circulation := circulates_settled
          (participants.getD nodeIds.toFinset : Set String) net.view
        rw [← viewEq] at circulation
        exact ⟨consistentNext, circulation.spentExtinct extinct (by simp),
          circulation.noDoubleSpend extinct single⟩
  intro b n nSpent m mSpent
  exact inv.2.2 b nSpent.2 mSpent.2

/-- The cause of a double spend.  If a bearer spent at `x` is spent again later,
then another node not linked to `x` held it at the time of the first spend.  In
particular no run has a double spend when all its spenders are linked to every
other node. -/
theorem double_spend_needs_unlinked_holder (initial : IsInitial nodeIds start) :
    (∀ before after later final x z b,
      Reaches CallStep anyCall start before →
      before.spendAt x b = some (.ok (), after) →
      Reaches CallStep anyCall after later →
      later.spendAt z b = some (.ok (), final) →
        ∃ y ∈ nodeIds, y ≠ x ∧ before.linked x y = false ∧ b ∈ before.ledgerOf y) ∧
    ∀ last, Reaches CallStep (fullyLinkedSpends nodeIds.toFinset) start last →
      last.noDoubleSpendAcrossNodes = [] := by
  constructor
  · intro before after later final x z b reached first between second
    have consistent := initial.consistent.reaches reached
    have firstCall : before.apply (.spendAt x b) = some (.ok (), after) := first
    have secondCall : later.apply (.spendAt z b) = some (.ok (), final) := second
    obtain ⟨afterConsistent, firstNext⟩ := next_of_apply_ok consistent firstCall
    obtain ⟨-, secondNext⟩ :=
      next_of_apply_ok (afterConsistent.reaches between) secondCall
    have copy : b ∈ (holdings after.view).circulating :=
      circulating_of_spent_again (circulates_next firstNext)
        (circulates afterConsistent between) (circulates_next secondNext)
    obtain ⟨y, yIn, found⟩ := unlinked_holder consistent first copy
    exact ⟨y, List.mem_toFinset.mp yIn, found⟩
  · intro last reaches
    exact (noDoubleSpendAcrossNodes_eq_nil (initial.consistent.reaches reaches)).mpr
      (noDoubleSpend_of_fullyLinkedSpends initial reaches)

def stocked (nodeIds : List String) (bearer : String) : Network :=
  { new nodeIds with
    nodes := FinmapFolds.modifyAll (new nodeIds).nodes
      (fun node => { node with ledger := {bearer} }) nodeIds }

theorem stocked_isInitial (nodeIds : List String) (bearer : String) :
    IsInitial nodeIds (stocked nodeIds bearer) where
  links_eq := rfl
  log_eq := rfl
  nodes_eq id := by
    rw [stocked, FinmapFolds.lookup_modifyAll _ _ (by simp)]
    split
    · simp [Function.comp_def]
    · rfl

theorem ledgerOf_stocked {bearer id : String} (known : id ∈ nodeIds) :
    (stocked nodeIds bearer).ledgerOf id = {bearer} := by
  simp only [ledgerOf, stocked]
  rw [FinmapFolds.lookup_modifyAll _ _ (by simp)]
  simp [known, new, FinmapFolds.lookup_insertAll]

theorem exists_double_spend {v w : String} (vIn : v ∈ nodeIds) (wIn : w ∈ nodeIds)
    (distinct : v ≠ w) (bearer : String) :
    ∃ before after final,
      Reaches CallStep actionsOnly (stocked nodeIds bearer) before ∧
      before.spendAt v bearer = some (.ok (), after) ∧
      after.spendAt w bearer = some (.ok (), final) ∧
      ∀ n b, b ∈ final.spentOf n ↔ (n = v ∨ n = w) ∧ b = bearer := by
  have initial := stocked_isInitial nodeIds bearer
  have guardDown : Guard (nodeIds.toFinset : Set String) (stocked nodeIds bearer).view
      (.linkDown v w) :=
    ⟨by simpa using vIn, by simpa using wIn, distinct,
      (initial.linked_iff v w).mpr ⟨vIn, wIn, distinct⟩⟩
  obtain ⟨before, cut, beforeConsistent, beforeView⟩ :=
    apply_of_guard initial.consistent guardDown
  have guardFirst : Guard (nodeIds.toFinset : Set String) before.view
      (.spendAt v bearer) := by
    refine ⟨by simpa using vIn, ?_⟩
    rw [beforeView]
    simp [primed, ledgerOf_stocked vIn]
  obtain ⟨after, first, afterConsistent, afterView⟩ :=
    apply_of_guard beforeConsistent guardFirst
  have guardSecond : Guard (nodeIds.toFinset : Set String) after.view
      (.spendAt w bearer) := by
    refine ⟨by simpa using wIn, ?_⟩
    have unlinked : ¬ setLink (stocked nodeIds bearer).view.network v w False v w := by
      rw [setLink_apply]; simp
    rw [afterView, beforeView]
    simp [primed, distinct.symm, PerLinkSymmetric.connectedTo, unlinked, ledgerOf_stocked wIn]
  obtain ⟨final, second, -, finalView⟩ := apply_of_guard afterConsistent guardSecond
  refine ⟨before, after, final, .single ⟨_, rfl⟩ (.of_apply cut), first, second, ?_⟩
  intro n b
  have spentEq : final.view.spent n =
      Function.update (Function.update (stocked nodeIds bearer).view.spent v
        ((stocked nodeIds bearer).view.spent v ∪ {bearer})) w
        (Function.update (stocked nodeIds bearer).view.spent v
          ((stocked nodeIds bearer).view.spent v ∪ {bearer}) w ∪ {bearer}) n := by
    rw [finalView, afterView, beforeView]
    rfl
  rw [← Finset.mem_coe, ← view_spent, spentEq]
  by_cases isW : n = w
  · simp [isW, distinct.symm, initial.spentOf_eq]
  · by_cases isV : n = v
    · simp [isV, distinct, initial.spentOf_eq]
    · simp [isW, isV, initial.spentOf_eq]

/-- The cause of the double spend of two nodes whose link is down. -/
theorem double_spend_needs_unlinked_holder_stocked :
    ∃ before after : Network, before.spendAt "N1" "b1" = some (.ok (), after) ∧
      ∃ y ∈ ["N1", "N2"], y ≠ "N1" ∧ before.linked "N1" y = false ∧
        "b1" ∈ before.ledgerOf y := by
  have firstKnown : "N1" ∈ ["N1", "N2"] := by simp
  have secondKnown : "N2" ∈ ["N1", "N2"] := by simp
  obtain ⟨before, after, final, reached, first, second, -⟩ :=
    exists_double_spend firstKnown secondKnown (by decide) "b1"
  exact ⟨before, after, first,
    (double_spend_needs_unlinked_holder (stocked_isInitial ["N1", "N2"] "b1")).1
      before after after final "N1" "N2" "b1" (reached.mono fun _ _ _ => trivial)
      first (.refl _) second⟩

end HabiCore.Network
