import HabiCore.PerLinkSpecification
import HabiCore.PossibleRuns

/-!
# The quorum-gated settlement

This is `DIL_CRDT_PerLink_ConversionDay` over an arbitrary set `Nodes` of nodes
and an arbitrary type of bearers, with arbitrary initial ledgers.  To the four
actions of the symmetric specification it adds Conversion Day, which runs only
while all nodes are connected.
-/

namespace HabiCore.QuorumSettlement

open LabelledRuns TokenCirculation
open PerLinkSymmetric (NoDoubleSpendAcrossNodes Conflicted burnSet settled holdings)

variable {Node Bearer : Type*}

structure State (Node Bearer : Type*) extends PerLinkSymmetric.State Node Bearer where
  justSettled : Prop

inductive Action (Node Bearer : Type*) where
  | action (action : PerLinkSymmetric.Action Node Bearer)
  | conversionDay

/-- `Init`, with the initial ledgers left open; there are no ledgers but those of `Nodes`. -/
structure Init (Nodes : Set Node) (s : State Node Bearer) : Prop where
  init : PerLinkSymmetric.Init Nodes s.toState
  within : ∀ a ∉ Nodes, s.ledgers a = ∅
  unsettled : ¬ s.justSettled

def FullyConnected (Nodes : Set Node) (s : State Node Bearer) : Prop :=
  ∀ a ∈ Nodes, ∀ b ∈ Nodes, a = b ∨ s.network a b

def Guard (Nodes : Set Node) (s : State Node Bearer) : Action Node Bearer → Prop
  | .action action => PerLinkSymmetric.Guard Nodes s.toState action
  | .conversionDay => FullyConnected Nodes s

section Primed

variable [DecidableEq Node]

open Classical in
noncomputable def primed (Nodes : Set Node) (s : State Node Bearer) :
    Action Node Bearer → State Node Bearer
  | .action action =>
      { toState := PerLinkSymmetric.primed Nodes s.toState action, justSettled := False }
  | .conversionDay =>
      if Conflicted Nodes s.toState then { s with justSettled := False }
      else { toState := settled Nodes s.toState, justSettled := True }

def Next (Nodes : Set Node) (s : State Node Bearer) (action : Action Node Bearer)
    (s' : State Node Bearer) : Prop :=
  Guard Nodes s action ∧ s' = primed Nodes s action

end Primed

def anyAction (_ : State Node Bearer) (_ : Action Node Bearer) : Prop := True

/-- Only links come up, and Conversion Day runs. -/
def unspending (_ : State Node Bearer) : Action Node Bearer → Prop
  | .action (.linkUp _ _) | .conversionDay => True
  | _ => False

/-- The property stated by the specification. -/
def QuorumSettlementIsSafe (Nodes : Set Node) (s : State Node Bearer) : Prop :=
  s.justSettled → NoDoubleSpendAcrossNodes Nodes s.toState

variable {Nodes : Set Node} {s s' first last : State Node Bearer} {action : Action Node Bearer}

theorem conflicted_iff :
    Conflicted Nodes s.toState ↔ ¬ NoDoubleSpendAcrossNodes Nodes s.toState := by
  simp only [Conflicted, NoDoubleSpendAcrossNodes, not_forall, Set.not_subsingleton_iff]
  constructor
  · rintro ⟨b, n, nIn, m, mIn, distinct, byN, byM⟩
    exact ⟨b, n, ⟨nIn, byN⟩, m, ⟨mIn, byM⟩, distinct⟩
  · rintro ⟨b, n, ⟨nIn, byN⟩, m, ⟨mIn, byM⟩, distinct⟩
    exact ⟨b, n, nIn, m, mIn, distinct, byN, byM⟩

/-- After a settlement no bearer has two spenders, and what has been spent is held
by nobody. -/
structure Secured (Nodes : Set Node) (s : State Node Bearer) : Prop where
  within : ∀ a ∉ Nodes, s.ledgers a = ∅
  single : QuorumSettlementIsSafe Nodes s
  extinct : s.justSettled → ∀ b ∈ burnSet Nodes s.toState, b ∉ (holdings s.toState).circulating

theorem Init.secured (init : Init Nodes s) : Secured Nodes s where
  within := init.within
  single settled := (init.unsettled settled).elim
  extinct settled := (init.unsettled settled).elim

variable [DecidableEq Node]

theorem within_primed (within : ∀ a ∉ Nodes, s.ledgers a = ∅) (guard : Guard Nodes s action) :
    ∀ a ∉ Nodes, (primed Nodes s action).ledgers a = ∅ := by
  intro a outside
  cases action with
  | action action =>
      cases action with
      | linkDown => exact within a outside
      | linkUp n m =>
          have notN : a ≠ n := fun same => outside (same ▸ guard.1)
          have notM : a ≠ m := fun same => outside (same ▸ guard.2.1)
          simpa [primed, PerLinkSymmetric.primed, notN, notM] using within a outside
      | propagate src dst =>
          have notDst : a ≠ dst := fun same => outside (same ▸ guard.2.1)
          simpa [primed, PerLinkSymmetric.primed, notDst] using within a outside
      | spendAt =>
          simp [primed, PerLinkSymmetric.primed, within a outside]
  | conversionDay =>
      simp only [primed]
      split
      · exact within a outside
      · simpa [settled, outside] using within a outside

theorem Secured.next (secured : Secured Nodes s) (next : Next Nodes s action s') :
    Secured Nodes s' := by
  obtain ⟨guard, rfl⟩ := next
  have within := within_primed secured.within guard
  cases action with
  | action => exact ⟨within, False.elim, False.elim⟩
  | conversionDay =>
      by_cases conflicted : Conflicted Nodes s.toState
      · have refused : primed Nodes s .conversionDay = { s with justSettled := False } :=
          if_pos conflicted
        rw [refused] at within ⊢
        exact ⟨within, False.elim, False.elim⟩
      · have performed : primed Nodes s .conversionDay =
            { toState := settled Nodes s.toState, justSettled := True } := if_neg conflicted
        rw [performed] at within ⊢
        exact ⟨within, fun _ => not_not.mp fun double => conflicted (conflicted_iff.mpr double),
          fun _ b burned => PerLinkSymmetric.extinct_settled secured.within burned⟩

theorem secured_of_reaches {allowed : State Node Bearer → Action Node Bearer → Prop}
    (secured : Secured Nodes first) (reaches : Reaches (Next Nodes) allowed first last) :
    Secured Nodes last :=
  reaches.invariant (Secured Nodes) secured fun _ _ _ _ secured next => secured.next next

/-- An action only passes tokens on, has them spent or removes them. -/
theorem holdings_next (next : Next Nodes s action s') :
    ∃ change, TokenCirculation.Step (holdings s.toState) change (holdings s'.toState) := by
  obtain ⟨guard, rfl⟩ := next
  cases action with
  | action => exact ⟨_, PerLinkSymmetric.circulates_next ⟨guard, rfl⟩⟩
  | conversionDay =>
      simp only [primed]
      split
      · exact ⟨.moved, subset_rfl, rfl⟩
      · exact ⟨.moved, PerLinkSymmetric.circulates_settled Nodes s.toState⟩

def checkedNodes : Set String := {"N1", "N2", "N3"}

def checkedInit : State String String where
  ledgers a := if a = "N1" then {"b1"} else if a = "N2" then {"b2"} else ∅
  spent _ := ∅
  network a b := a ≠ b
  justSettled := False

theorem checkedInit_init : Init checkedNodes checkedInit where
  init := ⟨fun _ => rfl, fun _ _ _ _ => Iff.rfl⟩
  within a outside := by
    simp only [checkedNodes, Set.mem_insert_iff, Set.mem_singleton_iff, not_or] at outside
    simp [checkedInit, outside.1, outside.2.1]
  unsettled := id

noncomputable def afterSpend : State String String :=
  primed checkedNodes checkedInit (.action (.spendAt "N1" "b1"))

theorem afterSpend_reached : Reaches (Next checkedNodes) anyAction checkedInit afterSpend := by
  have enabled : Guard checkedNodes checkedInit (.action (.spendAt "N1" "b1")) := by
    simp [Guard, PerLinkSymmetric.Guard, checkedNodes, checkedInit]
  exact .single trivial ⟨enabled, rfl⟩

theorem mem_spent_afterSpend {n b : String} :
    b ∈ afterSpend.spent n ↔ n = "N1" ∧ b = "b1" := by
  by_cases isN1 : n = "N1" <;>
    simp [afterSpend, primed, PerLinkSymmetric.primed, checkedInit, isN1]

theorem afterSpend_single : NoDoubleSpendAcrossNodes checkedNodes afterSpend.toState :=
  fun _ _ byFirst _ bySecond =>
    (mem_spent_afterSpend.mp byFirst.2).1.trans (mem_spent_afterSpend.mp bySecond.2).1.symm

/-- A settlement is final.  What has been spent by then has one spender, and it is
never held or spent again. -/
theorem quorum_settlement_is_final (init : Init Nodes first)
    (reaches : Reaches (Next Nodes) anyAction first s) (settled : s.justSettled)
    (continued : Reaches (Next Nodes) anyAction s last) {spender : Node} {b : Bearer}
    (spenderIn : spender ∈ Nodes) (recorded : b ∈ s.spent spender) :
    (∀ n, b ∉ last.ledgers n) ∧ ∀ n ∈ Nodes, b ∈ last.spent n ↔ n = spender := by
  have secured := secured_of_reaches init.secured reaches
  have burned : b ∈ burnSet Nodes s.toState := ⟨spender, spenderIn, recorded⟩
  obtain ⟨extinct, spenders⟩ := TokenCirculation.extinct_of_reaches
    (fun s : State Node Bearer => holdings s.toState) holdings_next
    (secured.extinct settled b burned) continued
  refine ⟨fun n isHeld => extinct ⟨n, isHeld⟩, fun n nIn => ?_⟩
  have same : b ∈ last.spent n ↔ b ∈ s.spent n := Set.ext_iff.mp spenders n
  rw [same]
  constructor
  · exact fun isSpent => secured.single settled b ⟨nIn, isSpent⟩ ⟨spenderIn, recorded⟩
  · rintro rfl
    exact recorded

theorem quorum_settlement_is_final_afterSpend :
    ∃ s, Reaches (Next checkedNodes) anyAction afterSpend s ∧ s.justSettled ∧
      (∀ n, "b1" ∉ s.ledgers n) ∧ ∀ n ∈ checkedNodes, "b1" ∈ s.spent n ↔ n = "N1" := by
  have quiet : ¬ Conflicted checkedNodes afterSpend.toState := by
    rw [conflicted_iff, not_not]
    exact afterSpend_single
  have connected : FullyConnected checkedNodes afterSpend :=
    fun a _ b _ => em (a = b)
  have next : Next checkedNodes afterSpend .conversionDay
      { toState := settled checkedNodes afterSpend.toState, justSettled := True } :=
    ⟨connected, (if_neg quiet).symm⟩
  have settling : Reaches (Next checkedNodes) anyAction afterSpend _ := .single trivial next
  exact ⟨_, settling, trivial, quorum_settlement_is_final checkedInit_init
    (afterSpend_reached.trans settling) trivial (.refl _) (by simp [checkedNodes])
    (mem_spent_afterSpend.mpr ⟨rfl, rfl⟩)⟩

/-- Once two nodes have spent one bearer, no settlement succeeds any more. -/
theorem unsettled_of_reaches {allowed : State Node Bearer → Action Node Bearer → Prop}
    (conflicted : Conflicted Nodes first.toState) (unsettled : ¬ first.justSettled)
    (reaches : Reaches (Next Nodes) allowed first last) : ¬ last.justSettled := by
  have both : Conflicted Nodes last.toState ∧ ¬ last.justSettled := by
    refine reaches.invariant (fun s => Conflicted Nodes s.toState ∧ ¬ s.justSettled)
      ⟨conflicted, unsettled⟩ ?_
    rintro s action s' - ⟨⟨b, n, nIn, m, mIn, distinct, byN, byM⟩, -⟩ next
    obtain ⟨change, edge⟩ := holdings_next next
    have still : Conflicted Nodes s'.toState :=
      ⟨b, n, nIn, m, mIn, distinct, edge.spent_subset n byN, edge.spent_subset m byM⟩
    refine ⟨still, ?_⟩
    obtain ⟨-, rfl⟩ := next
    cases action with
    | action => exact not_false
    | conversionDay =>
        have before : Conflicted Nodes s.toState :=
          ⟨b, n, nIn, m, mIn, distinct, byN, byM⟩
        simp [primed, before]
  exact both.2

theorem exists_fullyConnected (finite : Nodes.Finite) (s : State Node Bearer) :
    ∃ last, Reaches (Next Nodes) unspending s last ∧ last.spent = s.spent ∧
      FullyConnected Nodes last := by
  refine Reaches.exists_allLinked finite (fun state same a aIn b bIn distinct down => ?_) rfl
  have isAllowed : unspending state (.action (.linkUp a b)) := trivial
  have next : Next Nodes state (.action (.linkUp a b)) _ := ⟨⟨aIn, bIn, distinct, down⟩, rfl⟩
  refine ⟨_, .single isAllowed next, same, ?_, fun x y linked => ?_⟩
  · simp [primed, PerLinkSymmetric.primed, PerLinkSymmetric.setLink_apply]
  · simp only [primed, PerLinkSymmetric.primed, PerLinkSymmetric.setLink_apply, and_true]
    exact or_iff_not_imp_left.mpr fun other => ⟨other, linked⟩

/-- In every reachable state, a settlement is still possible if and only if no bearer
has been spent by two nodes, and then without any further spend. -/
theorem settlement_possible_iff (finite : Nodes.Finite) (init : Init Nodes first)
    (reaches : Reaches (Next Nodes) anyAction first s) :
    ((∃ last, Reaches (Next Nodes) anyAction s last ∧ last.justSettled) ↔
      NoDoubleSpendAcrossNodes Nodes s.toState) ∧
    (NoDoubleSpendAcrossNodes Nodes s.toState →
      ∃ last, Reaches (Next Nodes) unspending s last ∧ last.justSettled ∧
        last.spent = s.spent) := by
  have possible : NoDoubleSpendAcrossNodes Nodes s.toState →
      ∃ last, Reaches (Next Nodes) unspending s last ∧ last.justSettled ∧
        last.spent = s.spent := by
    intro single
    obtain ⟨connected, linking, same, allLinked⟩ := exists_fullyConnected finite s
    have quiet : ¬ Conflicted Nodes connected.toState := by
      rw [conflicted_iff, not_not]
      simpa [NoDoubleSpendAcrossNodes, same] using single
    have isAllowed : unspending connected .conversionDay := trivial
    have next : Next Nodes connected .conversionDay
        { toState := settled Nodes connected.toState, justSettled := True } :=
      ⟨allLinked, (if_neg quiet).symm⟩
    exact ⟨_, linking.tail isAllowed next, trivial, same⟩
  refine ⟨⟨?_, fun single => ?_⟩, possible⟩
  · rintro ⟨last, onwards, isSettled⟩
    by_contra double
    have unsettled : ¬ s.justSettled := fun isSettled =>
      double ((secured_of_reaches init.secured reaches).single isSettled)
    exact unsettled_of_reaches (conflicted_iff.mpr double) unsettled onwards isSettled
  · obtain ⟨last, onwards, isSettled, -⟩ := possible single
    exact ⟨last, onwards.mono fun _ _ _ => trivial, isSettled⟩

theorem settlement_possible_iff_afterSpend :
    ∃ last, Reaches (Next checkedNodes) unspending afterSpend last ∧ last.justSettled ∧
      last.spent = afterSpend.spent := by
  have finite : checkedNodes.Finite := by simp [checkedNodes]
  exact (settlement_possible_iff finite checkedInit_init afterSpend_reached).2 afterSpend_single

end HabiCore.QuorumSettlement
