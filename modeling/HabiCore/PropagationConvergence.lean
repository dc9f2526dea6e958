import HabiCore.Gossip
import HabiCore.NetworkRuns
import HabiCore.PossibleRuns

/-!
# Propagation converges

If nodes only propagate, then however they do it, they deliver each bearer at most
once to each node, and once nothing is deliverable any more every node holds
exactly what could come to it along links, past nodes that have not spent it.
-/

namespace HabiCore.Network

open LabelledRuns Gossip
open PerLinkSymmetric (Action Guard Next primed deliverable)

variable {V : Finset String} {start net net' last : Network} {nodeIds : List String}
  {src dst : String}

def propagations (_ : Network) : Call → Prop
  | .action (.propagate _ _) => True
  | _ => False

theorem exists_of_propagations {call : Call} (only : propagations net call) :
    ∃ src dst, call = .action (.propagate src dst) := by
  cases call with
  | action action =>
      cases action with
      | propagate src dst => exact ⟨src, dst, rfl⟩
      | _ => exact only.elim
  | conversionDay => exact only.elim

def succeeds (net : Network) : Call → Bool
  | .action action => (net.apply action).any fun returned => returned.1.isOk
  | .conversionDay _ => false

/-- A bearer passes along links to nodes that have not spent it. -/
def passes (net : Network) (b x y : String) : Prop :=
  net.linked x y = true ∧ b ∉ net.spentOf y

def Exhausted (net : Network) : Prop :=
  ∀ src dst, ∃ e, net.propagate src dst = some (.error e, net)

/-- What is still to be delivered, and to whom. -/
def undelivered (net : Network) : Set (String × String) :=
  missing net.passes net.view.ledgers

theorem finite_undelivered (consistent : Consistent V net) : net.undelivered.Finite := by
  refine ((V : Set String).toFinite.prod (V.biUnion net.ledgerOf : Set String).toFinite).subset
    (missing_subset_prod ?_ ?_)
  · exact fun b x y passed => (consistent.known_of_linked passed.1).2
  · intro n b isHeld
    have isHeld : b ∈ net.ledgerOf n := isHeld
    have known : n ∈ V := by
      by_contra unknown
      simp [consistent.ledgerOf_unknown unknown] at isHeld
    simpa using ⟨n, known, isHeld⟩

theorem guard_propagate_iff (consistent : Consistent V net) :
    Guard V net.view (.propagate src dst) ↔
      ∃ b, b ∈ net.ledgerOf src ∧ net.passes b src dst ∧ b ∉ net.ledgerOf dst := by
  constructor
  · rintro ⟨-, -, linked, b, ⟨isHeld, unspent⟩, isNew⟩
    exact ⟨b, isHeld, ⟨linked, unspent⟩, isNew⟩
  · rintro ⟨b, isHeld, ⟨linked, unspent⟩, isNew⟩
    obtain ⟨srcIn, dstIn⟩ := consistent.known_of_linked linked
    exact ⟨srcIn, dstIn, linked, b, ⟨isHeld, unspent⟩, isNew⟩

/-- A propagation delivers everything that passes, and changes nothing else. -/
theorem delivers_of_next (next : Next V net.view (.propagate src dst) net'.view) :
    Delivers net.passes net.view.ledgers src dst net'.view.ledgers ∧ net'.passes = net.passes ∧
      net'.spentOf = net.spentOf := by
  obtain ⟨⟨-, -, linked, -⟩, viewEq⟩ := next
  have sameSpent : net'.spentOf = net.spentOf := by
    funext n
    have same : net'.view.spent n = net.view.spent n := by rw [viewEq]; rfl
    simpa using same
  have sameLinks : ∀ x y, net'.linked x y = true ↔ net.linked x y = true := by
    intro x y
    have same : net'.view.network x y ↔ net.view.network x y := by rw [viewEq]; rfl
    exact same
  refine ⟨⟨fun n other => ?_, ?_⟩, ?_, sameSpent⟩
  · rw [viewEq]
    exact Function.update_of_ne other _ _
  · rw [viewEq]
    simp only [primed, Function.update_self]
    ext b
    by_cases isHeld : b ∈ net.ledgerOf dst <;>
      simp_all [deliverable, passes]
  · funext b x y
    simp only [passes, sameLinks, sameSpent]

theorem propagate_cases (consistent : Consistent V net)
    (called : CallStep net (.action (.propagate src dst)) net') :
    (net.succeeds (.action (.propagate src dst)) = false ∧ net' = net) ∨
      (net'.spentOf = net.spentOf ∧ net'.passes = net.passes ∧
        spread net'.passes net'.view.ledgers = spread net.passes net.view.ledgers ∧
        net'.undelivered.ncard < net.undelivered.ncard) := by
  obtain ⟨result, called⟩ := called
  rcases apply_spec consistent (.propagate src dst) with
    ⟨guard, after, performed, -, viewEq⟩ | ⟨-, e, refused⟩
  · obtain ⟨rfl, rfl⟩ : result = .ok () ∧ net' = after := by simpa [called] using performed
    obtain ⟨delivers, samePasses, sameSpent⟩ := delivers_of_next ⟨guard, viewEq⟩
    obtain ⟨b, isHeld, passed, isNew⟩ := (guard_propagate_iff consistent).mp guard
    refine Or.inr ⟨sameSpent, samePasses, ?_, ?_⟩
    · rw [samePasses, delivers.spread_eq]
    · apply Set.ncard_lt_ncard ?_ (finite_undelivered consistent)
      rw [undelivered, undelivered, samePasses]
      exact delivers.missing_ssubset isHeld passed isNew
  · obtain ⟨rfl, rfl⟩ : result = .error e ∧ net' = net := by simpa [called] using refused
    exact Or.inl ⟨by simp [succeeds, refused, Except.isOk, Except.toBool], rfl⟩

theorem exhausted_iff (consistent : Consistent V net) :
    net.Exhausted ↔ ∀ x y b, b ∈ net.ledgerOf x → net.passes b x y → b ∈ net.ledgerOf y := by
  have refusedIff : ∀ src dst, (∃ e, net.propagate src dst = some (.error e, net)) ↔
      ¬ Guard V net.view (.propagate src dst) := by
    intro src dst
    rcases apply_spec consistent (.propagate src dst) with
      ⟨guard, after, performed, -⟩ | ⟨noGuard, e, refused⟩
    · have performed : net.propagate src dst = some (.ok (), after) := performed
      simp [performed, guard]
    · exact ⟨fun _ => noGuard, fun _ => ⟨e, refused⟩⟩
  simp only [Exhausted, refusedIff, guard_propagate_iff consistent]
  constructor
  · intro nothing x y b isHeld passed
    by_contra isNew
    exact nothing x y ⟨b, isHeld, passed, isNew⟩
  · rintro closed src dst ⟨b, isHeld, passed, isNew⟩
    exact isNew (closed src dst b isHeld passed)

/-- What has become of a network when nodes have only propagated. -/
structure Propagated (V : Finset String) (net : Network) (trace : List (Network × Call))
    (last : Network) : Prop where
  consistent : Consistent V last
  spent : last.spentOf = net.spentOf
  passes : last.passes = net.passes
  spread : spread last.passes last.view.ledgers = spread net.passes net.view.ledgers
  successes : trace.countP (fun entry => entry.1.succeeds entry.2) + last.undelivered.ncard ≤
    net.undelivered.ncard

theorem propagated_of_run (consistent : Consistent V net) {trace : List (Network × Call)}
    (run : Run CallStep net trace last) (only : ∀ entry ∈ trace, propagations entry.1 entry.2) :
    Propagated V net trace last := by
  induction run with
  | refl => exact ⟨consistent, rfl, rfl, rfl, by simp⟩
  | @tail trace middle last call run edge ih =>
      have before := ih fun entry member => only entry (List.mem_append_left _ member)
      obtain ⟨src, dst, rfl⟩ := exists_of_propagations (only (middle, call) (by simp))
      rcases propagate_cases before.consistent edge with
        ⟨fails, rfl⟩ | ⟨sameSpent, samePasses, sameSpread, fewer⟩
      · refine ⟨before.consistent, before.spent, before.passes, before.spread, ?_⟩
        simpa [List.countP_append, fails] using before.successes
      · have atMostOne : [(middle, Call.action (.propagate src dst))].countP
            (fun entry => entry.1.succeeds entry.2) ≤ 1 := List.countP_le_length
        have counted := before.successes
        refine ⟨(edge.view_cases before.consistent).1, sameSpent.trans before.spent,
          samePasses.trans before.passes, sameSpread.trans before.spread, ?_⟩
        rw [List.countP_append]
        omega

theorem exists_propagation (consistent : Consistent V net) (more : ¬ net.Exhausted) :
    ∃ next, Reaches CallStep propagations net next ∧ Consistent V next ∧
      next.undelivered.ncard < net.undelivered.ncard := by
  obtain ⟨src, dst, guard⟩ : ∃ src dst, Guard V net.view (.propagate src dst) := by
    by_contra none
    refine more ((exhausted_iff consistent).mpr fun x y b isHeld passed => ?_)
    by_contra isNew
    exact none ⟨x, y, (guard_propagate_iff consistent).mpr ⟨b, isHeld, passed, isNew⟩⟩
  obtain ⟨next, called, consistentNext, -⟩ := apply_of_guard consistent guard
  have edge : CallStep net (.action (.propagate src dst)) next := .of_apply called
  have isAllowed : propagations net (.action (.propagate src dst)) := trivial
  refine ⟨next, .single isAllowed edge, consistentNext, ?_⟩
  rcases propagate_cases consistent edge with ⟨fails, -⟩ | ⟨-, -, -, fewer⟩
  · simp [succeeds, called, Except.isOk, Except.toBool] at fails
  · exact fewer

/-- Nodes can propagate until nothing is deliverable. -/
theorem exists_exhausted (consistent : Consistent V net) :
    ∃ last, Reaches CallStep propagations net last ∧ last.Exhausted := by
  obtain ⟨last, reaches, -, exhausted⟩ := Reaches.exists_done (fun net => (undelivered net).ncard)
    (fun _ consistent more => exists_propagation consistent more) consistent
  exact ⟨last, reaches, exhausted⟩

/-- Propagation converges.  From every reachable network, at most as many propagations
succeed as deliveries are due, in whatever order they are made; nothing more is
deliverable exactly when every node holds what could come to it along links, past
nodes that have not spent it; and this network is reached by some propagations. -/
theorem propagation_converges (initial : IsInitial nodeIds start)
    (reached : Reaches CallStep anyCall start net) :
    (∀ trace last, Run CallStep net trace last →
      (∀ entry ∈ trace, propagations entry.1 entry.2) →
        trace.countP (fun entry => entry.1.succeeds entry.2) ≤ net.undelivered.ncard ∧
        last.spentOf = net.spentOf ∧
        (last.Exhausted ↔ ∀ n b, b ∈ last.ledgerOf n ↔
          ∃ holder, b ∈ net.ledgerOf holder ∧
            Relation.ReflTransGen (net.passes b) holder n)) ∧
    ∃ last, Reaches CallStep propagations net last ∧ last.Exhausted := by
  have consistent := initial.consistent.reaches reached
  refine ⟨fun trace last run only => ?_, exists_exhausted consistent⟩
  have propagated := propagated_of_run consistent run only
  refine ⟨(Nat.le_add_right _ _).trans propagated.successes, propagated.spent, ?_⟩
  rw [exhausted_iff propagated.consistent]
  constructor
  · intro closed n b
    have fixed : spread last.passes last.view.ledgers = last.view.ledgers :=
      spread_eq_of_closed closed
    have same : last.view.ledgers n = spread net.passes net.view.ledgers n := by
      rw [← propagated.spread, fixed]
    exact Set.ext_iff.mp same b
  · intro determined x y b isHeld passed
    obtain ⟨holder, wasHeld, travels⟩ := (determined x b).mp isHeld
    exact (determined y b).mpr ⟨holder, wasHeld, travels.tail (propagated.passes ▸ passed)⟩

/-- In the network of the demonstration scenarios the bearer of `N1` comes to all nodes. -/
theorem propagation_converges_makeInitNetwork :
    ∃ last, Reaches CallStep propagations makeInitNetwork last ∧ last.Exhausted ∧
      ∀ n ∈ ["N1", "N2", "N3"], "b1" ∈ last.ledgerOf n := by
  obtain ⟨converges, last, ⟨trace, run, only⟩, exhausted⟩ :=
    propagation_converges makeInitNetwork_isInitial (.refl makeInitNetwork)
  have arrives := (converges trace last run only).2.2.mp exhausted
  have holds : "b1" ∈ makeInitNetwork.ledgerOf "N1" := by decide
  have passesOn : ∀ n ∈ ["N2", "N3"], makeInitNetwork.linked "N1" n = true ∧
      "b1" ∉ makeInitNetwork.spentOf n := by decide
  refine ⟨last, ⟨trace, run, only⟩, exhausted, fun n member => (arrives n "b1").mpr ?_⟩
  rcases List.mem_cons.mp member with rfl | other
  · exact ⟨"N1", holds, .refl⟩
  · exact ⟨"N1", holds, .single (passesOn n other)⟩

end HabiCore.Network
