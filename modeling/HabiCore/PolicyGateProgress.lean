import HabiCore.FairBehaviours
import HabiCore.PolicyGate

/-!
# Progress of the policy gate

Under weak fairness of its confirmations, approvals and deferrals the policy
gate decides every pending action, unless some node that has not confirmed it
goes down and up again for ever.
-/

namespace HabiCore.PolicyGate

open FairBehaviours

variable {Node Action : Type*} [DecidableEq Node] [DecidableEq Action]

/-- `ENABLED <<event>>_vars`: the event is possible and changes a variable. -/
def Enabled (event : Event Node Action) (s : State Node Action) : Prop :=
  Guard s event ∧ primed s event ≠ s

abbrev Behaviour (Node Action : Type*) [DecidableEq Node] [DecidableEq Action] :=
  FairBehaviours.Behaviour (@Step Node Action _ _)

variable {β : Behaviour Node Action} {s s' : State Node Action} {a : Action} {n : Node} {i j : Nat}

/-- `WF_vars(event)` -/
def Fair (β : Behaviour Node Action) (event : Event Node Action) : Prop :=
  β.WeaklyFair (Enabled event) (· = some event)

/-- Weak fairness of the events that lead to a decision on an action. -/
structure FairDecision (β : Behaviour Node Action) (a : Action) : Prop where
  confirms : ∀ n, Fair β (.nodeConfirms n a)
  approves : Fair β (.approveIfQuorumConfirmed a)
  defers : Fair β (.deferIfUnreachable a)

def Decided (a : Action) (s : State Node Action) : Prop :=
  s.decisions a ≠ .none

theorem enabled_approve (isPending : a ∈ s.pending) (undecided : ¬ Decided a s)
    (complete : s.confirmations a = Set.univ) : Enabled (.approveIfQuorumConfirmed a) s := by
  have isOpen : s.decisions a = .none := not_not.mp undecided
  refine ⟨⟨isPending, isOpen, complete⟩, fun same => ?_⟩
  have decision := congrArg (fun s => s.decisions a) same
  simp [primed, isOpen] at decision

theorem enabled_defer (isPending : a ∈ s.pending) (undecided : ¬ Decided a s)
    (down : ¬ s.networkUp n) (missing : n ∉ s.confirmations a) :
    Enabled (.deferIfUnreachable a) s := by
  have isOpen : s.decisions a = .none := not_not.mp undecided
  refine ⟨⟨isPending, isOpen, n, down, missing⟩, fun same => ?_⟩
  have decision := congrArg (fun s => s.decisions a) same
  simp [primed, isOpen] at decision

theorem enabled_confirm (isPending : a ∈ s.pending) (undecided : ¬ Decided a s)
    (up : s.networkUp n) (missing : n ∉ s.confirmations a) : Enabled (.nodeConfirms n a) s := by
  have isOpen : s.decisions a = .none := not_not.mp undecided
  refine ⟨⟨isPending, isOpen, up⟩, fun same => missing ?_⟩
  have confirmed := congrArg (fun s => s.confirmations a) same
  simp only [primed, Function.update_self] at confirmed
  exact confirmed ▸ Set.mem_union_right _ rfl

theorem always_pending (isPending : a ∈ (β.state i).pending) :
    β.Always i fun s => a ∈ s.pending := by
  refine Behaviour.always_of_preserved (fun s event s' edge before => ?_) isPending
  rcases edge.pending_cases a with same | ⟨-, -, now⟩
  · exact same.mpr before
  · exact now

theorem always_confirmed (isConfirmed : n ∈ (β.state i).confirmations a) :
    β.Always i fun s => n ∈ s.confirmations a :=
  Behaviour.always_of_preserved (fun _ _ _ edge before => edge.confirmations_subset a before)
    isConfirmed

theorem always_decided {decision : Decision} (taken : decision ≠ .none)
    (decided : (β.state i).decisions a = decision) : β.Always i fun s => s.decisions a = decision :=
  Behaviour.always_of_preserved (fun _ _ _ edge before =>
    (edge.decisions_of_decided (before ▸ taken)).trans before) decided

theorem decided_of_label {event : Event Node Action} (labelled : β.label j = some event)
    (decides : event = .approveIfQuorumConfirmed a ∨ event = .deferIfUnreachable a) :
    Decided a (β.state (j + 1)) := by
  have edge := β.next j
  rw [labelled] at edge
  obtain ⟨-, next⟩ := edge
  rw [next]
  rcases decides with rfl | rfl <;> simp [Decided, primed]

theorem confirmed_of_label (labelled : β.label j = some (.nodeConfirms n a)) :
    n ∈ (β.state (j + 1)).confirmations a := by
  have edge := β.next j
  rw [labelled] at edge
  obtain ⟨-, next⟩ := edge
  rw [next]
  simp [primed]

theorem decided_of_complete (fair : Fair β (.approveIfQuorumConfirmed a))
    (isPending : β.Always i fun s => a ∈ s.pending)
    (complete : β.Always i fun s => s.confirmations a = Set.univ) : β.Eventually i (Decided a) :=
  Behaviour.WeaklyFair.reaches fair
    (fun j later undecided => enabled_approve (isPending j later) undecided (complete j later))
    fun _ _ labelled => decided_of_label labelled (Or.inl rfl)

/-- An action is decided if a node that has not confirmed it stays unreachable. -/
theorem decided_of_down (fair : Fair β (.deferIfUnreachable a))
    (isPending : β.Always i fun s => a ∈ s.pending)
    (missing : β.Always i fun s => n ∉ s.confirmations a)
    (down : β.Always i fun s => ¬ s.networkUp n) : β.Eventually i (Decided a) :=
  Behaviour.WeaklyFair.reaches fair
    (fun j later undecided =>
      enabled_defer (isPending j later) undecided (down j later) (missing j later))
    fun _ _ labelled => decided_of_label labelled (Or.inr rfl)

theorem confirmed_of_up (fair : Fair β (.nodeConfirms n a))
    (isPending : β.Always i fun s => a ∈ s.pending)
    (undecided : β.Always i fun s => ¬ Decided a s) (up : β.Always i fun s => s.networkUp n) :
    β.Eventually i fun s => n ∈ s.confirmations a :=
  Behaviour.WeaklyFair.reaches fair
    (fun j later missing =>
      enabled_confirm (isPending j later) (undecided j later) (up j later) missing)
    fun _ _ labelled => confirmed_of_label labelled

/-- An undecided action lacks the confirmation of some node for ever. -/
theorem exists_missing [Finite Node] (fair : Fair β (.approveIfQuorumConfirmed a))
    (isPending : β.Always i fun s => a ∈ s.pending)
    (undecided : β.Always i fun s => ¬ Decided a s) :
    ∃ n, β.Always i fun s => n ∉ s.confirmations a := by
  by_contra none
  simp only [not_exists, ← Behaviour.not_eventually, not_not] at none
  obtain ⟨j, later, complete⟩ := Behaviour.exists_always_forall fun n => by
    obtain ⟨j, le, isConfirmed⟩ := none n
    exact ⟨j, le, always_confirmed isConfirmed⟩
  obtain ⟨k, le, decided⟩ := decided_of_complete fair (isPending.mono later)
    fun k le => Set.eq_univ_of_forall fun n => complete k le n
  exact undecided k (later.trans le) decided

/-- The node that keeps an action undecided goes down and up again for ever. -/
theorem flaps_of_undecided (fair : FairDecision β a)
    (isPending : β.Always i fun s => a ∈ s.pending)
    (undecided : β.Always i fun s => ¬ Decided a s)
    (missing : β.Always i fun s => n ∉ s.confirmations a) :
    β.Recurs (fun s => s.networkUp n) ∧ β.Recurs fun s => ¬ s.networkUp n := by
  constructor
  · by_contra down
    obtain ⟨j, down⟩ := Behaviour.not_recurs.mp down
    have later := le_max_left i j
    obtain ⟨k, le, decided⟩ := decided_of_down fair.defers (isPending.mono later)
      (missing.mono later) (down.mono (le_max_right i j))
    exact undecided k (later.trans le) decided
  · by_contra up
    obtain ⟨j, up⟩ := Behaviour.not_recurs.mp up
    simp only [not_not] at up
    have later := le_max_left i j
    obtain ⟨k, le, isConfirmed⟩ := confirmed_of_up (fair.confirms n) (isPending.mono later)
      (undecided.mono later) (up.mono (le_max_right i j))
    exact missing k (later.trans le) isConfirmed

/-- Every pending action is decided, unless a node that never confirms it goes down
and up again for ever.  Where a node that is reachable again and again confirms
in the end, every pending action is decided. -/
theorem pending_actions_are_decided [Finite Node] (fair : FairDecision β a)
    (isPending : a ∈ (β.state i).pending) :
    (β.Eventually i (Decided a) ∨ ∃ n, (β.Always i fun s => n ∉ s.confirmations a) ∧
      β.Recurs (fun s => s.networkUp n) ∧ β.Recurs fun s => ¬ s.networkUp n) ∧
    ((∀ n, β.StronglyFair (Enabled (.nodeConfirms n a)) (· = some (.nodeConfirms n a))) →
      β.Eventually i (Decided a)) := by
  have pending := always_pending isPending
  constructor
  · by_cases decided : β.Eventually i (Decided a)
    · exact Or.inl decided
    · rw [Behaviour.not_eventually] at decided
      obtain ⟨n, missing⟩ := exists_missing fair.approves pending decided
      exact Or.inr ⟨n, missing, flaps_of_undecided fair pending decided missing⟩
  · intro strong
    by_contra undecided
    rw [Behaviour.not_eventually] at undecided
    obtain ⟨n, missing⟩ := exists_missing fair.approves pending undecided
    obtain ⟨up, -⟩ := flaps_of_undecided fair pending undecided missing
    have recurs : β.Recurs (Enabled (.nodeConfirms n a)) := by
      intro k
      obtain ⟨j, le, isUp⟩ := up (max i k)
      have later := (le_max_left i k).trans le
      exact ⟨j, (le_max_right i k).trans le,
        enabled_confirm (pending j later) (undecided j later) isUp (missing j later)⟩
    obtain ⟨j, later, labelled⟩ := strong n recurs i
    exact missing (j + 1) (later.trans j.le_succ) (confirmed_of_label labelled)

/-- An action that all nodes have confirmed is approved or blocked in the end, and
stays so; it is enough that approvals are fair. -/
theorem complete_actions_are_settled (fair : Fair β (.approveIfQuorumConfirmed a))
    (isPending : a ∈ (β.state i).pending) (undecided : (β.state i).decisions a = .none)
    (complete : (β.state i).confirmations a = Set.univ) :
    ∃ j decision, i ≤ j ∧ (decision = .approved ∨ decision = .blocked) ∧
      β.Always j fun s => s.decisions a = decision := by
  have always : β.Always i fun s => s.confirmations a = Set.univ :=
    Behaviour.always_of_preserved (fun _ _ _ edge before =>
      Set.eq_univ_of_univ_subset (before ▸ edge.confirmations_subset a)) complete
  obtain ⟨j, later, decided⟩ := decided_of_complete fair (always_pending isPending) always
  obtain ⟨trace, run⟩ := β.exists_run later
  have notDeferred := not_deferred_of_run run complete undecided
  refine ⟨j, (β.state j).decisions a, later, ?_, always_decided decided rfl⟩
  cases decision : (β.state j).decisions a with
  | none => exact (decided decision).elim
  | approved => exact Or.inl rfl
  | blocked => exact Or.inr rfl
  | deferred => exact (notDeferred decision).elim

def confirmedByBoth : State Bool Unit :=
  primed (primed (primed initial (.proposeAction ())) (.nodeConfirms true ()))
    (.nodeConfirms false ())

theorem confirmedByBoth_complete : confirmedByBoth.confirmations () = Set.univ := by
  ext n
  cases n <;> simp [confirmedByBoth, primed]

/-- The action is proposed, confirmed and approved; then nothing happens any more. -/
def approval : Behaviour Bool Unit where
  state
    | 0 => initial
    | 1 => primed initial (.proposeAction ())
    | 2 => primed (primed initial (.proposeAction ())) (.nodeConfirms true ())
    | 3 => confirmedByBoth
    | _ + 4 => primed confirmedByBoth (.approveIfQuorumConfirmed ())
  label
    | 0 => some (.proposeAction ())
    | 1 => some (.nodeConfirms true ())
    | 2 => some (.nodeConfirms false ())
    | 3 => some (.approveIfQuorumConfirmed ())
    | _ + 4 => none
  next
    | 0 => ⟨by simp [Guard, initial], rfl⟩
    | 1 => ⟨by simp [Guard, primed, initial], rfl⟩
    | 2 => ⟨by simp [Guard, primed, initial], rfl⟩
    | 3 => ⟨⟨by simp [confirmedByBoth, primed], rfl, confirmedByBoth_complete⟩, rfl⟩
    | _ + 4 => rfl

theorem approval_decided : approval.Always 4 (Decided ()) := by
  intro j late
  obtain ⟨k, rfl⟩ := Nat.exists_eq_add_of_le' late
  simp [approval, Decided, primed]

theorem approval_disabled {event : Event Bool Unit}
    (undecided : ∀ s, Guard s event → s.decisions () = .none) :
    approval.Always 4 fun s => ¬ Enabled event s :=
  fun j late enabled => approval_decided j late (undecided _ enabled.1)

theorem approval_fair : FairDecision approval () where
  confirms _ := Behaviour.weaklyFair_of_disabled (approval_disabled fun _ guard => guard.2.1)
  approves := Behaviour.weaklyFair_of_disabled (approval_disabled fun _ guard => guard.2.1)
  defers := Behaviour.weaklyFair_of_disabled (approval_disabled fun _ guard => guard.2.1)

theorem pending_actions_are_decided_approval : approval.Eventually 1 (Decided ()) :=
  (pending_actions_are_decided approval_fair (by simp [approval, primed])).2 fun _ =>
    Behaviour.stronglyFair_of_disabled (approval_disabled fun _ guard => guard.2.1)

theorem complete_actions_are_settled_approval :
    ∃ j decision, 3 ≤ j ∧ (decision = .approved ∨ decision = .blocked) ∧
      approval.Always j fun s => s.decisions () = decision :=
  complete_actions_are_settled approval_fair.approves (by simp [approval, confirmedByBoth, primed])
    rfl confirmedByBoth_complete

end HabiCore.PolicyGate
