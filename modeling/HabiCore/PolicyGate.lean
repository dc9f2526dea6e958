import HabiCore.LabelledRuns
import Mathlib.Data.Set.Insert
import Mathlib.Logic.Function.Basic

/-!
# The policy gate

This is `PolicyGate` over arbitrary types of nodes and actions, its two
constants.  The states do not record who confirmed what in which network; the
traces of its runs do.
-/

namespace HabiCore.PolicyGate

open LabelledRuns

variable {Node Action : Type*}

inductive Decision where
  | none
  | approved
  | blocked
  | deferred
  deriving DecidableEq

structure State (Node Action : Type*) where
  pending : Set Action
  confirmations : Action → Set Node
  decisions : Action → Decision
  networkUp : Node → Prop

inductive Event (Node Action : Type*) where
  | proposeAction (a : Action)
  | nodeConfirms (n : Node) (a : Action)
  | nodeBlocks (n : Node) (a : Action)
  | approveIfQuorumConfirmed (a : Action)
  | deferIfUnreachable (a : Action)
  | linkDown (n : Node)
  | linkUp (n : Node)

structure Init (s : State Node Action) : Prop where
  pending : s.pending = ∅
  confirmations : ∀ a, s.confirmations a = ∅
  decisions : ∀ a, s.decisions a = .none
  networkUp : ∀ n, s.networkUp n

def Guard (s : State Node Action) : Event Node Action → Prop
  | .proposeAction a => a ∉ s.pending ∧ s.decisions a = .none
  | .nodeConfirms n a => a ∈ s.pending ∧ s.decisions a = .none ∧ s.networkUp n
  | .nodeBlocks n a => a ∈ s.pending ∧ s.decisions a = .none ∧ s.networkUp n
  | .approveIfQuorumConfirmed a =>
      a ∈ s.pending ∧ s.decisions a = .none ∧ s.confirmations a = Set.univ
  | .deferIfUnreachable a =>
      a ∈ s.pending ∧ s.decisions a = .none ∧ ∃ n, ¬ s.networkUp n ∧ n ∉ s.confirmations a
  | .linkDown _ => True
  | .linkUp _ => True

section Primed

variable [DecidableEq Node] [DecidableEq Action]

def primed (s : State Node Action) : Event Node Action → State Node Action
  | .proposeAction a => { s with pending := s.pending ∪ {a} }
  | .nodeConfirms n a =>
      { s with confirmations := Function.update s.confirmations a (s.confirmations a ∪ {n}) }
  | .nodeBlocks _ a => { s with decisions := Function.update s.decisions a .blocked }
  | .approveIfQuorumConfirmed a =>
      { s with decisions := Function.update s.decisions a .approved }
  | .deferIfUnreachable a => { s with decisions := Function.update s.decisions a .deferred }
  | .linkDown n => { s with networkUp := Function.update s.networkUp n False }
  | .linkUp n => { s with networkUp := Function.update s.networkUp n True }

/-- `[Next]_vars`: an event, or a step that leaves all variables unchanged. -/
def Step (s : State Node Action) (event : Option (Event Node Action))
    (s' : State Node Action) : Prop :=
  match event with
  | some event => Guard s event ∧ s' = primed s event
  | none => s' = s

end Primed

abbrev Trace (Node Action : Type*) := List (State Node Action × Option (Event Node Action))

/-- The decisions on an action in all states of a run, in order. -/
def decisionHistory (a : Action) (trace : Trace Node Action) (last : State Node Action) :
    List Decision :=
  (trace.map fun entry => entry.1.decisions a) ++ [last.decisions a]

/-- A reachable node takes its step of confirming the action. -/
def Confirms (n : Node) (a : Action) (entry : State Node Action × Option (Event Node Action)) :
    Prop :=
  entry.2 = some (.nodeConfirms n a) ∧ entry.1.networkUp n

variable [DecidableEq Node] [DecidableEq Action] {s s' first last : State Node Action}
  {event : Option (Event Node Action)} {trace : Trace Node Action}

/-- A decision is taken on a pending action without one, and by an event of its
own. -/
theorem Step.decisions_cases (edge : Step s event s') (a : Action) :
    s'.decisions a = s.decisions a ∨
      (a ∈ s.pending ∧ s.decisions a = .none ∧
        ((∃ n, event = some (.nodeBlocks n a) ∧ s'.decisions a = .blocked) ∨
          (event = some (.approveIfQuorumConfirmed a) ∧ s.confirmations a = Set.univ ∧
            s'.decisions a = .approved) ∨
          (event = some (.deferIfUnreachable a) ∧ s.confirmations a ≠ Set.univ ∧
            s'.decisions a = .deferred))) := by
  cases event with
  | none =>
      subst edge
      exact Or.inl rfl
  | some event =>
      obtain ⟨enabled, rfl⟩ := edge
      cases event with
      | nodeBlocks n a' =>
          by_cases same : a = a'
          · subst same
            exact Or.inr ⟨enabled.1, enabled.2.1, Or.inl ⟨n, rfl, by simp [primed]⟩⟩
          · exact Or.inl (by simp [primed, same])
      | approveIfQuorumConfirmed a' =>
          by_cases same : a = a'
          · subst same
            exact Or.inr ⟨enabled.1, enabled.2.1,
              Or.inr (Or.inl ⟨rfl, enabled.2.2, by simp [primed]⟩)⟩
          · exact Or.inl (by simp [primed, same])
      | deferIfUnreachable a' =>
          by_cases same : a = a'
          · subst same
            obtain ⟨n, -, missing⟩ := enabled.2.2
            have incomplete : s.confirmations a ≠ Set.univ := fun complete =>
              missing (by simp [complete])
            exact Or.inr ⟨enabled.1, enabled.2.1,
              Or.inr (Or.inr ⟨rfl, incomplete, by simp [primed]⟩)⟩
          · exact Or.inl (by simp [primed, same])
      | proposeAction | nodeConfirms | linkDown | linkUp => exact Or.inl rfl

theorem Step.decisions_of_decided (edge : Step s event s') {a : Action}
    (decided : s.decisions a ≠ .none) : s'.decisions a = s.decisions a := by
  rcases edge.decisions_cases a with same | ⟨-, undecided, -⟩
  · exact same
  · exact (decided undecided).elim

theorem Step.pending_cases (edge : Step s event s') (a : Action) :
    (a ∈ s'.pending ↔ a ∈ s.pending) ∨
      (event = some (.proposeAction a) ∧ a ∉ s.pending ∧ a ∈ s'.pending) := by
  cases event with
  | none =>
      subst edge
      exact Or.inl Iff.rfl
  | some event =>
      obtain ⟨enabled, rfl⟩ := edge
      cases event with
      | proposeAction a' =>
          by_cases same : a = a'
          · subst same
            exact Or.inr ⟨rfl, enabled.1, by simp [primed]⟩
          · exact Or.inl (by simp [primed, same])
      | _ => exact Or.inl Iff.rfl

theorem Step.confirmations_cases (edge : Step s event s') (a : Action) :
    s'.confirmations a = s.confirmations a ∨
      ∃ n, Confirms n a (s, event) ∧ a ∈ s.pending ∧
        s'.confirmations a = s.confirmations a ∪ {n} := by
  cases event with
  | none =>
      subst edge
      exact Or.inl rfl
  | some event =>
      obtain ⟨enabled, rfl⟩ := edge
      cases event with
      | nodeConfirms n a' =>
          by_cases same : a = a'
          · subst same
            exact Or.inr ⟨n, ⟨rfl, enabled.2.2⟩, enabled.1, by simp [primed]⟩
          · exact Or.inl (by simp [primed, same])
      | _ => exact Or.inl rfl

theorem Step.confirmations_subset (edge : Step s event s') (a : Action) :
    s.confirmations a ⊆ s'.confirmations a := by
  rcases edge.confirmations_cases a with same | ⟨n, -, -, grown⟩
  · rw [same]
  · rw [grown]
    exact Set.subset_union_left

/-- The action was proposed, and its confirmations came afterwards. -/
def ProposedBefore (trace : Trace Node Action) (a : Action) (confirmed : Set Node) : Prop :=
  ∃ before start after, trace = before ++ (start, some (.proposeAction a)) :: after ∧
    ∀ n ∈ confirmed, ∃ entry ∈ after, Confirms n a entry

/-- How the state at the end of a run reflects the steps of the run. -/
structure Recorded (trace : Trace Node Action) (s : State Node Action) : Prop where
  unproposed : ∀ a, a ∉ s.pending → s.confirmations a = ∅
  proposed : ∀ a ∈ s.pending, ProposedBefore trace a (s.confirmations a)
  decided : ∀ a, s.decisions a ≠ .none → a ∈ s.pending
  approved : ∀ a, s.decisions a = .approved → s.confirmations a = Set.univ
  blocked : ∀ a n state, (state, some (.nodeBlocks n a)) ∈ trace → s.decisions a = .blocked

omit [DecidableEq Node] [DecidableEq Action] in
theorem Init.recorded (init : Init s) : Recorded [] s where
  unproposed a _ := init.confirmations a
  proposed a isPending := by simp [init.pending] at isPending
  decided a isDecided := (isDecided (init.decisions a)).elim
  approved a isApproved := by simp [init.decisions a] at isApproved
  blocked a n state member := by simp at member

omit [DecidableEq Node] [DecidableEq Action] in
theorem ProposedBefore.append {a : Action} {confirmed confirmed' : Set Node}
    {entry : State Node Action × Option (Event Node Action)}
    (proposed : ProposedBefore trace a confirmed)
    (latest : ∀ n ∈ confirmed', n ∈ confirmed ∨ Confirms n a entry) :
    ProposedBefore (trace ++ [entry]) a confirmed' := by
  obtain ⟨before, start, after, rfl, confirms⟩ := proposed
  refine ⟨before, start, after ++ [entry], by simp, ?_⟩
  intro n isConfirmed
  rcases latest n isConfirmed with earlier | now
  · obtain ⟨entry', member, confirmsThere⟩ := confirms n earlier
    exact ⟨entry', List.mem_append_left _ member, confirmsThere⟩
  · exact ⟨entry, by simp, now⟩

theorem Recorded.step (recorded : Recorded trace s) (edge : Step s event s') :
    Recorded (trace ++ [(s, event)]) s' where
  unproposed a notPending := by
    have notBefore : a ∉ s.pending := by
      rcases edge.pending_cases a with same | ⟨-, -, nowPending⟩
      · exact fun isPending => notPending (same.mpr isPending)
      · exact (notPending nowPending).elim
    rcases edge.confirmations_cases a with same | ⟨n, -, isPending, -⟩
    · rw [same]
      exact recorded.unproposed a notBefore
    · exact (notBefore isPending).elim
  proposed a isPending := by
    rcases edge.pending_cases a with same | ⟨isProposal, notBefore, -⟩
    · refine (recorded.proposed a (same.mp isPending)).append ?_
      intro n isConfirmed
      rcases edge.confirmations_cases a with unchanged | ⟨m, confirms, -, grown⟩
      · exact Or.inl (unchanged ▸ isConfirmed)
      · rw [grown] at isConfirmed
        rcases isConfirmed with earlier | rfl
        · exact Or.inl earlier
        · exact Or.inr confirms
    · -- A confirmation needs a pending action, so none came before the proposal.
      have noneYet : s'.confirmations a = ∅ := by
        rcases edge.confirmations_cases a with unchanged | ⟨m, -, isPending', -⟩
        · rw [unchanged]
          exact recorded.unproposed a notBefore
        · exact (notBefore isPending').elim
      subst isProposal
      exact ⟨trace, s, [], rfl, by simp [noneYet]⟩
  decided a isDecided := by
    have before : a ∈ s.pending := by
      rcases edge.decisions_cases a with same | ⟨isPending, -, -⟩
      · exact recorded.decided a (same ▸ isDecided)
      · exact isPending
    rcases edge.pending_cases a with same | ⟨-, notBefore, -⟩
    · exact same.mpr before
    · exact (notBefore before).elim
  approved a isApproved := by
    have before : s.confirmations a = Set.univ := by
      rcases edge.decisions_cases a with same | ⟨-, -, ⟨n, -, isBlocked⟩ | ⟨-, complete, -⟩ |
        ⟨-, -, isDeferred⟩⟩
      · exact recorded.approved a (same ▸ isApproved)
      · simp [isBlocked] at isApproved
      · exact complete
      · simp [isDeferred] at isApproved
    exact Set.eq_univ_of_univ_subset (before ▸ edge.confirmations_subset a)
  blocked a n state member := by
    rcases List.mem_append.mp member with earlier | latest
    · have isBlocked := recorded.blocked a n state earlier
      rw [edge.decisions_of_decided (by simp [isBlocked]), isBlocked]
    · obtain ⟨rfl, rfl⟩ : state = s ∧ some (.nodeBlocks n a) = event := by simpa using latest
      obtain ⟨-, rfl⟩ := edge
      simp [primed]

theorem recorded_of_run (init : Init first) (run : Run Step first trace last) :
    Recorded trace last := by
  induction run with
  | refl => exact init.recorded
  | tail run edge ih => exact ih.step edge

/-- Along a run an action is first undecided, and then decided in one way. -/
theorem decisionHistory_of_run (run : Run Step first trace last) (a : Action) :
    ∃ undecided decided, decisionHistory a trace last =
      List.replicate undecided .none ++ List.replicate decided (last.decisions a) := by
  induction run with
  | refl => exact ⟨0, 1, by simp [decisionHistory]⟩
  | @tail trace middle last event run edge ih =>
      obtain ⟨undecided, decided, history⟩ := ih
      have extended : decisionHistory a (trace ++ [(middle, event)]) last =
          decisionHistory a trace middle ++ [last.decisions a] := by
        simp [decisionHistory]
      rw [extended, history]
      by_cases isOpen : middle.decisions a = .none
      · refine ⟨undecided + decided, 1, ?_⟩
        rw [isOpen, List.replicate_append_replicate]
        rfl
      · refine ⟨undecided, decided + 1, ?_⟩
        rw [edge.decisions_of_decided isOpen, List.append_assoc, List.replicate_succ']

/-- An undecided action that all nodes have confirmed is never deferred. -/
theorem not_deferred_of_run (run : Run Step first trace last) {a : Action}
    (complete : first.confirmations a = Set.univ) (undecided : first.decisions a = .none) :
    last.decisions a ≠ .deferred := by
  have both : last.confirmations a = Set.univ ∧ last.decisions a ≠ .deferred := by
    refine run.invariant
      (fun s => s.confirmations a = Set.univ ∧ s.decisions a ≠ .deferred) ?_ ?_
    · exact ⟨complete, by simp [undecided]⟩
    · intro s event s' _ ⟨isComplete, notDeferred⟩ edge
      refine ⟨Set.eq_univ_of_univ_subset (isComplete ▸ edge.confirmations_subset a), ?_⟩
      rcases edge.decisions_cases a with same | ⟨-, -, ⟨n, -, isBlocked⟩ |
        ⟨-, -, isApproved⟩ | ⟨-, incomplete, -⟩⟩
      · rwa [same]
      · simp [isBlocked]
      · simp [isApproved]
      · exact (incomplete isComplete).elim
  exact both.2

/-- The life of an action in a run: at most one decision, which stands; approval
only after a proposal and then a confirmation by every node while it was
reachable, and without any block; no deferral once all nodes have confirmed. -/
theorem decision_lifecycle (init : Init first) (run : Run Step first trace last) (a : Action) :
    (∃ undecided decided, decisionHistory a trace last =
      List.replicate undecided .none ++ List.replicate decided (last.decisions a)) ∧
    (last.decisions a = .approved →
      (∃ before start after, trace = before ++ (start, some (.proposeAction a)) :: after ∧
        ∀ n, ∃ entry ∈ after, Confirms n a entry) ∧
      ∀ n state, (state, some (.nodeBlocks n a)) ∉ trace) ∧
    (last.confirmations a = Set.univ → last.decisions a = .none →
      ∀ continuation final, Run Step last continuation final →
        final.decisions a ≠ .deferred) := by
  have recorded := recorded_of_run init run
  refine ⟨decisionHistory_of_run run a, fun isApproved => ⟨?_, ?_⟩, ?_⟩
  · have isPending := recorded.decided a (by simp [isApproved])
    obtain ⟨before, start, after, traceEq, confirms⟩ := recorded.proposed a isPending
    refine ⟨before, start, after, traceEq, fun n => confirms n ?_⟩
    simp [recorded.approved a isApproved]
  · intro n state blocks
    have isBlocked := recorded.blocked a n state blocks
    simp [isBlocked] at isApproved
  · intro complete undecided continuation final later
    exact not_deferred_of_run later complete undecided

def initial : State Node Action where
  pending := ∅
  confirmations _ := ∅
  decisions _ := .none
  networkUp _ := True

omit [DecidableEq Node] [DecidableEq Action] in
theorem initial_init : Init (initial : State Node Action) where
  pending := rfl
  confirmations _ := rfl
  decisions _ := rfl
  networkUp _ := trivial

/-- An action that has been proposed, confirmed by one node whose link then goes down,
and confirmed by the other node. -/
def proposed : State Bool Unit := primed initial (.proposeAction ())

def halfConfirmed : State Bool Unit := primed proposed (.nodeConfirms true ())

def parted : State Bool Unit := primed halfConfirmed (.linkDown true)

def fullyConfirmed : State Bool Unit := primed parted (.nodeConfirms false ())

/-- Two nodes confirm an action, one of them before its link goes down. -/
theorem decision_lifecycle_of_approval :
    ∃ trace last, Run Step (initial : State Bool Unit) trace last ∧
      last.decisions () = .approved ∧
      (∃ before start after, trace = before ++ (start, some (.proposeAction ())) :: after ∧
        ∀ n, ∃ entry ∈ after, Confirms n () entry) ∧
      ∀ n state, (state, some (.nodeBlocks n ())) ∉ trace := by
  have toProposed : Step initial (some (.proposeAction ())) proposed :=
    ⟨by simp [Guard, initial], rfl⟩
  have toHalf : Step proposed (some (.nodeConfirms true ())) halfConfirmed :=
    ⟨by simp [Guard, proposed, primed, initial], rfl⟩
  have toParted : Step halfConfirmed (some (.linkDown true)) parted := ⟨trivial, rfl⟩
  have toConfirmed : Step parted (some (.nodeConfirms false ())) fullyConfirmed :=
    ⟨by simp [Guard, parted, halfConfirmed, proposed, primed, initial], rfl⟩
  have complete : fullyConfirmed.confirmations () = Set.univ := by
    ext n
    cases n <;> simp [fullyConfirmed, parted, halfConfirmed, proposed, primed]
  have toApproved : Step fullyConfirmed (some (.approveIfQuorumConfirmed ()))
      (primed fullyConfirmed (.approveIfQuorumConfirmed ())) :=
    ⟨⟨by simp [fullyConfirmed, parted, halfConfirmed, proposed, primed], rfl, complete⟩, rfl⟩
  have run := ((((Run.refl.tail toProposed).tail toHalf).tail toParted).tail toConfirmed).tail
    toApproved
  have isApproved :
      (primed fullyConfirmed (.approveIfQuorumConfirmed ())).decisions () = .approved := by
    simp [primed]
  have lifecycle := decision_lifecycle initial_init run ()
  exact ⟨_, _, run, isApproved, lifecycle.2.1 isApproved⟩

end HabiCore.PolicyGate
