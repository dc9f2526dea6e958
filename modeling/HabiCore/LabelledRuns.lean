import Mathlib.Data.List.Forall2

/-!
# Runs of labelled transition relations

A run is a finite sequence of labelled steps.  Its trace records every step
together with the state it started from, so that a side condition on steps may
speak about both.  The file contains the induction rules by which the later
developments derive facts about whole runs from facts about one step.
-/

namespace LabelledRuns

variable {State Label : Type*}

/-- `Run step first trace last` says that the steps recorded in `trace`, in
order, lead from `first` to `last`. -/
inductive Run (step : State → Label → State → Prop) (first : State) :
    List (State × Label) → State → Prop
  | refl : Run step first [] first
  | tail {trace : List (State × Label)} {middle last : State} {label : Label} :
      Run step first trace middle → step middle label last →
        Run step first (trace ++ [(middle, label)]) last

/-- Some run leads from `first` to `last`, each of its steps being allowed in
the state in which it is taken. -/
def Reaches (step : State → Label → State → Prop)
    (allowed : State → Label → Prop) (first last : State) : Prop :=
  ∃ trace, Run step first trace last ∧
    ∀ entry ∈ trace, allowed entry.1 entry.2

variable {step : State → Label → State → Prop}
  {allowed : State → Label → Prop}

namespace Run

theorem trans {first middle last : State}
    {before after : List (State × Label)}
    (initial : Run step first before middle)
    (final : Run step middle after last) :
    Run step first (before ++ after) last := by
  induction final with
  | refl => simpa using initial
  | tail run edge ih =>
      rw [← List.append_assoc]
      exact ih.tail edge

/-- A run may be cut at any step of its trace. -/
theorem split {first last middle : State} {label : Label}
    {before after : List (State × Label)}
    (run : Run step first (before ++ (middle, label) :: after) last) :
    ∃ next, Run step first before middle ∧ step middle label next ∧
      Run step next after last := by
  generalize traceEq : before ++ (middle, label) :: after = trace at run
  induction run generalizing after with
  | refl => simp at traceEq
  | @tail trace source target lastLabel run edge ih =>
      rcases List.eq_nil_or_concat' after with rfl | ⟨init, entry, rfl⟩
      · obtain ⟨rfl, entryEq⟩ :=
          List.append_inj' traceEq rfl
        obtain ⟨rfl, rfl⟩ : middle = source ∧ label = lastLabel := by
          simpa using entryEq
        exact ⟨target, run, edge, .refl⟩
      · have regrouped :
            (before ++ (middle, label) :: init) ++ [entry] =
              trace ++ [(source, lastLabel)] := by
          simpa using traceEq
        obtain ⟨initEq, entryEq⟩ := List.append_inj' regrouped rfl
        obtain rfl : entry = (source, lastLabel) := by simpa using entryEq
        obtain ⟨next, prefixRun, firstEdge, suffixRun⟩ := ih initEq
        exact ⟨next, prefixRun, firstEdge, suffixRun.tail edge⟩

theorem uncons {first last state : State} {label : Label} {after : List (State × Label)}
    (run : Run step first ((state, label) :: after) last) :
    state = first ∧ ∃ next, step first label next ∧ Run step next after last := by
  have whole : Run step first ([] ++ (state, label) :: after) last := run
  obtain ⟨next, before, edge, later⟩ := whole.split
  generalize traceEq : ([] : List (State × Label)) = trace at before
  cases before with
  | refl => exact ⟨rfl, next, edge, later⟩
  | tail => simp at traceEq

/-- What every step preserves holds at the end of a run, if it holds at its
start.  The step may use that its label is allowed. -/
theorem invariant {first last : State} {trace : List (State × Label)}
    (run : Run step first trace last) (Inv : State → Prop)
    (initially : Inv first)
    (preserved : ∀ state label next, (state, label) ∈ trace → Inv state →
      step state label next → Inv next) :
    Inv last := by
  induction run with
  | refl => exact initially
  | tail run edge ih =>
      apply preserved _ _ _ (by simp) (ih ?_) edge
      intro state label next member
      exact preserved state label next (by simp [member])

/-- If a second system answers each step from a related state by a step with the
same label, it follows every run, and its states are related to those of the
run at every step. -/
theorem simulated {State' : Type*} {step' : State' → Label → State' → Prop}
    {first last : State} {first' : State'} {trace : List (State × Label)}
    (run : Run step first trace last) (allowed : State → Label → Prop)
    (related : State → State' → Prop)
    (within : ∀ entry ∈ trace, allowed entry.1 entry.2) (initially : related first first')
    (answered : ∀ state label next state', allowed state label → related state state' →
      step state label next → ∃ next', step' state' label next' ∧ related next next') :
    ∃ trace' last', Run step' first' trace' last' ∧ related last last' ∧
      List.Forall₂ (fun entry entry' => entry.2 = entry'.2 ∧ related entry.1 entry'.1)
        trace trace' := by
  induction run with
  | refl => exact ⟨[], first', .refl, initially, .nil⟩
  | tail run edge ih =>
      obtain ⟨trace', middle', run', relatedMiddle, pairwise⟩ :=
        ih fun entry member => within entry (List.mem_append_left _ member)
      have isAllowed := within _ (List.mem_append_right _ (List.mem_singleton_self _))
      obtain ⟨last', edge', relatedLast⟩ :=
        answered _ _ _ middle' isAllowed relatedMiddle edge
      refine ⟨_, last', run'.tail edge', relatedLast, ?_⟩
      exact List.rel_append pairwise (.cons ⟨rfl, relatedMiddle⟩ .nil)

end Run

/-- The run of a deterministic system that takes the given labels, with its
trace and its last state. -/
def follow (next : State → Label → Option State) (first : State) :
    List Label → Option (List (State × Label) × State)
  | [] => some ([], first)
  | label :: rest =>
      (next first label).bind fun second =>
        (follow next second rest).map fun followed =>
          ((first, label) :: followed.1, followed.2)

theorem run_of_follow {next : State → Label → Option State} {first : State}
    {labels : List Label} {followed : List (State × Label) × State}
    (follows : follow next first labels = some followed) :
    Run (fun state label state' => next state label = some state') first
        followed.1 followed.2 ∧ followed.1.map Prod.snd = labels := by
  induction labels generalizing first followed with
  | nil =>
      obtain rfl : ([], first) = followed := by simpa [follow] using follows
      exact ⟨.refl, rfl⟩
  | cons label rest ih =>
      obtain ⟨second, edge, mapped⟩ := Option.bind_eq_some_iff.mp follows
      obtain ⟨later, restFollows, rfl⟩ := Option.map_eq_some_iff.mp mapped
      obtain ⟨onwards, labelled⟩ := ih restFollows
      exact ⟨(Run.tail .refl edge).trans onwards, by simp [labelled]⟩

theorem exists_run (next : State → Label → Option State) (first : State) (labels : List Label)
    (check : List (State × Label) × State → Bool)
    (passes : (follow next first labels).any check = true) :
    ∃ trace last, Run (fun state label state' => next state label = some state') first trace
      last ∧ trace.map Prod.snd = labels ∧ check (trace, last) = true := by
  obtain ⟨followed, follows, checked⟩ := (Option.any_eq_true _ _).mp passes
  obtain ⟨run, labelled⟩ := run_of_follow follows
  exact ⟨followed.1, followed.2, run, labelled, checked⟩

theorem Run.reaches {first last : State} {trace : List (State × Label)}
    (run : Run step first trace last) : Reaches step (fun _ _ => True) first last :=
  ⟨trace, run, fun _ _ => trivial⟩

namespace Reaches

theorem refl (state : State) : Reaches step allowed state state :=
  ⟨[], .refl, by simp⟩

theorem tail {first middle last : State} {label : Label}
    (reaches : Reaches step allowed first middle)
    (isAllowed : allowed middle label) (edge : step middle label last) :
    Reaches step allowed first last := by
  obtain ⟨trace, run, within⟩ := reaches
  refine ⟨_, run.tail edge, ?_⟩
  intro entry member
  rcases List.mem_append.mp member with earlier | latest
  · exact within entry earlier
  · obtain rfl : entry = (middle, label) := by simpa using latest
    exact isAllowed

theorem single {first last : State} {label : Label}
    (isAllowed : allowed first label) (edge : step first label last) :
    Reaches step allowed first last :=
  (refl first).tail isAllowed edge

theorem trans {first middle last : State}
    (initial : Reaches step allowed first middle)
    (final : Reaches step allowed middle last) :
    Reaches step allowed first last := by
  obtain ⟨before, beforeRun, beforeWithin⟩ := initial
  obtain ⟨after, afterRun, afterWithin⟩ := final
  refine ⟨_, beforeRun.trans afterRun, ?_⟩
  intro entry member
  rcases List.mem_append.mp member with inBefore | inAfter
  · exact beforeWithin entry inBefore
  · exact afterWithin entry inAfter

theorem mono {allowed' : State → Label → Prop} {first last : State}
    (reaches : Reaches step allowed first last)
    (weaker : ∀ state label, allowed state label → allowed' state label) :
    Reaches step allowed' first last := by
  obtain ⟨trace, run, within⟩ := reaches
  exact ⟨trace, run, fun entry member => weaker _ _ (within entry member)⟩

/-- The induction rule for invariants of runs with a side condition. -/
theorem invariant {first last : State}
    (reaches : Reaches step allowed first last) (Inv : State → Prop)
    (initially : Inv first)
    (preserved : ∀ state label next, allowed state label → Inv state →
      step state label next → Inv next) :
    Inv last := by
  obtain ⟨trace, run, within⟩ := reaches
  exact run.invariant Inv initially fun state label next member =>
    preserved state label next (within (state, label) member)

/-- A reflexive and transitive relation that every step establishes between
its two states relates the ends of every run. -/
theorem relates {first last : State}
    (reaches : Reaches step allowed first last) (R : State → State → Prop)
    (reflexive : ∀ state, R state state)
    (transitive : ∀ a b c, R a b → R b c → R a c)
    (established : ∀ state label next, allowed state label →
      step state label next → R state next) :
    R first last :=
  reaches.invariant (R first) (reflexive first)
    fun _ _ _ isAllowed related edge =>
      transitive _ _ _ related (established _ _ _ isAllowed edge)

end Reaches

end LabelledRuns
