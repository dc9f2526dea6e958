import HabiCore.TokenCirculation
import Mathlib.Logic.Function.Basic
import Mathlib.Order.CompletePartialOrder

/-!
# The specification with one global network

This is `DIL_CRDT` over arbitrary types of nodes and bearers, with arbitrary
initial ledgers: all nodes are connected, or none is.  Only an outage gives rise
to double spends, and each of them happens within one outage.
-/

namespace HabiCore.GlobalNetwork

open TokenCirculation LabelledRuns

variable {Node Bearer : Type*}

structure State (Node Bearer : Type*) where
  ledgers : Node → Set Bearer
  spent : Node → Set Bearer
  networkUp : Prop

inductive Action (Node Bearer : Type*) where
  | disconnect
  | reconnect
  | spendAt (nn : Node) (bb : Bearer)
  | replicate
  | resolveBurn

/-- `Init`, with the initial ledgers left open. -/
structure Init (s : State Node Bearer) : Prop where
  spent : ∀ a, s.spent a = ∅
  networkUp : s.networkUp

def allSpent (s : State Node Bearer) : Set Bearer :=
  ⋃ vv, s.spent vv

def Guard (s : State Node Bearer) : Action Node Bearer → Prop
  | .disconnect => True
  | .reconnect => ¬ s.networkUp
  | .spendAt nn bb => bb ∈ s.ledgers nn
  | .replicate => s.networkUp
  | .resolveBurn => s.networkUp

open Classical in
noncomputable def primed (s : State Node Bearer) : Action Node Bearer → State Node Bearer
  | .disconnect => { s with networkUp := False }
  | .reconnect =>
      { s with
        networkUp := True
        ledgers := fun uu => s.ledgers uu \ allSpent s }
  | .spendAt nn bb =>
      { s with
        spent := fun mm => if mm = nn then s.spent mm ∪ {bb} else s.spent mm
        ledgers := fun mm =>
          if s.networkUp ∨ mm = nn then s.ledgers mm \ {bb} else s.ledgers mm }
  | .replicate => { s with ledgers := fun pp => (⋃ qq, s.ledgers qq) \ s.spent pp }
  | .resolveBurn => { s with ledgers := fun pp => s.ledgers pp \ allSpent s }

def Next (s : State Node Bearer) (action : Action Node Bearer) (s' : State Node Bearer) : Prop :=
  Guard s action ∧ s' = primed s action

def SyncedNoDoubleSpend (s : State Node Bearer) : Prop :=
  s.networkUp → ∀ ccc, (∃ ddd, ccc ∈ s.spent ddd) → ∀ eee, ccc ∉ s.ledgers eee

abbrev Trace (Node Bearer : Type*) := List (State Node Bearer × Action Node Bearer)

/-- The network is down and not brought up. -/
def Outage (segment : Trace Node Bearer) : Prop :=
  ∀ entry ∈ segment, ¬ entry.1.networkUp ∧ entry.2 ≠ .reconnect

variable {s s' first last : State Node Bearer} {action : Action Node Bearer}
  {trace : Trace Node Bearer} {n m : Node} {b : Bearer}

def holdings (s : State Node Bearer) : Holdings Node Bearer :=
  ⟨s.ledgers, s.spent⟩

def Action.change : Action Node Bearer → Change Node Bearer
  | .spendAt nn bb => .spend nn bb
  | _ => .moved

/-- Every action is a step of the circulation. -/
theorem circulates (next : Next s action s') :
    TokenCirculation.Step (holdings s) action.change (holdings s') := by
  obtain ⟨enabled, rfl⟩ := next
  cases action with
  | disconnect => exact ⟨subset_rfl, rfl⟩
  | reconnect | resolveBurn => exact ⟨fun b ⟨a, isHeld⟩ => ⟨a, isHeld.1⟩, rfl⟩
  | replicate =>
      refine ⟨fun b ⟨a, isHeld⟩ => ?_, rfl⟩
      obtain ⟨q, copied⟩ := Set.mem_iUnion.mp isHeld.1
      exact ⟨q, copied⟩
  | spendAt nn bb =>
      refine ⟨fun b ⟨a, isHeld⟩ => ⟨a, ?_⟩, enabled, fun a b => ?_⟩
      · simp only [holdings, primed] at isHeld
        split at isHeld
        · exact isHeld.1
        · exact isHeld
      · by_cases same : a = nn <;> simp [holdings, primed, same, or_comm]

theorem Next.reaches (run : Run Next first trace last) :
    Reaches TokenCirculation.Step (fun _ _ => True) (holdings first) (holdings last) := by
  induction run with
  | refl => exact .refl _
  | tail run edge ih => exact ih.tail trivial (circulates edge)

theorem mem_spent_next (next : Next s action s') :
    b ∈ s'.spent n ↔ b ∈ s.spent n ∨ action = .spendAt n b := by
  obtain ⟨-, rfl⟩ := next
  cases action with
  | spendAt nn bb =>
      by_cases same : n = nn
      · subst same
        simp [primed, eq_comm, or_comm]
      · simp [primed, same, Ne.symm same]
  | _ => simp [primed]

theorem mem_spent_run (initial : Init first) (run : Run Next first trace last) :
    b ∈ last.spent n ↔ ∃ s, (s, Action.spendAt n b) ∈ trace := by
  induction run with
  | refl => simp [initial.spent]
  | @tail trace middle last action run edge ih =>
      rw [mem_spent_next edge, ih]
      constructor
      · rintro (⟨s, earlier⟩ | rfl)
        · exact ⟨s, List.mem_append_left _ earlier⟩
        · exact ⟨middle, by simp⟩
      · rintro ⟨s, member⟩
        rcases List.mem_append.mp member with earlier | latest
        · exact Or.inl ⟨s, earlier⟩
        · obtain ⟨rfl, rfl⟩ : s = middle ∧ Action.spendAt n b = action := by simpa using latest
          exact Or.inr rfl

theorem SyncedNoDoubleSpend.next (synced : SyncedNoDoubleSpend s) (next : Next s action s') :
    SyncedNoDoubleSpend s' := by
  obtain ⟨enabled, rfl⟩ := next
  intro up c ⟨d, isSpent⟩ e isHeld
  cases action with
  | disconnect => exact up
  | reconnect | resolveBurn => exact isHeld.2 (Set.mem_iUnion.mpr ⟨d, isSpent⟩)
  | replicate =>
      obtain ⟨q, copied⟩ := Set.mem_iUnion.mp isHeld.1
      exact synced enabled c ⟨d, isSpent⟩ q copied
  | spendAt nn bb =>
      have up : s.networkUp := up
      simp only [primed, up, true_or, if_true] at isHeld
      rcases (mem_spent_next ⟨enabled, rfl⟩).mp isSpent with old | spends
      · exact synced up c ⟨d, old⟩ e isHeld.1
      · obtain ⟨rfl, rfl⟩ : nn = d ∧ bb = c := by simpa using spends
        exact isHeld.2 rfl

theorem synced_run (initial : Init first) (run : Run Next first trace last) :
    SyncedNoDoubleSpend last := by
  refine run.invariant SyncedNoDoubleSpend ?_ fun _ _ _ _ synced next => synced.next next
  intro _ c ⟨d, isSpent⟩
  simp [initial.spent] at isSpent

theorem disjoint_next (disjoint : ∀ a, Disjoint (s.ledgers a) (s.spent a))
    (next : Next s action s') (a : Node) : Disjoint (s'.ledgers a) (s'.spent a) := by
  obtain ⟨enabled, rfl⟩ := next
  cases action with
  | disconnect => exact disjoint a
  | reconnect | resolveBurn => exact (disjoint a).mono_left Set.sdiff_subset
  | replicate => exact Set.disjoint_sdiff_left
  | spendAt nn bb =>
      rw [Set.disjoint_left]
      intro c isHeld isSpent
      have old : c ∈ s.ledgers a := by
        simp only [primed] at isHeld
        split at isHeld
        · exact isHeld.1
        · exact isHeld
      rcases (mem_spent_next ⟨enabled, rfl⟩).mp isSpent with earlier | spends
      · exact Set.disjoint_left.mp (disjoint a) old earlier
      · obtain ⟨rfl, rfl⟩ : nn = a ∧ bb = c := by simpa using spends
        simp [primed] at isHeld

theorem disjoint_run (disjoint : ∀ a, Disjoint (first.ledgers a) (first.spent a))
    (run : Run Next first trace last) (a : Node) : Disjoint (last.ledgers a) (last.spent a) :=
  run.invariant (fun s => ∀ a, Disjoint (s.ledgers a) (s.spent a)) disjoint
    (fun _ _ _ _ disjoint next => disjoint_next disjoint next) a

theorem Init.disjoint (initial : Init first) (a : Node) :
    Disjoint (first.ledgers a) (first.spent a) := by
  simp [initial.spent]

theorem not_spends_of_spent (disjoint : ∀ a, Disjoint (first.ledgers a) (first.spent a))
    (isSpent : b ∈ first.spent n) (run : Run Next first trace last) :
    ∀ entry ∈ trace, entry.2 ≠ .spendAt n b := by
  rintro ⟨s, action⟩ member rfl
  obtain ⟨before, after, rfl⟩ := List.append_of_mem member
  obtain ⟨next, earlier, ⟨isHeld, -⟩, -⟩ := run.split
  have stays : b ∈ s.spent n := spent_monotone (Next.reaches earlier) n isSpent
  exact Set.disjoint_left.mp (disjoint_run disjoint earlier n) isHeld stays

/-- While the network is up, a bearer that has been spent is held by nobody.  At no
time does a node hold what it has spent, and it spends no bearer twice. -/
theorem synced_no_double_spend (initial : Init first) (run : Run Next first trace last) :
    SyncedNoDoubleSpend last ∧ (∀ a, Disjoint (last.ledgers a) (last.spent a)) ∧
      trace.Pairwise fun earlier later =>
        ∀ n b, earlier.2 = .spendAt n b → later.2 ≠ .spendAt n b := by
  refine ⟨synced_run initial run, disjoint_run initial.disjoint run, ?_⟩
  induction run with
  | refl => exact .nil
  | @tail trace middle last action run edge ih =>
      rw [List.pairwise_append]
      refine ⟨ih, List.pairwise_singleton _ _, ?_⟩
      rintro ⟨s, earlier⟩ member _ latest n b rfl
      obtain rfl := List.mem_singleton.mp latest
      obtain ⟨before, after, rfl⟩ := List.append_of_mem member
      obtain ⟨next, beforeRun, spend, afterRun⟩ := run.split
      have spent : b ∈ next.spent n := (mem_spent_next spend).mpr (Or.inr rfl)
      have disjoint := disjoint_next (disjoint_run initial.disjoint beforeRun) spend
      exact not_spends_of_spent disjoint spent (afterRun.tail edge) (middle, action) (by simp)

def shared : State Bool Unit :=
  ⟨fun _ => {()}, fun _ => ∅, True⟩

theorem shared_init : Init shared :=
  ⟨fun _ => rfl, trivial⟩

theorem shared_run : ∃ trace last, Run Next shared trace last ∧
    () ∈ last.spent true ∧ () ∈ last.spent false := by
  have down : Next shared .disconnect (primed shared .disconnect) := ⟨trivial, rfl⟩
  have first : Next (primed shared .disconnect) (.spendAt true ()) _ :=
    ⟨Set.mem_singleton (), rfl⟩
  have second : Next (primed (primed shared .disconnect) (.spendAt true ()))
      (.spendAt false ()) _ := ⟨by simp [Guard, primed, shared], rfl⟩
  exact ⟨_, _, ((Run.refl.tail down).tail first).tail second, by simp [primed], by simp [primed]⟩

theorem synced_no_double_spend_shared :
    ∃ trace last, Run Next shared trace last ∧ () ∈ last.spent true ∧
      trace.Pairwise fun earlier later =>
        ∀ n b, earlier.2 = .spendAt n b → later.2 ≠ .spendAt n b := by
  obtain ⟨trace, last, run, isSpent, -⟩ := shared_run
  exact ⟨trace, last, run, isSpent, (synced_no_double_spend shared_init run).2.2⟩

theorem SyncedNoDoubleSpend.down (synced : SyncedNoDoubleSpend s) (isSpent : b ∈ s.spent n)
    (isHeld : b ∈ s.ledgers m) : ¬ s.networkUp :=
  fun up => synced up b ⟨n, isSpent⟩ m isHeld

theorem ledgers_subset_of_down (next : Next s action s') (down : ¬ s.networkUp)
    (staysDown : ¬ s'.networkUp) :
    action ≠ .reconnect ∧ ∀ m, s'.ledgers m ⊆ s.ledgers m := by
  obtain ⟨enabled, rfl⟩ := next
  cases action with
  | disconnect => exact ⟨by simp, fun m => subset_rfl⟩
  | reconnect => exact (staysDown trivial).elim
  | replicate | resolveBurn => exact (down enabled).elim
  | spendAt nn bb =>
      refine ⟨by simp, fun m c isHeld => ?_⟩
      simp only [primed] at isHeld
      split at isHeld
      · exact isHeld.1
      · exact isHeld

/-- A node that holds a bearer which has been spent has held it all the time since,
and the network has been down. -/
theorem outage_of_held (synced : SyncedNoDoubleSpend first) (isSpent : b ∈ first.spent n)
    (run : Run Next first trace last) (isHeld : b ∈ last.ledgers m) :
    Outage trace ∧ ¬ last.networkUp ∧ b ∈ first.ledgers m := by
  have syncedAt : ∀ {trace s}, Run Next first trace s → SyncedNoDoubleSpend s := fun run =>
    run.invariant SyncedNoDoubleSpend synced fun _ _ _ _ synced next => synced.next next
  induction run with
  | refl => exact ⟨by simp [Outage], synced.down isSpent isHeld, isHeld⟩
  | @tail trace middle last action run edge ih =>
      have spentMiddle : b ∈ middle.spent n := spent_monotone (Next.reaches run) n isSpent
      have spentLast : b ∈ last.spent n := (mem_spent_next edge).mpr (Or.inl spentMiddle)
      have down : ¬ last.networkUp := (syncedAt (run.tail edge)).down spentLast isHeld
      obtain ⟨holder, circulating⟩ : b ∈ (holdings middle).circulating :=
        (circulates edge).circulating_subset ⟨m, isHeld⟩
      have downBefore : ¬ middle.networkUp := (syncedAt run).down spentMiddle circulating
      obtain ⟨noReconnect, shrinks⟩ := ledgers_subset_of_down edge downBefore down
      obtain ⟨outage, -, heldFirst⟩ := ih (shrinks m isHeld)
      refine ⟨fun entry member => ?_, down, heldFirst⟩
      rcases List.mem_append.mp member with earlier | latest
      · exact outage entry earlier
      · obtain rfl := List.mem_singleton.mp latest
        exact ⟨downBefore, noReconnect⟩

theorem outage_of_spends (initial : Init first) {t : State Node Bearer}
    {before between after : Trace Node Bearer}
    (run : Run Next first
      (before ++ ((s, .spendAt n b) :: between ++ (t, .spendAt m b) :: after)) last) :
    Outage ((s, .spendAt n b) :: (between ++ [(t, .spendAt m b)])) ∧
      b ∈ s.ledgers n ∧ b ∈ s.ledgers m := by
  obtain ⟨next, earlier, spend, run⟩ := run.split
  obtain ⟨final, outwards, ⟨isHeld, -⟩, -⟩ := run.split
  have isSpent : b ∈ next.spent n := (mem_spent_next spend).mpr (Or.inr rfl)
  have synced : SyncedNoDoubleSpend next := synced_run initial (earlier.tail spend)
  obtain ⟨outage, downLast, heldNext⟩ := outage_of_held synced isSpent outwards isHeld
  have downNext : ¬ next.networkUp := synced.down isSpent heldNext
  have down : ¬ s.networkUp := by
    rw [spend.2] at downNext
    exact downNext
  refine ⟨fun entry member => ?_, spend.1,
    (ledgers_subset_of_down spend down downNext).2 m heldNext⟩
  simp only [List.mem_cons, List.mem_append, List.not_mem_nil, or_false] at member
  rcases member with rfl | within | rfl
  · exact ⟨down, by simp⟩
  · exact outage entry within
  · exact ⟨downLast, by simp⟩

theorem exists_two_of_mem {α : Type*} {x y : α} {items : List α} (isX : x ∈ items)
    (isY : y ∈ items) (distinct : x ≠ y) :
    ∃ before between after, items = before ++ (x :: between ++ y :: after) ∨
      items = before ++ (y :: between ++ x :: after) := by
  obtain ⟨before, after, rfl⟩ := List.append_of_mem isX
  rcases List.mem_append.mp isY with earlier | later
  · obtain ⟨before, between, rfl⟩ := List.append_of_mem earlier
    exact ⟨before, between, after, Or.inr (by simp)⟩
  · rcases List.mem_cons.mp later with rfl | later
    · exact (distinct rfl).elim
    · obtain ⟨between, after, rfl⟩ := List.append_of_mem later
      exact ⟨before, between, after, Or.inl (by simp)⟩

/-- While the network is down, an outage is going on: it has begun with a
`Disconnect`, and all that a node holds it has held since then. -/
theorem exists_disconnect (up : first.networkUp) (run : Run Next first trace last)
    (down : ¬ last.networkUp) :
    ∃ before s outage, trace = before ++ (s, .disconnect) :: outage ∧ s.networkUp ∧
      Outage outage ∧ ∀ m, last.ledgers m ⊆ s.ledgers m := by
  induction run with
  | refl => exact (down up).elim
  | @tail trace middle last action run edge ih =>
      by_cases middleUp : middle.networkUp
      · obtain ⟨enabled, rfl⟩ := edge
        cases action with
        | disconnect =>
            exact ⟨trace, middle, [], rfl, middleUp, by simp [Outage], fun m => subset_rfl⟩
        | reconnect => exact (down trivial).elim
        | spendAt | replicate | resolveBurn => exact (down middleUp).elim
      · obtain ⟨before, s, outage, rfl, sUp, goesOn, held⟩ := ih middleUp
        obtain ⟨noReconnect, shrinks⟩ := ledgers_subset_of_down edge middleUp down
        refine ⟨before, s, outage ++ [(middle, action)], by simp, sUp, fun entry member => ?_,
          fun m => (shrinks m).trans (held m)⟩
        rcases List.mem_append.mp member with earlier | latest
        · exact goesOn entry earlier
        · obtain rfl := List.mem_singleton.mp latest
          exact ⟨middleUp, noReconnect⟩

theorem exists_outage_of_spends (initial : Init first) {t : State Node Bearer}
    {before between after : Trace Node Bearer}
    (run : Run Next first
      (before ++ ((s, .spendAt n b) :: between ++ (t, .spendAt m b) :: after)) last) :
    ∃ before' s' outage,
      before ++ ((s, .spendAt n b) :: between ++ (t, .spendAt m b) :: after) =
        before' ++ (s', .disconnect) :: (outage ++ after) ∧
      s'.networkUp ∧ Outage outage ∧ b ∈ s'.ledgers n ∧ b ∈ s'.ledgers m ∧
      (s, .spendAt n b) ∈ outage ∧ (t, .spendAt m b) ∈ outage := by
  obtain ⟨spending, heldN, heldM⟩ := outage_of_spends initial run
  obtain ⟨next, earlier, -, -⟩ := run.split
  obtain ⟨before', s', outage, rfl, up, goesOn, held⟩ :=
    exists_disconnect initial.networkUp earlier (spending (s, .spendAt n b) (by simp)).1
  refine ⟨before', s', outage ++ (s, .spendAt n b) :: (between ++ [(t, .spendAt m b)]),
    by simp, up, fun entry member => ?_, held n heldN, held m heldM, by simp, by simp⟩
  rcases List.mem_append.mp member with earlier | later
  · exact goesOn entry earlier
  · exact spending entry later

/-- Two nodes have spent one bearer exactly if both did so in one outage, and held
it at the `Disconnect` with which that outage began. -/
theorem double_spend_iff_outage (initial : Init first) (run : Run Next first trace last)
    (distinct : n ≠ m) :
    (b ∈ last.spent n ∧ b ∈ last.spent m) ↔
      ∃ before s outage after, trace = before ++ (s, .disconnect) :: (outage ++ after) ∧
        s.networkUp ∧ Outage outage ∧ b ∈ s.ledgers n ∧ b ∈ s.ledgers m ∧
        (∃ t, (t, .spendAt n b) ∈ outage) ∧ ∃ t, (t, .spendAt m b) ∈ outage := by
  constructor
  · rintro ⟨spentN, spentM⟩
    obtain ⟨s, spendN⟩ := (mem_spent_run initial run).mp spentN
    obtain ⟨t, spendM⟩ := (mem_spent_run initial run).mp spentM
    have different : (s, Action.spendAt n b) ≠ (t, .spendAt m b) := by simp [distinct]
    obtain ⟨before, between, after, rfl | rfl⟩ := exists_two_of_mem spendN spendM different
    · obtain ⟨before', s', outage, isTrace, up, goesOn, heldN, heldM, inN, inM⟩ :=
        exists_outage_of_spends initial run
      exact ⟨before', s', outage, after, isTrace, up, goesOn, heldN, heldM, ⟨s, inN⟩, t, inM⟩
    · obtain ⟨before', s', outage, isTrace, up, goesOn, heldM, heldN, inM, inN⟩ :=
        exists_outage_of_spends initial run
      exact ⟨before', s', outage, after, isTrace, up, goesOn, heldN, heldM, ⟨s, inN⟩, t, inM⟩
  · rintro ⟨before, s, outage, after, rfl, -, -, -, -, ⟨t, spendN⟩, u, spendM⟩
    have within : ∀ entry ∈ outage, entry ∈ before ++ (s, .disconnect) :: (outage ++ after) :=
      fun entry member => by simp [member]
    exact ⟨(mem_spent_run initial run).mpr ⟨t, within _ spendN⟩,
      (mem_spent_run initial run).mpr ⟨u, within _ spendM⟩⟩

theorem double_spend_iff_outage_shared :
    ∃ trace last, Run Next shared trace last ∧
      ∃ before s outage after, trace = before ++ (s, .disconnect) :: (outage ++ after) ∧
        s.networkUp ∧ Outage outage ∧ () ∈ s.ledgers true ∧ () ∈ s.ledgers false ∧
        (∃ t, (t, .spendAt true ()) ∈ outage) ∧ ∃ t, (t, .spendAt false ()) ∈ outage := by
  obtain ⟨trace, last, run, isSpent⟩ := shared_run
  exact ⟨trace, last, run, (double_spend_iff_outage shared_init run (by decide)).mp isSpent⟩

end HabiCore.GlobalNetwork
