import HabiCore.TokenCirculation

/-!
# The generic safety model

The state machine of `habi_safety.v` over arbitrary types of nodes and bearers.  A
spend without the network changes no ledger there, and a safe reconnection leaves
each bearer with one holder.
-/

namespace HabiCore.HabiSafety

open TokenCirculation LabelledRuns

variable {Node Bearer : Type*}

structure State (Node Bearer : Type*) where
  ledgers : Node → Set Bearer
  spent : Node → Set Bearer
  networkUp : Bool

inductive Action (Node Bearer : Type*) where
  | disconnect
  | replicate (n1 n2 : Node) (b : Bearer)
  | spendAt (n : Node) (b : Bearer)
  | spendAtOffline (n : Node) (b : Bearer)
  | safeReconnect (finalLedgers : Node → Set Bearer)

def spendLedgers (led : Node → Set Bearer) (netUp : Bool) (_ : Node) (b : Bearer) :
    Node → Set Bearer :=
  fun n' => {b' | b' ∈ led n' ∧ ¬ (b' = b ∧ netUp = true)}

def SyncedNoDoubleSpend (s : State Node Bearer) : Prop :=
  s.networkUp = true → ∀ b, (∃ n, b ∈ s.spent n) → ∀ m, b ∉ s.ledgers m

/-- The premises of a constructor. -/
def Guard (s : State Node Bearer) : Action Node Bearer → Prop
  | .disconnect => s.networkUp = true
  | .replicate n1 _ b => b ∈ s.ledgers n1 ∧ s.networkUp = true
  | .spendAt n b => b ∈ s.ledgers n ∧ s.networkUp = true
  | .spendAtOffline n b => b ∈ s.ledgers n ∧ s.networkUp = false
  | .safeReconnect finalLedgers =>
      s.networkUp = false ∧
      (∀ n b, b ∈ finalLedgers n → ∃ n0, b ∈ s.ledgers n0) ∧
      (∀ n b, b ∈ finalLedgers n → ¬ ∃ n0, b ∈ s.spent n0) ∧
      ∀ b n1 n2, b ∈ finalLedgers n1 → b ∈ finalLedgers n2 → n1 = n2

def primed (s : State Node Bearer) : Action Node Bearer → State Node Bearer
  | .disconnect => { s with networkUp := false }
  | .replicate _ n2 b =>
      { s with ledgers := fun n => {b' | (n = n2 ∧ b' = b) ∨ b' ∈ s.ledgers n} }
  | .spendAt n b =>
      { s with
        ledgers := spendLedgers s.ledgers true n b
        spent := fun n' => {b' | b' ∈ s.spent n' ∨ n' = n ∧ b' = b} }
  | .spendAtOffline n b =>
      { ledgers := spendLedgers s.ledgers false n b
        spent := fun n' => {b' | b' ∈ s.spent n' ∨ n' = n ∧ b' = b}
        networkUp := false }
  | .safeReconnect finalLedgers => ⟨finalLedgers, s.spent, true⟩

/-- `SStep`, labelled with its constructor. -/
def SStep (s : State Node Bearer) (action : Action Node Bearer) (s' : State Node Bearer) : Prop :=
  Guard s action ∧ s' = primed s action

def Spends (n : Node) (b : Bearer) (action : Action Node Bearer) : Prop :=
  action = .spendAt n b ∨ action = .spendAtOffline n b

def Copies (b : Bearer) : Action Node Bearer → Prop
  | .replicate _ _ b' => b' = b
  | _ => False

def Reconnects : Action Node Bearer → Prop
  | .safeReconnect _ => True
  | _ => False

variable {s s' first last : State Node Bearer} {action : Action Node Bearer}
  {trace : List (State Node Bearer × Action Node Bearer)} {n m : Node} {b : Bearer}

def holdings (s : State Node Bearer) : Holdings Node Bearer :=
  ⟨s.ledgers, s.spent⟩

theorem mem_spent_step (step : SStep s action s') :
    b ∈ s'.spent n ↔ b ∈ s.spent n ∨ Spends n b action := by
  obtain ⟨-, rfl⟩ := step
  cases action with
  | spendAt n' b' | spendAtOffline n' b' => simp [primed, Spends, eq_comm]
  | _ => simp [primed, Spends]

theorem Spends.held (spends : Spends n b action) (guard : Guard s action) : b ∈ s.ledgers n := by
  rcases spends with rfl | rfl
  · exact guard.1
  · exact guard.1

theorem circulates (step : SStep s action s') :
    ∃ change, TokenCirculation.Step (holdings s) change (holdings s') := by
  have guard := step.1
  obtain ⟨-, rfl⟩ := step
  cases action with
  | disconnect => exact ⟨.moved, subset_rfl, rfl⟩
  | replicate n1 n2 b =>
      refine ⟨.moved, ?_, rfl⟩
      rintro b' ⟨n, ⟨rfl, rfl⟩ | isHeld⟩
      · exact ⟨n1, guard.1⟩
      · exact ⟨n, isHeld⟩
  | spendAt n b =>
      exact ⟨.spend n b, fun b' ⟨m, isHeld⟩ => ⟨m, isHeld.1⟩, guard.1, fun _ _ => Iff.rfl⟩
  | spendAtOffline n b =>
      exact ⟨.spend n b, fun b' ⟨m, isHeld⟩ => ⟨m, isHeld.1⟩, guard.1, fun _ _ => Iff.rfl⟩
  | safeReconnect finalLedgers =>
      exact ⟨.moved, fun b' ⟨m, isHeld⟩ => guard.2.1 m b' isHeld, rfl⟩

theorem SyncedNoDoubleSpend.step (synced : SyncedNoDoubleSpend s) (step : SStep s action s') :
    SyncedNoDoubleSpend s' := by
  have guard := step.1
  obtain ⟨-, rfl⟩ := step
  intro up b isSpent m isHeld
  cases action with
  | disconnect => simp [primed] at up
  | replicate n1 n2 b' =>
      rcases isHeld with ⟨-, rfl⟩ | isHeld
      · exact synced guard.2 b isSpent n1 guard.1
      · exact synced guard.2 b isSpent m isHeld
  | spendAt n b' =>
      obtain ⟨k, old | ⟨-, rfl⟩⟩ := isSpent
      · exact synced guard.2 b ⟨k, old⟩ m isHeld.1
      · exact isHeld.2 ⟨rfl, rfl⟩
  | spendAtOffline => simp [primed] at up
  | safeReconnect finalLedgers => exact guard.2.2.1 m b isHeld isSpent

/-- At most one node holds or has spent the bearer. -/
structure Single (b : Bearer) (s : State Node Bearer) : Prop where
  holder : ∀ n m, b ∈ s.ledgers n → b ∈ s.ledgers m → n = m
  spender : ∀ n m, b ∈ s.spent n → b ∈ s.spent m → n = m
  same : ∀ n m, b ∈ s.spent n → b ∈ s.ledgers m → n = m

theorem ledgers_of_step (step : SStep s action s') (uncopied : ¬ Copies b action)
    (unconnected : ¬ Reconnects action) (isHeld : b ∈ s'.ledgers n) : b ∈ s.ledgers n := by
  obtain ⟨-, rfl⟩ := step
  cases action with
  | disconnect => exact isHeld
  | replicate n1 n2 b' =>
      rcases isHeld with ⟨-, same⟩ | isHeld
      · exact (uncopied same.symm).elim
      · exact isHeld
  | spendAt | spendAtOffline => exact isHeld.1
  | safeReconnect => exact (unconnected trivial).elim

theorem Single.step (single : Single b s) (step : SStep s action s')
    (uncopied : ¬ Copies b action) (unconnected : ¬ Reconnects action) : Single b s' := by
  have held : ∀ n, b ∈ s'.ledgers n → b ∈ s.ledgers n := fun n isHeld =>
    ledgers_of_step step uncopied unconnected isHeld
  have spent : ∀ n, b ∈ s'.spent n → b ∈ s.spent n ∨ b ∈ s.ledgers n := by
    intro n isSpent
    rcases (mem_spent_step step).mp isSpent with old | spends
    · exact Or.inl old
    · exact Or.inr (spends.held step.1)
  refine ⟨fun n m byN byM => single.holder n m (held n byN) (held m byM), ?_, ?_⟩
  · intro n m byN byM
    rcases spent n byN with oldN | heldN <;> rcases spent m byM with oldM | heldM
    · exact single.spender n m oldN oldM
    · exact single.same n m oldN heldM
    · exact (single.same m n oldM heldN).symm
    · exact single.holder n m heldN heldM
  · intro n m byN isHeld
    rcases spent n byN with oldN | heldN
    · exact single.same n m oldN (held m isHeld)
    · exact single.holder n m heldN (held m isHeld)

theorem Single.run (single : Single b first) (run : Run SStep first trace last)
    (uncopied : ∀ entry ∈ trace, ¬ Copies b entry.2)
    (unconnected : ∀ entry ∈ trace, ¬ Reconnects entry.2) : Single b last :=
  run.invariant (Single b) single fun _ _ _ member single step =>
    single.step step (uncopied _ member) (unconnected _ member)

structure Fresh (s : State Node Bearer) : Prop where
  holder : ∀ b n m, b ∈ s.ledgers n → b ∈ s.ledgers m → n = m
  extinct : ∀ b n, b ∈ s.spent n → b ∉ (holdings s).circulating

theorem fresh_of_reconnect (step : SStep s action s') (reconnects : Reconnects action) :
    Fresh s' := by
  obtain ⟨guard, rfl⟩ := step
  cases action with
  | safeReconnect finalLedgers =>
      obtain ⟨-, -, unspent, single⟩ := guard
      exact ⟨single, fun b n isSpent ⟨m, isHeld⟩ => unspent m b isHeld ⟨n, isSpent⟩⟩
  | _ => exact reconnects.elim

theorem since_reconnect (run : Run SStep first trace last) :
    ∃ before segment s, trace = before ++ segment ∧ Run SStep first before s ∧
      Run SStep s segment last ∧ (∀ entry ∈ segment, ¬ Reconnects entry.2) ∧
      (before = [] ∧ s = first ∨ Fresh s) := by
  induction run with
  | refl => exact ⟨[], [], first, rfl, .refl, .refl, by simp, Or.inl ⟨rfl, rfl⟩⟩
  | @tail trace middle last action run step ih =>
      by_cases reconnects : Reconnects action
      · exact ⟨_, [], last, (List.append_nil _).symm, run.tail step, .refl, by simp,
          Or.inr (fresh_of_reconnect step reconnects)⟩
      · obtain ⟨before, segment, s, rfl, beforeRun, segmentRun, unconnected, start⟩ := ih
        refine ⟨before, _, s, List.append_assoc _ _ _, beforeRun, segmentRun.tail step, ?_, start⟩
        intro entry member
        rcases List.mem_append.mp member with earlier | latest
        · exact unconnected entry earlier
        · obtain rfl := List.mem_singleton.mp latest
          exact reconnects

/-- How several nodes have come to spend one bearer: since the network was last
brought up it has been copied, unless they held it from the start, and then they have
spent it without the network. -/
structure SpentInOutage (first : State Node Bearer) (b : Bearer) (spenders : Set Node)
    (before segment : List (State Node Bearer × Action Node Bearer))
    (reconnected last : State Node Bearer) : Prop where
  beforeRun : Run SStep first before reconnected
  segmentRun : Run SStep reconnected segment last
  unconnected : ∀ entry ∈ segment, ¬ Reconnects entry.2
  unspent : ∀ n, b ∉ reconnected.spent n
  spent : ∀ n ∈ spenders, b ∈ last.spent n
  down : last.networkUp = false
  copied : (∃ entry ∈ segment, Copies b entry.2) ∨
    before = [] ∧ ∃ n m, n ≠ m ∧ b ∈ first.ledgers n ∧ b ∈ first.ledgers m

theorem spentInOutage_of_second (unspent : ∀ n, first.spent n = ∅)
    (run : Run SStep first trace s) (step : SStep s action last) (spends : Spends n b action)
    (distinct : n ≠ m) (byM : b ∈ s.spent m) :
    ∃ before segment reconnected, trace ++ [(s, action)] = before ++ segment ∧
      SpentInOutage first b {n, m} before segment reconnected last := by
  have synced : SyncedNoDoubleSpend s := by
    refine run.invariant SyncedNoDoubleSpend ?_ fun _ _ _ _ synced step => synced.step step
    rintro - b ⟨n, isSpent⟩
    simp [unspent] at isSpent
  have isHeld := spends.held step.1
  have isDown : s.networkUp = false := by
    by_contra up
    exact synced (by simpa using up) b ⟨m, byM⟩ n isHeld
  obtain ⟨before, segment, reconnected, rfl, beforeRun, segmentRun, unconnected, start⟩ :=
    since_reconnect run
  have fresh : ∀ k, b ∉ reconnected.spent k := by
    intro k isSpent
    rcases start with ⟨-, rfl⟩ | fresh
    · simp [unspent] at isSpent
    · exact (TokenCirculation.extinct_of_reaches holdings circulates
        (fresh.extinct b k isSpent) segmentRun.reaches).1 ⟨n, isHeld⟩
  have uncopied : ¬ Copies b action ∧ ¬ Reconnects action := by
    rcases spends with rfl | rfl <;> exact ⟨id, id⟩
  have spentByN : b ∈ last.spent n := (mem_spent_step step).mpr (Or.inr spends)
  have spentByM : b ∈ last.spent m := (mem_spent_step step).mpr (Or.inl byM)
  refine ⟨before, segment ++ [(s, action)], reconnected, List.append_assoc _ _ _,
    beforeRun, segmentRun.tail step, ?_, fresh, ?_, ?_, ?_⟩
  · intro entry member
    rcases List.mem_append.mp member with earlier | latest
    · exact unconnected entry earlier
    · obtain rfl := List.mem_singleton.mp latest
      exact uncopied.2
  · rintro k (rfl | rfl)
    · exact spentByN
    · exact spentByM
  · obtain ⟨guard, rfl⟩ := step
    rcases spends with rfl | rfl
    · exact isDown
    · rfl
  · by_contra neither
    simp only [not_or, not_exists, not_and] at neither
    have single : Single b reconnected := by
      refine ⟨fun x y heldX heldY => ?_, fun x _ isSpent => (fresh x isSpent).elim,
        fun x _ isSpent => (fresh x isSpent).elim⟩
      rcases start with ⟨empty, rfl⟩ | fresh
      · by_contra apart
        exact neither.2 empty x y apart heldX heldY
      · exact fresh.holder b x y heldX heldY
    have stays : Single b s := single.run segmentRun
      (fun entry member => neither.1 entry (List.mem_append_left _ member)) unconnected
    exact distinct ((stays.step step uncopied.1 uncopied.2).spender n m spentByN spentByM)

/-- Where a double spend comes from.  Two nodes that have spent one bearer have both
done so since the network was last brought up, and after that it has been copied,
unless two nodes held it from the start. -/
theorem double_spend_in_outage (unspent : ∀ n, first.spent n = ∅)
    (run : Run SStep first trace last) (distinct : n ≠ m) (byN : b ∈ last.spent n)
    (byM : b ∈ last.spent m) :
    ∃ before segment after reconnected s, trace = before ++ segment ++ after ∧
      SpentInOutage first b {n, m} before segment reconnected s ∧ Run SStep s after last := by
  induction run with
  | refl => simp [unspent] at byN
  | @tail trace middle last action run step ih =>
      rcases (mem_spent_step step).mp byN with oldN | spendsN
      · rcases (mem_spent_step step).mp byM with oldM | spendsM
        · obtain ⟨before, segment, after, reconnected, s, rfl, outage, afterRun⟩ := ih oldN oldM
          exact ⟨before, segment, _, reconnected, s, List.append_assoc _ _ _, outage,
            afterRun.tail step⟩
        · obtain ⟨before, segment, reconnected, split, outage⟩ :=
            spentInOutage_of_second unspent run step spendsM distinct.symm oldN
          exact ⟨before, segment, [], reconnected, last, by simpa using split,
            Set.pair_comm m n ▸ outage, .refl⟩
      · rcases (mem_spent_step step).mp byM with oldM | spendsM
        · obtain ⟨before, segment, reconnected, split, outage⟩ :=
            spentInOutage_of_second unspent run step spendsN distinct oldM
          exact ⟨before, segment, [], reconnected, last, by simpa using split, outage, .refl⟩
        · rcases spendsN with rfl | rfl <;> rcases spendsM with same | same <;>
            simp [distinct] at same

def oneHolder : State Bool Unit :=
  ⟨fun n => {_b | n = true}, fun _ => ∅, true⟩

/-- The bearer is copied, the network goes down, and one node spends it. -/
def copied : State Bool Unit := primed oneHolder (.replicate true false ())

def copiedDown : State Bool Unit := primed copied .disconnect

def spentOnce : State Bool Unit := primed copiedDown (.spendAtOffline true ())

theorem oneHolder_run : ∃ trace last, Run SStep oneHolder trace last ∧
    () ∈ last.spent true ∧ () ∈ last.spent false := by
  have copies : SStep oneHolder (.replicate true false ()) copied := ⟨⟨rfl, rfl⟩, rfl⟩
  have goesDown : SStep copied .disconnect copiedDown := ⟨rfl, rfl⟩
  have first : SStep copiedDown (.spendAtOffline true ()) spentOnce := ⟨⟨Or.inr rfl, rfl⟩, rfl⟩
  have isHeld : () ∈ spentOnce.ledgers false :=
    ⟨Or.inl ⟨rfl, rfl⟩, fun online => Bool.false_ne_true online.2⟩
  have second : SStep spentOnce (.spendAtOffline false ())
      (primed spentOnce (.spendAtOffline false ())) := ⟨⟨isHeld, rfl⟩, rfl⟩
  exact ⟨_, _, (((Run.refl.tail copies).tail goesDown).tail first).tail second,
    Or.inl (Or.inr ⟨rfl, rfl⟩), Or.inr ⟨rfl, rfl⟩⟩

/-- The copy comes from the replication before the outage. -/
theorem double_spend_in_outage_oneHolder :
    ∃ before segment after reconnected s last,
      Run SStep oneHolder (before ++ segment ++ after) last ∧
      SpentInOutage oneHolder () {true, false} before segment reconnected s ∧
      ∃ entry ∈ segment, Copies () entry.2 := by
  obtain ⟨trace, last, run, byTrue, byFalse⟩ := oneHolder_run
  obtain ⟨before, segment, after, reconnected, s, rfl, outage, -⟩ :=
    double_spend_in_outage (fun _ => rfl) run (by decide : true ≠ false) byTrue byFalse
  refine ⟨before, segment, after, reconnected, s, last, run, outage, ?_⟩
  rcases outage.copied with copied | ⟨-, n, m, distinct, heldN, heldM⟩
  · exact copied
  · exact (distinct (heldN.trans heldM.symm)).elim

inductive Node3 where
  | N1
  | N2
  | N3

inductive Bearer2 where
  | b1
  | b2

structure StateExe where
  ledgersExe : Node3 → Bearer2 → Bool
  spentExe : Node3 → Bearer2 → Bool
  networkUpExe : Bool

open Node3 Bearer2

/-- `run_conversion_day_exe`, which compares four pairs of nodes and bearers. -/
def runConversionDayExe (s : StateExe) : Option StateExe :=
  if s.networkUpExe then
    none
  else
    let dsN1N2b1 := s.spentExe N1 b1 && s.spentExe N2 b1
    let dsN1N2b2 := s.spentExe N1 b2 && s.spentExe N2 b2
    let dsN1N3b1 := s.spentExe N1 b1 && s.spentExe N3 b1
    let dsN2N3b1 := s.spentExe N2 b1 && s.spentExe N3 b1
    if dsN1N2b1 || dsN1N2b2 || dsN1N3b1 || dsN2N3b1 then
      none
    else
      some ⟨s.ledgersExe, s.spentExe, true⟩

end HabiCore.HabiSafety
