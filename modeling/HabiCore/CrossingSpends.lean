import HabiCore.LiveLinks

/-!
# Crossing spends

Two nodes whose links to each other are up both spend a bearer when their spends
cross: the second of the two spends it before it has handled the notification of
the first.  As long as no reply to a propagation request has brought the bearer
back to one of them, there is no other way.
-/

namespace HabiCore.Deployment

open LockedProcesses LabelledRuns

variable {ι : Type} {D : Deployment ι} {nodeId : ι → String}

/-- A spend command of the bearer at the node has been answered with success. -/
def Completed (w : World ι) (x : ι) (b : String) : Prop :=
  ∃ thread ∈ w.threads, thread.process = x ∧ thread.command.message = .spendAt b ∧
    thread.activity.reply = some .ok

/-- `x` spends a bearer that `y` has spent already, while it has not handled the
notification of that spend. -/
def Crosses (D : Deployment ι) (nodeId : ι → String) (x y : ι) (b : String) (w : World ι)
    (event : Event ι) : Prop :=
  Spends w event x b ∧ b ∈ (w.memory y).node.spent ∧
    D.system.Outstanding w x (.spentNotify (nodeId y) b)

variable [DecidableEq ι] {w w' start last : World ι} {event : Event ι}
  {trace : List (World ι × Event ι)} {x y : ι} {b : String}

theorem crosses_of_second_spend (distinct : x ≠ y) (revoking : RevokingAt D nodeId x y b w)
    (edge : D.system.Step w event w') (spends : Spends w event x b)
    (other : b ∈ (w'.memory y).node.spent) : Crosses D nodeId x y b w event := by
  obtain ⟨k, command, next, isLocked, present, isHeld⟩ := spends
  rcases (mem_spent_step edge).mp other with before | ⟨k', command', next', isLocked', present', -⟩
  · exact ⟨⟨k, command, next, isLocked, present, isHeld⟩, before, revoking before isHeld⟩
  · obtain rfl : k = k' := by simpa [isLocked] using isLocked'
    have same := Option.some_inj.mp (present.symm.trans present')
    exact (distinct (congrArg Thread.process same)).elim

/-- A bearer that two nodes have spent has been spent by one of them across the
notification of the other. -/
theorem crosses_of_double_spend {live : ι → ι → Prop} (configured : Configured D nodeId)
    (complies : (liveLinks D nodeId live).Complies (spentSets start.memory) start)
    (onward : live x y) (back : live y x)
    (unspent : ∀ i, (start.memory i).node.spent = ∅) (distinct : x ≠ y)
    (run : Run D.system.Step start trace last)
    (within : ∀ entry ∈ trace, OverLiveLinks entry.2 ∧
      FreshReply D nodeId x y b entry.1 entry.2 ∧ FreshReply D nodeId y x b entry.1 entry.2)
    (first : b ∈ (last.memory x).node.spent) (second : b ∈ (last.memory y).node.spent) :
    ∃ entry ∈ trace, Crosses D nodeId x y b entry.1 entry.2 ∨
      Crosses D nodeId y x b entry.1 entry.2 := by
  have unspentAt : ∀ x y, RevokingAt D nodeId x y b start := by
    intro x y isSpent
    simp [unspent y] at isSpent
  induction run with
  | refl => simp [unspent x] at first
  | @tail trace middle last event run edge ih =>
      have withinRun : ∀ entry ∈ trace, OverLiveLinks entry.2 ∧
          FreshReply D nodeId x y b entry.1 entry.2 ∧
            FreshReply D nodeId y x b entry.1 entry.2 :=
        fun entry member => within entry (List.mem_append_left _ member)
      have reaches : Reaches D.system.Step (fun w event => OverLiveLinks event ∧
          FreshReply D nodeId x y b w event ∧ FreshReply D nodeId y x b w event) start middle :=
        ⟨trace, run, withinRun⟩
      rcases (mem_spent_step edge).mp first with firstBefore | spends
      · rcases (mem_spent_step edge).mp second with secondBefore | spends
        · obtain ⟨entry, member, crosses⟩ := ih withinRun firstBefore secondBefore
          exact ⟨entry, List.mem_append_left _ member, crosses⟩
        · have revoking : RevokingAt D nodeId y x b middle :=
            revokingAt_reaches configured complies distinct.symm onward (unspentAt y x)
              (reaches.mono fun _ _ within => ⟨within.1, within.2.2⟩)
          exact ⟨(middle, event), by simp,
            Or.inr (crosses_of_second_spend distinct.symm revoking edge spends first)⟩
      · have revoking : RevokingAt D nodeId x y b middle :=
          revokingAt_reaches configured complies distinct back (unspentAt x y)
            (reaches.mono fun _ _ within => ⟨within.1, within.2.1⟩)
        exact ⟨(middle, event), by simp,
          Or.inl (crosses_of_second_spend distinct revoking edge spends second)⟩

/-- Two nodes that are linked to each other complete a spend of the same bearer only
if one of the two spends it while the notification of the other's spend is
outstanding, in all runs in which neither of them applies a stale reply with this
bearer. -/
theorem double_spend_crosses_notification (configured : Configured D nodeId)
    (idle : start.Idle) (named : ∀ i, (start.memory i).node.nodeId = nodeId i)
    (onward : (start.memory x).isLinked (nodeId y) = true)
    (back : (start.memory y).isLinked (nodeId x) = true)
    (unspent : ∀ i, (start.memory i).node.spent = ∅)
    (run : Run D.system.Step start trace last) (distinct : x ≠ y)
    (within : ∀ entry ∈ trace, OverLiveLinks entry.2 ∧
      FreshReply D nodeId x y b entry.1 entry.2 ∧ FreshReply D nodeId y x b entry.1 entry.2)
    (first : Completed last x b) (second : Completed last y b) :
    ∃ entry ∈ trace, Crosses D nodeId x y b entry.1 entry.2 ∨
      Crosses D nodeId y x b entry.1 entry.2 := by
  have linked : ∀ i j, i = x ∧ j = y ∨ i = y ∧ j = x →
      (start.memory i).isLinked (nodeId j) = true := by
    rintro i j (⟨rfl, rfl⟩ | ⟨rfl, rfl⟩)
    · exact onward
    · exact back
  have complies := liveLinks_complies (D := D) idle named linked fun i => by simp [unspent i]
  have compliesLast := liveLinks_complies_reaches complies
    ⟨trace, run, fun entry member => (within entry member).1⟩
  have spentOf : ∀ z, Completed last z b → b ∈ (last.memory z).node.spent := by
    rintro z ⟨thread, member, rfl, isSpend, isOk⟩
    exact compliesLast.reply member isOk b isSpend rfl
  exact crosses_of_double_spend configured complies (Or.inl ⟨rfl, rfl⟩) (Or.inr ⟨rfl, rfl⟩)
    unspent distinct run within (spentOf x first) (spentOf y second)

def twoHolders : World (Fin ["N1", "N2"].length) :=
  idle (linkedNode ["N1", "N2"] fun _ => {"b1"})

instance (w : World ι) (x : ι) (b : String) : Decidable (Completed w x b) :=
  inferInstanceAs (Decidable (∃ thread ∈ w.threads, _))

theorem exists_crossing_spends :
    ∃ trace last, Run (cluster ["N1", "N2"]).system.Step twoHolders trace last ∧
      (∀ entry ∈ trace, OverLiveLinks entry.2 ∧
        FreshReplies (cluster ["N1", "N2"]) ["N1", "N2"].get entry.1 entry.2) ∧
      Completed last 0 "b1" ∧ Completed last 1 "b1" := by
  obtain ⟨trace, last, run, labels, outcome⟩ := System.exists_run
    (cluster ["N1", "N2"]).system twoHolders
    [.started 0 (AdminMessage.spendAt "b1").command,
      .started 1 (AdminMessage.spendAt "b1").command, .thread 0 .locked, .thread 1 .locked,
      .thread 0 .persisted, .thread 1 .persisted, .thread 0 .sent, .thread 1 .sent,
      .delivered 0, .delivered 0, .thread 0 .replied, .thread 1 .replied]
    (fun followed => decide (Completed followed.2 0 "b1" ∧ Completed followed.2 1 "b1" ∧
      ∀ entry ∈ followed.1, OverLiveLinks entry.2 ∧ appliesReply entry.1 entry.2 = false))
    (by decide)
  obtain ⟨first, second, within⟩ := of_decide_eq_true outcome
  refine ⟨trace, last, run, fun entry member => ?_, first, second⟩
  exact ⟨(within entry member).1, freshReplies_of_quiet (Or.inr (within entry member).2)⟩

/-- Two linked nodes complete a spend of the same bearer. -/
theorem crossing_spends_complete :
    ¬ ∀ last, Reaches (cluster ["N1", "N2"]).system.Step (fun _ event => OverLiveLinks event)
        twoHolders last → ¬ (Completed last 0 "b1" ∧ Completed last 1 "b1") := by
  intro single
  obtain ⟨trace, last, run, within, both⟩ := exists_crossing_spends
  exact single last ⟨trace, run, fun entry member => (within entry member).1⟩ both

/-- The spends of the two holders cross. -/
theorem double_spend_crosses_notification_twoHolders :
    ∃ trace last, Run (cluster ["N1", "N2"]).system.Step twoHolders trace last ∧
      ∃ entry ∈ trace,
        Crosses (cluster ["N1", "N2"]) ["N1", "N2"].get 0 1 "b1" entry.1 entry.2 ∨
          Crosses (cluster ["N1", "N2"]) ["N1", "N2"].get 1 0 "b1" entry.1 entry.2 := by
  obtain ⟨trace, last, run, within, first, second⟩ := exists_crossing_spends
  refine ⟨trace, last, run, double_spend_crosses_notification (cluster_configured (by decide))
    (idle_idle _) (fun _ => rfl) (by decide) (by decide) (fun _ => rfl) run (by decide)
    (fun entry member => ?_) first second⟩
  obtain ⟨overLive, fresh⟩ := within entry member
  exact ⟨overLive, fresh.reply (by decide) _, fresh.reply (by decide) _⟩

end HabiCore.Deployment
