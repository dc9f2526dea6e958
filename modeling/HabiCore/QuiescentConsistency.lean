import HabiCore.LiveLinks

/-!
# Quiescent consistency of live links

When all commands are answered and all messages handled, nobody holds a spent
bearer, provided that no reply to a propagation request was applied after the
notification of a spend that the replying node made in the meantime.
-/

namespace HabiCore.Deployment

open LockedProcesses LabelledRuns

variable {ι : Type} [DecidableEq ι] {D : Deployment ι} {nodeId : ι → String}
  {start last : World ι}

/-- In a quiescent state no ledger contains a spent bearer, if all replies were
fresh when they were applied. -/
theorem quiescent_consistency (configured : Configured D nodeId) (idle : start.Idle)
    (mesh : Mesh nodeId start.memory)
    (clean : ∀ x y, ∀ b ∈ (start.memory y).node.spent, b ∉ (start.memory x).node.ledger)
    (reaches : Reaches D.system.Step
      (fun w event => OverLiveLinks event ∧ FreshReplies D nodeId w event) start last)
    (quiescent : last.Quiescent) :
    ∀ x y, ∀ b ∈ (last.memory y).node.spent, b ∉ (last.memory x).node.ledger := by
  have complies : (liveLinks D nodeId fun i j => j ≠ i).Complies (spentSets start.memory) start :=
    liveLinks_complies idle mesh.named mesh.linked fun i =>
      Finset.disjoint_right.mpr (clean i i)
  have revoking : Revoking D nodeId start :=
    fun x y _ b isSpent isHeld => (clean x y b isSpent isHeld).elim
  have compliesLast := liveLinks_complies_reaches complies
    (reaches.mono fun _ _ within => within.1)
  have revokingLast : Revoking D nodeId last :=
    revoking_reaches configured complies revoking reaches
  intro x y b isSpent isHeld
  by_cases same : x = y
  · subst same
    exact Finset.disjoint_left.mp (compliesLast.memory x).2.2 isHeld isSpent
  · exact System.not_outstanding_of_quiescent quiescent
      (revokingLast x y same b isSpent isHeld)

def oneHolder : World (Fin ["N1", "N2"].length) :=
  idle (linkedNode ["N1", "N2"] fun name => if name = "N1" then {"b1"} else ∅)

theorem oneHolder_mesh : Mesh ["N1", "N2"].get oneHolder.memory :=
  linkedNode_mesh _ fun name => if name = "N1" then {"b1"} else ∅

theorem oneHolder_clean : ∀ x y, ∀ b ∈ (oneHolder.memory y).node.spent,
    b ∉ (oneHolder.memory x).node.ledger := by
  simp [oneHolder, idle, linkedNode, Node.new]

/-- `N2` propagates from `N1`, which then spends the bearer and notifies `N2`. -/
theorem quiescent_consistency_oneHolder :
    ∃ last, "b1" ∈ (last.memory 0).node.spent ∧
      Reaches (cluster ["N1", "N2"]).system.Step (fun _ event => OverLiveLinks event)
        oneHolder last ∧
      ∀ x y, ∀ b ∈ (last.memory y).node.spent, b ∉ (last.memory x).node.ledger := by
  obtain ⟨trace, last, run, labels, outcome⟩ := System.exists_run
    (cluster ["N1", "N2"]).system oneHolder
    [.started 1 (AdminMessage.propagate "N1").command, .thread 0 .locked,
      .thread 0 .requested, .thread 0 .served, .thread 0 .locked, .thread 0 .persisted,
      .thread 0 .replied, .started 0 (AdminMessage.spendAt "b1").command,
      .thread 1 .locked, .thread 1 .persisted, .thread 1 .sent, .delivered 0,
      .thread 1 .replied]
    (fun followed => decide (followed.2.Quiescent ∧
      "b1" ∈ (followed.2.memory 0).node.spent ∧
      ∀ entry ∈ followed.1, OverLiveLinks entry.2 ∧
        ((∀ i, (entry.1.memory i).node.spent = ∅) ∨ appliesReply entry.1 entry.2 = false)))
    (by decide)
  obtain ⟨quiescent, isSpent, within⟩ := of_decide_eq_true outcome
  refine ⟨last, isSpent, ⟨trace, run, fun entry member => (within entry member).1⟩,
    quiescent_consistency (cluster_configured (by decide)) (idle_idle _)
      oneHolder_mesh oneHolder_clean ⟨trace, run, fun entry member => ?_⟩ quiescent⟩
  exact ⟨(within entry member).1, freshReplies_of_quiet (within entry member).2⟩

/-- `N2` requests a propagation and `N1` replies with its ledger.  Then `N1`
spends the bearer, and `N2` handles the notification before it applies the
reply. -/
theorem stale_reply_resurrects :
    ¬ ∀ last, Reaches (cluster ["N1", "N2"]).system.Step (fun _ event => OverLiveLinks event)
        oneHolder last → last.Quiescent →
        ∀ x y, ∀ b ∈ (last.memory y).node.spent, b ∉ (last.memory x).node.ledger := by
  intro consistent
  obtain ⟨trace, last, run, labels, outcome⟩ := System.exists_run
    (cluster ["N1", "N2"]).system oneHolder
    [.started 1 (AdminMessage.propagate "N1").command, .thread 0 .locked,
      .thread 0 .requested, .thread 0 .served,
      .started 0 (AdminMessage.spendAt "b1").command, .thread 1 .locked,
      .thread 1 .persisted, .thread 1 .sent, .delivered 0, .thread 1 .replied,
      .thread 0 .locked, .thread 0 .persisted, .thread 0 .replied]
    (fun followed => decide (followed.2.Quiescent ∧
      "b1" ∈ (followed.2.memory 0).node.spent ∧ "b1" ∈ (followed.2.memory 1).node.ledger ∧
      ∀ entry ∈ followed.1, OverLiveLinks entry.2))
    (by decide)
  obtain ⟨quiescent, isSpent, isHeld, within⟩ := of_decide_eq_true outcome
  exact consistent last ⟨trace, run, within⟩ quiescent 1 0 "b1" isSpent isHeld

end HabiCore.Deployment
