import HabiCore.BurnBroadcasts
import HabiCore.NodeContents

/-!
# Extinct bearers

A bearer that no node holds when nothing is pending can never be brought back by
the nodes: no message carries it, and nobody can spend it.  A Conversion Day
whose notices all arrive makes every spent bearer extinct.
-/

namespace HabiCore.Deployment

open LockedProcesses LabelledRuns

variable {ι : Type} {D : Deployment ι} {start last : World ι} {b : String}
  {trace : List (World ι × Event ι)}

def without (b : String) : Contents where
  nodeId _ := True
  held b' := b' ≠ b
  spent _ := True
  spent_of_held _ _ := trivial

theorem inNode_without {node : Node} : (without b).InNode node ↔ b ∉ node.ledger := by
  simp [Contents.InNode, without]

def Unseeded (b : String) (event : Event ι) : Prop :=
  event.Starts fun command => command.message ≠ .seed b

theorem Unseeded.seeds {event : Event ι} (unseeded : Unseeded b event) :
    event.Starts (without b).Seeds := by
  refine unseeded.mono fun command noSeed bearer seeds => ?_
  rintro rfl
  exact noSeed seeds

def offered : PeerMessage → List String
  | .linkUpHello _ ledger _ | .linkUpAck _ ledger _ | .statusReply _ ledger _ => ledger
  | .propagateReply _ bearers => bearers
  | .linkDown _ | .propagateRequest _ | .spentNotify .. | .statusRequest _ => []

theorem not_offered {msg : PeerMessage} (allowed : (without b).InMessage msg) :
    b ∉ offered msg := by
  intro isOffered
  cases msg with
  | linkUpHello | linkUpAck | statusReply => exact allowed.2.1 b isOffered rfl
  | propagateReply => exact allowed.2 b isOffered rfl
  | _ => simp [offered] at isOffered

variable [DecidableEq ι]

theorem complies_without (quiescent : start.Quiescent)
    (extinct : ∀ i, b ∉ (start.memory i).node.ledger) (run : Run D.system.Step start trace last)
    (unseeded : ∀ entry ∈ trace, Unseeded b entry.2) :
    ((without b).contract False ι).Complies () last := by
  refine run.invariant _ (Contract.complies_of_quiescent quiescent
    (fun i => ⟨inNode_without.mpr (extinct i), False.elim⟩) fun _ _ _ => False.elim) ?_
  intro w event next member complies edge
  exact ((without b).kept False D).step complies (unseeded _ member).seeds
    (Or.inr fun _ _ _ _ allowed => allowed) edge

theorem not_spends_extinct (quiescent : start.Quiescent)
    (extinct : ∀ i, b ∉ (start.memory i).node.ledger) (run : Run D.system.Step start trace last)
    (unseeded : ∀ entry ∈ trace, Unseeded b entry.2) :
    ∀ entry ∈ trace, ∀ x, ¬ Spends entry.1 entry.2 x b := by
  rintro ⟨w, event⟩ member x ⟨-, -, -, -, -, isHeld⟩
  obtain ⟨before, after, rfl⟩ := List.append_of_mem member
  obtain ⟨-, earlier, -, -⟩ := run.split
  have complies := complies_without quiescent extinct earlier fun entry isIn =>
    unseeded entry (List.mem_append_left _ isIn)
  exact inNode_without.mp (complies.memory x).1 isHeld

theorem spent_of_not_spends (run : Run D.system.Step start trace last)
    (noSpend : ∀ entry ∈ trace, ∀ x, ¬ Spends entry.1 entry.2 x b) (i : ι) :
    b ∈ (last.memory i).node.spent ↔ b ∈ (start.memory i).node.spent := by
  induction run with
  | refl => rfl
  | @tail trace middle last event run edge ih =>
      rw [mem_spent_step edge, or_iff_left (noSpend (middle, event) (by simp) i)]
      exact ih fun entry member => noSpend entry (List.mem_append_left _ member)

/-- A bearer that is extinct when nothing is pending stays extinct.  Whatever is
lost and in whatever order commands and messages are handled, no node holds it
again, no message offers it, and nobody spends it. -/
theorem extinct_bearers_stay_extinct (quiescent : start.Quiescent)
    (extinct : ∀ i, b ∉ (start.memory i).node.ledger) (run : Run D.system.Step start trace last)
    (unseeded : ∀ entry ∈ trace, Unseeded b entry.2) :
    (∀ i, b ∉ (last.memory i).node.ledger) ∧
    (∀ event peer msg, last.Handles event peer msg → b ∉ offered msg) ∧
    (∀ entry ∈ trace, ∀ x, ¬ Spends entry.1 entry.2 x b) ∧
    ∀ i, b ∈ (last.memory i).node.spent ↔ b ∈ (start.memory i).node.spent := by
  have complies := complies_without quiescent extinct run unseeded
  have noSpend := not_spends_extinct quiescent extinct run unseeded
  refine ⟨fun i => inNode_without.mp (complies.memory i).1, fun event peer msg handles => ?_,
    noSpend, fun i => ?_⟩
  · rcases complies.handled handles with allowed | ⟨_, _, allowed⟩ <;> exact not_offered allowed
  · exact spent_of_not_spends run noSpend i

/-- `N2` has spent the bearer, and nobody holds it any more. -/
def spentByOne : World (Fin ["N1", "N2"].length) :=
  idle fun i => NodeShared.mk ⟨["N1", "N2"].get i, ∅,
    if ["N1", "N2"].get i = "N2" then {"b1"} else ∅⟩ ∅

/-- A link-up, and an attempt to spend the bearer at the other node. -/
theorem extinct_bearers_stay_extinct_spentByOne :
    ∃ trace last, Run (cluster ["N1", "N2"]).system.Step spentByOne trace last ∧
      (last.memory 0).isLinked "N2" = true ∧ (∀ i, "b1" ∉ (last.memory i).node.ledger) ∧
      ∀ entry ∈ trace, ∀ x, ¬ Spends entry.1 entry.2 x "b1" := by
  obtain ⟨trace, last, run, labels, linked⟩ := System.exists_run
    (cluster ["N1", "N2"]).system spentByOne
    [.started 0 (AdminMessage.linkUp "N2").command, .thread 0 .locked, .thread 0 .requested,
      .thread 0 .served, .thread 0 .locked, .started 0 (AdminMessage.spendAt "b1").command,
      .thread 1 .locked]
    (fun followed => (followed.2.memory 0).isLinked "N2") (by decide)
  have unseeded : ∀ event ∈ trace.map Prod.snd, Unseeded "b1" event := by
    rw [labels]
    simp [Unseeded, Event.Starts, AdminMessage.command]
  have extinct := extinct_bearers_stay_extinct (idle_idle _).quiescent (by decide) run
    fun entry member => unseeded _ (List.mem_map_of_mem member)
  exact ⟨trace, last, run, linked, extinct.1, extinct.2.2.1⟩

section Settlement

variable {nodeId : ι → String} {c : ι} {order : IterationOrder} {w first settled : World ι}
  {settling : List (World ι × Event ι)}

theorem quiescent_of_runsAlone (configured : Configured D nodeId)
    (alone : System.RunsAlone D.system w c ⟨.conversionDay, order⟩ first settling settled)
    (landed : settled.inFlight = []) (replied : replyOf settled w.threads.length = some .ok) :
    settled.Quiescent := by
  refine ⟨fun thread member => ?_, landed⟩
  have sole := alone.sole_any (outward_conversionDay configured c order AnyAnswer (w.memory c))
  obtain ⟨k, found⟩ := List.mem_iff_getElem?.mp member
  by_cases own : k = w.threads.length
  · subst own
    have answered : thread.activity.reply = some .ok := by simpa [replyOf, found] using replied
    simp [answered]
  · exact sole.others k thread own found

/-- Settlement is final in the deployment.  After a Conversion Day that runs alone,
replies Ok and has all its notices delivered, no node ever holds or spends again
what any node had spent before, in whatever runs follow. -/
theorem settlement_is_lasting (configured : Configured D nodeId)
    (alone : System.RunsAlone D.system w c ⟨.conversionDay, order⟩ first settling settled)
    (kept : ∀ entry ∈ settling, ∀ m, entry.2 ≠ .lost m)
    (notified : ∀ entry ∈ settling, ∀ x sender b,
      ¬ D.system.FailsToSend entry.1 entry.2 (x, .spentNotify sender b))
    (landed : settled.inFlight = []) (replied : replyOf settled w.threads.length = some .ok)
    (isSpent : ∃ y, b ∈ (w.memory y).node.spent) (run : Run D.system.Step settled trace last)
    (unseeded : ∀ entry ∈ trace, Unseeded b entry.2) :
    (∀ i, b ∉ (last.memory i).node.ledger) ∧
    ∀ entry ∈ trace, ∀ x, ¬ Spends entry.1 entry.2 x b := by
  have quiescent := quiescent_of_runsAlone configured alone landed replied
  have extinct : ∀ i, b ∉ (settled.memory i).node.ledger := by
    intro i isHeld
    obtain ⟨-, entry, isIn, sender, fails⟩ :=
      (held_after_settlement_iff configured alone replied kept landed isSpent).mp isHeld
    exact notified entry isIn i sender b fails
  have complies := complies_without quiescent extinct run unseeded
  exact ⟨fun i => inNode_without.mp (complies.memory i).1,
    not_spends_extinct quiescent extinct run unseeded⟩

end Settlement

/-- `N1` settles, and then links up with the node that held the bearer. -/
theorem settlement_is_lasting_linkUp :
    ∃ burning settled trace last, System.RunsAlone (cluster ["N1", "N2", "N3"]).system spentAndHeld
        0 ⟨.conversionDay, .sorted⟩ Deployment.settling burning settled ∧
      Run (cluster ["N1", "N2", "N3"]).system.Step settled trace last ∧
      (last.memory 0).isLinked "N3" = true ∧ ∀ i, "b1" ∉ (last.memory i).node.ledger := by
  obtain ⟨burning, settled, alone, labels, outcome⟩ := System.exists_runsAlone
    (idle_idle _).quiescent spentAndHeld_settling
    [.thread 0 .locked, .thread 0 .requested, .thread 0 .served,
      .thread 0 .requested, .thread 0 .served, .thread 0 .locked, .thread 0 .persisted,
      .thread 0 .sent, .thread 0 .sent, .thread 0 .replied, .delivered 0, .delivered 0]
    (by decide) (fun settled => decide (settled.inFlight = [] ∧ replyOf settled 0 = some .ok) &&
      (follow (cluster ["N1", "N2", "N3"]).system.step settled
        [.started 0 (AdminMessage.linkUp "N3").command, .thread 1 .locked, .thread 1 .requested,
          .thread 1 .served, .thread 1 .locked]).any
        fun followed => (followed.2.memory 0).isLinked "N3") (by decide)
  obtain ⟨settles, links⟩ := Bool.and_eq_true_iff.mp outcome
  obtain ⟨landed, replied⟩ := of_decide_eq_true settles
  obtain ⟨trace, last, run, later, linked⟩ := System.exists_run _ settled _ _ links
  have isLabel : ∀ entry ∈ burning, entry.2 ∈ burning.map Prod.snd :=
    fun entry isIn => List.mem_map_of_mem isIn
  rw [labels] at isLabel
  have kept : ∀ entry ∈ burning, ∀ m, entry.2 ≠ .lost m := by
    rintro ⟨state, _⟩ isIn m rfl
    simpa using isLabel _ isIn
  have unseeded : ∀ event ∈ trace.map Prod.snd, Unseeded "b1" event := by
    rw [later]
    simp [Unseeded, Event.Starts, AdminMessage.command]
  refine ⟨burning, settled, trace, last, alone, run, linked, (settlement_is_lasting
    (cluster_configured (by decide)) alone kept ?_ landed replied ⟨1, by decide⟩ run
    fun entry member => unseeded _ (List.mem_map_of_mem member)).1⟩
  rintro ⟨state, _⟩ isIn x sender b ⟨k, failure, -, -, -, -, rfl, -⟩
  simpa using isLabel _ isIn

end HabiCore.Deployment
