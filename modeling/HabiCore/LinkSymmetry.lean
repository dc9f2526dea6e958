import HabiCore.HandlerConduct

/-!
# Symmetry of the links of a deployment

A `LinkUp` sets the far end of a link by its Hello and its own end by the Ack; a
`LinkDown` sets the far end by its message and its own end after it has sent the
message.  So every command brings both ends into one position.  They end up in
different positions when a command writes its second end after an opposite
command has written both.
-/

namespace HabiCore.Deployment

open LabelledRuns LockedProcesses

variable {ι : Type} [DecidableEq ι]

/-- The step is the second write of a command to the link of `x` and `y`, at `x`.
The latest write at `y` is by an opposite command, which has written both ends. -/
def Overtaken (nodeId : ι → String) (h : History ι CriticalSection PeerMessage) (w : World ι)
    (event : Event ι) (x y : ι) : Prop :=
  ∃ write ∈ written h w event x (nodeId y), write ∈ flagWrites h y (nodeId x) ∧
    ∃ latest ∈ (flagWrites h y (nodeId x)).getLast?,
      latest.2 = !write.2 ∧ latest ∈ flagWrites h x (nodeId y)

instance (nodeId : ι → String) (h : History ι CriticalSection PeerMessage) (w : World ι)
    (event : Event ι) (x y : ι) : Decidable (Overtaken nodeId h w event x y) :=
  inferInstanceAs (Decidable (∃ write ∈ written h w event x (nodeId y), _))

/-- The latest writes of the two ends are by opposite commands, each of which has
written the other end too. -/
def Crossed (nodeId : ι → String) (h : History ι CriticalSection PeerMessage) (x y : ι) :
    Prop :=
  ∃ k k' up, (flagWrites h x (nodeId y)).getLast? = some (k, up) ∧
    (flagWrites h y (nodeId x)).getLast? = some (k', !up) ∧
    (k, up) ∈ flagWrites h y (nodeId x) ∧ (k', !up) ∈ flagWrites h x (nodeId y)

/-- The flags are what has been written last, and who writes one end of a link
writes the other end too. -/
structure LinksTracked (nodeId : ι → String) (h : History ι CriticalSection PeerMessage)
    (w : World ι) : Prop where
  counted : h.senders.length = w.inFlight.length
  flags : ∀ x y, (w.memory x).isLinked (nodeId y) =
    (flagWrites h x (nodeId y)).getLast?.any Prod.snd
  paired : ∀ k x y up, h.Includes w k x (linkWrite · = some (nodeId y, up)) →
    h.Includes w k y (linkWrite · = some (nodeId x, up))

variable {D : Deployment ι} {nodeId : ι → String} {w w' : World ι} {event : Event ι}
  {h : History ι CriticalSection PeerMessage} {x y : ι}

theorem not_crossed_step (distinct : x ≠ y) (before : ¬ Crossed nodeId h x y)
    (timelyHere : ¬ Overtaken nodeId h w event x y)
    (timelyThere : ¬ Overtaken nodeId h w event y x) :
    ¬ Crossed nodeId (h.record w event) x y := by
  rintro ⟨k, k', up, latestHere, latestThere, there, here⟩
  rw [flagWrites_record] at latestHere latestThere there here
  cases writesHere : written h w event x (nodeId y) with
  | some write =>
      rw [written_eq_none distinct writesHere] at latestThere there
      rw [writesHere] at latestHere here
      obtain rfl : write = (k, up) := by simpa using latestHere
      have opposite : (k', !up) ∈ flagWrites h x (nodeId y) := by simpa using here
      exact timelyHere ⟨(k, up), writesHere, by simpa using there, (k', !up),
        by simpa using latestThere, rfl, opposite⟩
  | none =>
      rw [writesHere] at latestHere here
      cases writesThere : written h w event y (nodeId x) with
      | some write =>
          rw [writesThere] at latestThere there
          obtain rfl : write = (k', !up) := by simpa using latestThere
          have opposite : (k, up) ∈ flagWrites h y (nodeId x) := by simpa using there
          exact timelyThere ⟨(k', !up), writesThere, by simpa using here, (k, up),
            by simpa using latestHere, by simp, opposite⟩
      | none =>
          rw [writesThere] at latestThere there
          exact before ⟨k, k', up, by simpa using latestHere, by simpa using latestThere,
            by simpa using there, by simpa using here⟩

theorem LinksTracked.initial {start : World ι} (idle : start.Idle)
    (unlinked : ∀ i j, (start.memory i).isLinked (nodeId j) = false) :
    LinksTracked nodeId (history ([] : List (World ι × Event ι))) start where
  counted := by simp [history, idle.2]
  flags x y := by simp [history, flagWrites, unlinked]
  paired k x y up includes := by
    obtain ⟨effect, member, -⟩ := includes.of_quiescent idle.quiescent
    simp [history] at member

omit [DecidableEq ι] in
theorem mem_includes_of_linkDue {k : Nat} {command : Command} {program : Handler} {peer : String}
    {up : Bool} (running : w.threads[k]? = some ⟨x, command, .running program⟩)
    (isDue : linkDue program = some (peer, up)) :
    h.Includes w k x (linkWrite · = some (peer, up)) := by
  cases program with
  | locked body next => exact Or.inr (Or.inl ⟨command, body, next, running, isDue⟩)
  | done | persist | exchange | send => cases isDue

omit [DecidableEq ι] in
/-- A Hello writes the far end of a link, and the section that is due when it has
been served writes the own end.  Other requests write no link. -/
theorem linkDue_of_served (named : ∀ i, (w.memory i).node.nodeId = nodeId i) {i : ι} (peer : ι)
    {msg : PeerMessage} {next : Except ExchangeFailure PeerMessage → Handler}
    (asks : AsksToLink (nodeId i) msg next) :
    (msg.linkWrite = some (nodeId i, true) ∧
      linkDue (D.system.answered next (D.system.respond (w.memory peer) msg).1) =
        some (nodeId peer, true)) ∨
    (msg.linkWrite = none ∧
      linkDue (D.system.answered next (D.system.respond (w.memory peer) msg).1) = none) := by
  cases msg with
  | linkUpHello sender ledger spent =>
      obtain ⟨rfl, applies⟩ := asks
      rw [← named peer]
      exact Or.inl ⟨rfl, applies _ _ _⟩
  | linkDown sender => exact asks.elim
  | linkUpAck | propagateRequest | propagateReply | spentNotify | statusRequest | statusReply =>
      refine Or.inr ⟨rfl, ?_⟩
      unfold System.answered
      split <;> exact asks _

omit [DecidableEq ι] in
theorem linkDue_of_sent (configured : Configured D nodeId) {i peer : ι} {addr : String}
    {msg : PeerMessage} {next : Except ExchangeFailure Unit → Handler}
    (takes : TakesLinkDown (D.peers i) (nodeId i) addr msg next)
    (listening : D.listener addr = some peer) :
    (msg.linkWrite = some (nodeId i, false) ∧
      linkDue (next (.ok ())) = some (nodeId peer, false)) ∨
    (msg.linkWrite = none ∧ linkDue (next (.ok ())) = none) := by
  cases msg with
  | linkDown sender =>
      obtain ⟨rfl, id, isListed, isDue⟩ := takes
      obtain ⟨-, rfl⟩ := configured.of_listener isListed listening
      exact Or.inl ⟨rfl, isDue⟩
  | linkUpHello => exact takes.elim
  | linkUpAck | propagateRequest | propagateReply | spentNotify | statusRequest | statusReply =>
      exact Or.inr ⟨rfl, takes⟩

section Steps

variable (configured : Configured D nodeId)
  (named : ∀ i, (w.memory i).node.nodeId = nodeId i)
  (keeps : w.Keeps fun i => nodeConduct (D.peers i) (nodeId i))
  (tracked : LinksTracked nodeId h w) (edge : D.system.Step w event w')
  (lossless : event.Lossless)
include configured named keeps tracked edge lossless

/-- A thread that comes to a section that writes its own end of a link has just
written the far end, or has sent the message that does. -/
theorem includes_of_linkDue {k : Nat} {up : Bool} {command : Command} {program : Handler}
    (running : w'.threads[k]? = some ⟨x, command, .running program⟩)
    (isDue : linkDue program = some (nodeId y, up)) :
    (h.record w event).Includes w' k y (linkWrite · = some (nodeId x, up)) := by
  rcases edge.program_origin lossless running with old | rfl | ⟨body, next, present, rfl⟩ |
    present | ⟨peer, msg, next, rfl, present, rfl⟩ |
    ⟨addr, msg, next, peer, rfl, present, listening, rfl⟩
  · exact (tracked.paired k x y up (mem_includes_of_linkDue old isDue)).step edge lossless
  · cases (handleAdminCommand_linkDue _ _).symm.trans isDue
  · have silent : linkDue (next (w.memory x)) = none :=
      (keeps.thread present (w.memory x) (named x)).1.2.2
    cases silent.symm.trans isDue
  · have silent : linkDue program = none := (keeps.thread present).1
    cases silent.symm.trans isDue
  · have asks : AsksToLink (nodeId x) msg next := (keeps.thread present).1
    rcases linkDue_of_served (D := D) named peer asks with ⟨isHello, due⟩ | ⟨-, silent⟩
    · obtain ⟨same, rfl⟩ : nodeId peer = nodeId y ∧ true = up := by
        simpa using due.symm.trans isDue
      obtain rfl := configured.distinct same
      have happens : h.effect w (.thread k .served : Event ι) = some ⟨k, peer, .inr msg⟩ := by
        simp [History.effect, present]
      exact History.includes_of_effect happens isHello
    · cases silent.symm.trans isDue
  · have takes : TakesLinkDown (D.peers x) (nodeId x) addr msg next := (keeps.thread present).1
    rcases linkDue_of_sent configured takes listening with ⟨isDown, due⟩ | ⟨-, silent⟩
    · obtain ⟨same, rfl⟩ : nodeId peer = nodeId y ∧ false = up := by
        simpa using due.symm.trans isDue
      obtain rfl := configured.distinct same
      obtain ⟨-, peer', listening', rfl⟩ := edge.of_send present lossless
      obtain rfl := Option.some_inj.mp (listening'.symm.trans listening)
      refine Or.inr (Or.inr ⟨w.inFlight.length, msg, ?_, by simp, isDown⟩)
      simp [History.record, History.sendersAfter, ← tracked.counted]
    · cases silent.symm.trans isDue

/-- The step lemma: the two writes of a command to one link come together. -/
theorem paired_step {k : Nat} {up : Bool}
    (includes : (h.record w event).Includes w' k x (linkWrite · = some (nodeId y, up))) :
    (h.record w event).Includes w' k y (linkWrite · = some (nodeId x, up)) := by
  rcases includes.origin tracked.counted edge lossless with old |
    ⟨j, command, msg, next, rfl, present, writes⟩ |
    ⟨j, command, addr, msg, next, rfl, present, listening, writes⟩ |
    ⟨command, body, rest, running, writes⟩
  · exact (tracked.paired k x y up old).step edge lossless
  · have asks : AsksToLink (nodeId j) msg next := (keeps.thread present).1
    obtain ⟨-, rfl⟩ := edge.of_lossless_waiting present lossless
    rcases linkDue_of_served (D := D) named x asks with ⟨isHello, isDue⟩ | ⟨silent, -⟩
    · obtain ⟨same, rfl⟩ : nodeId j = nodeId y ∧ true = up := by
        simpa using isHello.symm.trans writes
      obtain rfl := configured.distinct same
      exact mem_includes_of_linkDue
        (List.getElem?_set_self (List.getElem?_eq_some_iff.mp present).1) isDue
    · cases silent.symm.trans writes
  · have takes : TakesLinkDown (D.peers j) (nodeId j) addr msg next := (keeps.thread present).1
    obtain ⟨-, peer, -, rfl⟩ := edge.of_send present lossless
    rcases linkDue_of_sent configured takes listening with ⟨isDown, isDue⟩ | ⟨silent, -⟩
    · obtain ⟨same, rfl⟩ : nodeId j = nodeId y ∧ false = up := by
        simpa using isDown.symm.trans writes
      obtain rfl := configured.distinct same
      exact mem_includes_of_linkDue
        (List.getElem?_set_self (List.getElem?_eq_some_iff.mp present).1) isDue
    · cases silent.symm.trans writes
  · exact includes_of_linkDue configured named keeps tracked edge lossless running writes

theorem LinksTracked.step : LinksTracked nodeId (h.record w event) w' where
  counted := h.senders_step tracked.counted edge lossless
  flags x y := by
    rw [isLinked_step tracked.counted edge lossless, tracked.flags, flagWrites_record]
    cases written h w event x (nodeId y) <;> simp
  paired _ _ _ _ includes := paired_step configured named keeps tracked edge lossless includes

end Steps

theorem linksTracked_of_run {start last : World ι} {trace : List (World ι × Event ι)}
    (configured : Configured D nodeId) (named : ∀ i, (start.memory i).node.nodeId = nodeId i)
    (unlinked : ∀ i j, (start.memory i).isLinked (nodeId j) = false) (idle : start.Idle)
    (run : Run D.system.Step start trace last)
    (lossless : ∀ entry ∈ trace, entry.2.Lossless) :
    LinksTracked nodeId (history trace) last := by
  induction run with
  | refl => exact .initial idle unlinked
  | @tail trace middle last event run edge ih =>
      have tracked := ih fun entry member => lossless entry (List.mem_append_left _ member)
      obtain ⟨named, keeps⟩ := conduct_of_run run idle named
      rw [history_append]
      exact .step configured named keeps tracked edge (lossless (middle, event) (by simp))

theorem not_crossed_of_run {start last : World ι} {trace : List (World ι × Event ι)}
    (run : Run D.system.Step start trace last)
    (timely : ∀ before entry after, trace = before ++ entry :: after →
      ∀ x y, x ≠ y → ¬ Overtaken nodeId (history before) entry.1 entry.2 x y)
    (distinct : x ≠ y) : ¬ Crossed nodeId (history trace) x y := by
  induction run with
  | refl => simp [Crossed, history, flagWrites]
  | @tail trace middle last event run edge ih =>
      have before : ¬ Crossed nodeId (history trace) x y :=
        ih fun before entry after same => timely before entry (after ++ [(middle, event)])
          (by simp [same])
      rw [history_append]
      have now := timely trace (middle, event) [] rfl
      exact not_crossed_step distinct before (now x y distinct) (now y x distinct.symm)

theorem LinksTracked.up_of_up (tracked : LinksTracked nodeId h w) (quiescent : w.Quiescent)
    (straight : ¬ Crossed nodeId h x y)
    (up : (w.memory x).isLinked (nodeId y) = true) :
    (w.memory y).isLinked (nodeId x) = true := by
  have other : ∀ k x y up, (k, up) ∈ flagWrites h x (nodeId y) →
      (k, up) ∈ flagWrites h y (nodeId x) := by
    intro k x y up writes
    have includes := tracked.paired k x y up (Or.inl (mem_flagWrites.mp writes))
    exact mem_flagWrites.mpr (includes.of_quiescent quiescent)
  rw [tracked.flags] at up ⊢
  obtain ⟨⟨k, isUp⟩, latest, rfl⟩ := (Option.any_eq_true _ _).mp up
  have there := other k x y true (List.mem_of_getLast? latest)
  cases latestThere : (flagWrites h y (nodeId x)).getLast? with
  | none => simp [List.getLast?_eq_none_iff.mp latestThere] at there
  | some write =>
      obtain ⟨k', up'⟩ := write
      cases up' with
      | true => rfl
      | false =>
          have here := other k' y x false (List.mem_of_getLast? latestThere)
          exact (straight ⟨k, k', true, latest, latestThere, there, here⟩).elim

/-- In every run in which no command is overtaken, whatever the commands and
the order in which their messages are handled, the ends of every link have one
position whenever nothing is pending.  A command that is overtaken leaves them in
different positions. -/
theorem links_symmetric_unless_overtaken {start last : World ι}
    {trace : List (World ι × Event ι)} (configured : Configured D nodeId)
    (named : ∀ i, (start.memory i).node.nodeId = nodeId i)
    (unlinked : ∀ i j, (start.memory i).isLinked (nodeId j) = false) (idle : start.Idle)
    (run : Run D.system.Step start trace last)
    (lossless : ∀ entry ∈ trace, entry.2.Lossless) :
    ((∀ before entry after, trace = before ++ entry :: after →
        ∀ x y, x ≠ y → ¬ Overtaken nodeId (history before) entry.1 entry.2 x y) →
      last.Quiescent → ∀ i j, i ≠ j →
        (last.memory i).isLinked (nodeId j) = (last.memory j).isLinked (nodeId i)) ∧
    ∀ before entry after, trace = before ++ entry :: after →
      ∀ next, D.system.Step entry.1 entry.2 next → ∀ x y, x ≠ y →
        Overtaken nodeId (history before) entry.1 entry.2 x y →
          (next.memory x).isLinked (nodeId y) ≠ (next.memory y).isLinked (nodeId x) := by
  refine ⟨fun timely quiescent i j distinct => ?_, ?_⟩
  · have tracked := linksTracked_of_run configured named unlinked idle run lossless
    have onward := tracked.up_of_up quiescent (not_crossed_of_run run timely distinct)
    have back := tracked.up_of_up quiescent (not_crossed_of_run run timely distinct.symm)
    exact Bool.eq_iff_iff.mpr ⟨onward, back⟩
  · rintro before entry after rfl next edge x y distinct ⟨write, writes, -, latest, isLatest,
      opposite, -⟩
    obtain ⟨_, upToHere, -, -⟩ := run.split
    obtain ⟨namedHere, keeps⟩ := conduct_of_run upToHere idle named
    have before : LinksTracked nodeId (history before) entry.1 :=
      linksTracked_of_run configured named unlinked idle upToHere
        fun entry member => lossless entry (List.mem_append_left _ member)
    have tracked := before.step configured namedHere keeps edge (lossless entry (by simp))
    rw [tracked.flags, tracked.flags, flagWrites_record, flagWrites_record, writes,
      written_eq_none distinct writes]
    simp [Option.mem_def.mp isLatest, opposite]

def onlyLinks (command : Command) : Bool :=
  match command.message with
  | .linkUp _ | .linkDown _ => true
  | _ => false

def apartNodes : World (Fin ["N1", "N2"].length) :=
  idle (unlinkedNode ["N1", "N2"] fun _ => ∅)

theorem not_overtaken_of_take {trace : List (World ι × Event ι)}
    (timely : ∀ n : Fin trace.length, ∀ x y,
      ¬ Overtaken nodeId (history (trace.take n)) (trace.get n).1 (trace.get n).2 x y)
    (before : List (World ι × Event ι)) (entry : World ι × Event ι)
    (after : List (World ι × Event ι)) (isTrace : trace = before ++ entry :: after) (x y : ι) :
    ¬ Overtaken nodeId (history before) entry.1 entry.2 x y := by
  subst isTrace
  have now := timely ⟨before.length, by simp⟩ x y
  simpa using now

/-- `N1` takes its link down and puts it up again, one command after the other;
the first message reaches `N2` last. -/
theorem links_differ_after_overtaking :
    ¬ ∀ trace (last : World (Fin ["N1", "N2"].length)),
        Run (cluster ["N1", "N2"]).system.Step apartNodes trace last →
        (∀ entry ∈ trace, entry.2.Lossless ∧ entry.2.Starts (onlyLinks · = true)) →
        last.Quiescent → ∀ i j, i ≠ j →
          (last.memory i).isLinked (["N1", "N2"].get j) =
            (last.memory j).isLinked (["N1", "N2"].get i) := by
  intro symmetric
  obtain ⟨trace, last, run, labels, outcome⟩ := System.exists_run
    (cluster ["N1", "N2"]).system apartNodes
    [.started 0 (AdminMessage.linkDown "N2").command, .thread 0 .locked, .thread 0 .sent,
      .thread 0 .locked, .thread 0 .persisted, .thread 0 .replied,
      .started 0 (AdminMessage.linkUp "N2").command, .thread 1 .locked, .thread 1 .requested,
      .thread 1 .served, .thread 1 .locked, .thread 1 .persisted, .thread 1 .replied,
      .delivered 0]
    (fun followed => decide (followed.2.Quiescent ∧
      (followed.2.memory 0).isLinked "N2" = true ∧ (followed.2.memory 1).isLinked "N1" = false ∧
      ∀ entry ∈ followed.1, entry.2.Lossless ∧ entry.2.Starts (onlyLinks · = true)))
    (by decide)
  obtain ⟨quiescent, isUp, isDown, within⟩ := of_decide_eq_true outcome
  have same := symmetric trace last run within quiescent 0 1 (by decide)
  have up : (last.memory 0).isLinked (["N1", "N2"].get 1) = true := isUp
  have down : (last.memory 1).isLinked (["N1", "N2"].get 0) = false := isDown
  rw [up, down] at same
  cases same

/-- `N1` puts the link up while `N2` takes it down: both have written the end of
`N2` before either writes that of `N1`. -/
theorem links_symmetric_unless_overtaken_upAndDown :
    ∃ trace, ∃ last : World (Fin ["N1", "N2"].length),
      Run (cluster ["N1", "N2"]).system.Step apartNodes trace last ∧ last.Quiescent ∧
      (∃ entry ∈ trace, (entry.1.memory 0).isLinked "N2" = true ∧
        (entry.1.memory 1).isLinked "N1" = false) ∧
      ∀ i j, i ≠ j → (last.memory i).isLinked (["N1", "N2"].get j) =
        (last.memory j).isLinked (["N1", "N2"].get i) := by
  obtain ⟨trace, last, run, labels, outcome⟩ := System.exists_run
    (cluster ["N1", "N2"]).system apartNodes
    [.started 0 (AdminMessage.linkUp "N2").command, .thread 0 .locked, .thread 0 .requested,
      .thread 0 .served, .started 1 (AdminMessage.linkDown "N1").command, .thread 1 .locked,
      .thread 1 .sent, .thread 1 .locked, .thread 1 .persisted, .thread 1 .replied,
      .thread 0 .locked, .thread 0 .persisted, .thread 0 .replied, .delivered 0]
    (fun followed => decide (followed.2.Quiescent ∧
      (∃ entry ∈ followed.1, (entry.1.memory 0).isLinked "N2" = true ∧
        (entry.1.memory 1).isLinked "N1" = false) ∧
      (∀ entry ∈ followed.1, entry.2.Lossless) ∧
      ∀ n : Fin followed.1.length, ∀ x y,
        ¬ Overtaken ["N1", "N2"].get (history (followed.1.take n)) (followed.1.get n).1
          (followed.1.get n).2 x y))
    (by decide)
  obtain ⟨quiescent, apart, lossless, timely⟩ := of_decide_eq_true outcome
  exact ⟨trace, last, run, quiescent, apart,
    (links_symmetric_unless_overtaken (cluster_configured (by decide)) (fun _ => rfl)
      (fun _ _ => rfl) (idle_idle _) run lossless).1
      (fun before entry after isTrace x y _ =>
        not_overtaken_of_take timely before entry after isTrace x y) quiescent⟩

end HabiCore.Deployment
