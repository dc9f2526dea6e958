import HabiCore.LinkUpHandshake
import HabiCore.SequentialCommands
import HabiCore.SoleThreads

/-!
# LinkUps that fail

The initiator of a LinkUp gives up when its exchange fails, wherever it fails.
Its peer has merged and has its side of the link up as soon as it has handled
the Hello, and it is never told that the initiator has not.
-/

namespace HabiCore

open LockedProcesses LockedProcesses.Program

namespace HabiNode

variable {mayAnswer : String → PeerMessage → Except ExchangeFailure PeerMessage → Prop}
  {peers : PeerAddrs} {peer : String} {shared left : NodeShared} {reply : AdminReply}
  {effects : List (Effect String PeerMessage ExchangeFailure)}

def hello (shared : NodeShared) : PeerMessage :=
  .linkUpHello shared.node.nodeId shared.ledgerSorted shared.spentSorted

theorem performs_finishLinkUp {answer : Except String PeerMessage}
    (performs : (finishLinkUp peer answer).Performs CriticalSection.execute mayAnswer shared
      effects left reply) :
    (∃ sender ledger spent, answer = .ok (.linkUpAck sender ledger spent) ∧
      effects = [.persisted] ∧ reply = .ok) ∨
    ((∀ sender ledger spent, answer ≠ .ok (.linkUpAck sender ledger spent)) ∧
      effects = [] ∧ left = shared ∧ ∃ detail, reply = .error detail) := by
  cases answer with
  | error e =>
      obtain ⟨rfl, rfl, rfl⟩ := performs_done.mp performs
      exact Or.inr ⟨by simp, rfl, rfl, _, rfl⟩
  | ok answer =>
      cases answer with
      | linkUpAck sender ledger spent =>
          change Performs CriticalSection.execute mayAnswer (.locked (.applyLinkUpReply
            (.linkUpAck sender ledger spent)) fun _ => .persist (.done AdminReply.ok))
              shared effects left reply at performs
          obtain ⟨later, rfl, finishes⟩ := performs_persist.mp (performs_locked.mp performs)
          obtain ⟨rfl, -, rfl⟩ := performs_done.mp finishes
          exact Or.inl ⟨_, _, _, rfl, rfl, rfl⟩
      | _ =>
          obtain ⟨rfl, rfl, rfl⟩ := performs_done.mp performs
          exact Or.inr ⟨by simp, rfl, rfl, _, rfl⟩

theorem performs_linkUp
    (performs : (linkUp peers peer).Performs CriticalSection.execute mayAnswer shared effects
      left reply) :
    (effects = [] ∧ left = shared ∧ ∃ detail, reply = .error detail) ∨
    ∃ addr answer later, peers.lookup peer = some addr ∧
      effects = .asked addr (hello shared) :: .answered answer :: later ∧
      (later = [] ∨ later = [.persisted]) ∧
      ((∃ detail, reply = .error detail) → left = shared ∧
        ∀ sender ledger spent, answer ≠ .ok (.linkUpAck sender ledger spent)) := by
  cases found : peers.lookup peer with
  | none =>
      rw [linkUp, withPeerAddr_unknown found] at performs
      obtain ⟨rfl, rfl, rfl⟩ := performs_done.mp performs
      exact Or.inl ⟨rfl, rfl, _, rfl⟩
  | some addr =>
      rw [linkUp, withPeerAddr_known found, performs_locked, exchangeWithPeer,
        performs_exchange] at performs
      obtain ⟨answer, later, -, rfl, finishes⟩ := performs
      refine Or.inr ⟨addr, answer, later, rfl, rfl, ?_⟩
      rcases performs_finishLinkUp finishes with
        ⟨sender, ledger, spent, -, rfl, rfl⟩ | ⟨noAck, rfl, rfl, -⟩
      · exact ⟨Or.inr rfl, by simp⟩
      · refine ⟨Or.inl rfl, fun _ => ⟨rfl, fun sender ledger spent isAck => ?_⟩⟩
        exact noAck sender ledger spent (by rw [isAck]; rfl)

end HabiNode

namespace Deployment

open HabiNode

variable {ι : Type} [DecidableEq ι] {D : Deployment ι} {nodeId : ι → String} {i j : ι}
  {order : IterationOrder} {w first last : World ι} {trace : List (World ι × Event ι)}

/-- The step lets the peer handle a Hello whose Ack the initiator does not get. -/
def HandledUnheard : Event ι → Prop
  | .thread _ (.replyLost _) | .delivered _ => True
  | _ => False

omit [DecidableEq ι] in
theorem contacted_linkUp {mayAnswer : String → PeerMessage → Except ExchangeFailure PeerMessage →
      Prop} {shared left : NodeShared} {effects : List (Effect String PeerMessage ExchangeFailure)}
    {reply : AdminReply} {peer : String}
    (performs : (linkUp (D.peers i) peer).Performs CriticalSection.execute mayAnswer shared effects
      left reply) {sent : ι × PeerMessage} (contacted : D.system.Contacted effects sent) :
    (∃ addr, (D.peers i).lookup peer = some addr ∧ D.listener addr = some sent.1) ∧
      sent.2 = hello shared := by
  obtain ⟨addr, listening, member⟩ := contacted
  rcases performs_linkUp performs with ⟨rfl, -⟩ | ⟨addr', answer, later, found, rfl, ends, -⟩
  · simp at member
  · have isHello : addr = addr' ∧ sent.2 = hello shared := by
      rcases ends with rfl | rfl
      · simpa [Effect.addressed] using member
      · simpa [Effect.addressed] using member
    obtain ⟨rfl, said⟩ := isHello
    exact ⟨⟨addr, found, listening⟩, said⟩

omit [DecidableEq ι] in
theorem outward_linkUp (configured : Configured D nodeId) (peer : String) (start : NodeShared) :
    System.Outward D.system AnyAnswer i (D.system.handler i ⟨.linkUp peer, order⟩) start := by
  intro effects left reply performs sent contacted
  obtain ⟨⟨addr, found, listening⟩, -⟩ := contacted_linkUp performs contacted
  exact (configured.of_listener found listening).1

/-- A node that handles Hellos of another node has its side of the link up. -/
theorem linked_of_hellos {sent : List (ι × PeerMessage)} {shared : NodeShared}
    (hellos : ∀ message ∈ sent, message = (j, hello shared)) (memory : ι → NodeShared)
    (some : sent ≠ [] ∨ (memory j).isLinked shared.node.nodeId = true) :
    (D.system.deliverAll memory sent j).isLinked shared.node.nodeId = true := by
  induction sent generalizing memory with
  | nil => simpa [System.deliverAll] using some
  | cons message rest ih =>
      obtain rfl := hellos message List.mem_cons_self
      refine ih (fun other member => hellos other (List.mem_cons_of_mem _ member)) _ (Or.inr ?_)
      simp [System.deliver, hello]

theorem exists_handledBy {w w' : World ι} {event : Event ι} (edge : D.system.Step w event w')
    (unheard : HandledUnheard event) : ∃ sent, sent ∈ w.handledBy event := by
  cases edge.transition with
  | replyLost present =>
      exact ⟨(_, _), World.mem_handledBy.mpr (Or.inr ⟨_, Or.inr ⟨_, rfl⟩, _, _, _, present⟩)⟩
  | delivered present => exact ⟨_, World.mem_handledBy.mpr (Or.inl ⟨_, rfl, present⟩)⟩
  | _ => exact unheard.elim

/-- A LinkUp that fails leaves the two nodes as they were if and only if the peer
has not handled the Hello. -/
theorem failed_linkUp_unchanged_iff (D : Deployment ι) (nodeId : ι → String)
    (configured : Configured D nodeId) (i j : ι) (order : IterationOrder) (w first last : World ι)
    (trace : List (World ι × Event ι)) (named : ∀ x, (w.memory x).node.nodeId = nodeId x)
    (down : (w.memory j).isLinked (nodeId i) = false)
    (alone : System.RunsAlone D.system w i ⟨.linkUp (nodeId j), order⟩ first trace last)
    (detail : String) (failed : replyOf last w.threads.length = some (.error detail)) :
    (last.memory i = w.memory i ∧ last.memory j = w.memory j) ↔
      ∀ entry ∈ trace, ¬ HandledUnheard entry.2 := by
  have outward : System.Outward D.system AnyAnswer i
      (D.system.handler i ⟨.linkUp (nodeId j), order⟩) (w.memory i) :=
    outward_linkUp configured (nodeId j) (w.memory i)
  have performs := alone.performs_any outward failed
  have hellos : ∀ sent ∈ handled trace, sent = (j, hello (w.memory i)) := by
    intro sent member
    obtain ⟨⟨addr, found, listening⟩, said⟩ :=
      contacted_linkUp performs (alone.handled_contacted outward member)
    obtain rfl := configured.distinct (configured.of_listener found listening).2
    rw [← said]
  have unchanged : last.memory i = w.memory i := by
    rcases performs_linkUp performs with ⟨-, same, -⟩ | ⟨_, _, _, -, -, -, fails⟩
    · exact same
    · exact (fails ⟨detail, rfl⟩).1
  constructor
  · rintro ⟨-, same⟩ ⟨state, event⟩ isIn unheard
    obtain ⟨before, after, rfl⟩ := List.append_of_mem isIn
    obtain ⟨next, -, edge, -⟩ := alone.run.split
    obtain ⟨sent, handles⟩ := exists_handledBy edge unheard
    have member : sent ∈ handled (before ++ (state, event) :: after) :=
      List.mem_flatMap.mpr ⟨_, isIn, handles⟩
    have elsewhere : j ≠ i := by
      have contacted := alone.handled_contacted outward member
      have notOwn := outward _ _ _ performs sent contacted
      rwa [hellos sent member] at notOwn
    have linked : (D.system.deliverAll w.memory (handled _) j).isLinked _ = true :=
      linked_of_hellos hellos w.memory (Or.inl (List.ne_nil_of_mem member))
    rw [← alone.memory_eq outward elsewhere, same, named, down] at linked
    cases linked
  · intro unheard
    refine ⟨unchanged, ?_⟩
    by_cases own : j = i
    · rw [own, unchanged]
    have nothing : handled trace = [] := by
      refine List.eq_nil_iff_forall_not_mem.mpr fun sent member => ?_
      obtain ⟨⟨state, event⟩, isIn, handles⟩ := List.mem_flatMap.mp member
      rcases World.mem_handledBy.mp handles with
        ⟨m, rfl, -⟩ | ⟨k, rfl | ⟨failure, rfl⟩, x, command, next, present⟩
      · exact unheard _ isIn trivial
      · -- an Ack that arrives lets the LinkUp succeed
        obtain rfl := hellos sent member
        obtain ⟨past, -, now, sole⟩ := alone.sole_at outward isIn
        obtain rfl := sole.number_eq present rfl
        have isAck : .answered (.ok (.linkUpAck (state.memory j).node.nodeId
            (state.memory j).ledgerSorted (state.memory j).spentSorted)) ∈
              D.system.effects w.threads.length trace := by
          apply now
          rw [System.effectsOf_thread present]
          exact List.mem_append_right _ List.mem_cons_self
        rcases performs_linkUp performs with ⟨silent, -⟩ | ⟨_, answer, later, -, same, ends, fails⟩
        · simp [silent] at isAck
        · rw [same] at isAck
          have answered : answer = .ok (.linkUpAck (state.memory j).node.nodeId
              (state.memory j).ledgerSorted (state.memory j).spentSorted) := by
            rcases ends with rfl | rfl
            · simpa [eq_comm] using isAck
            · simpa [eq_comm] using isAck
          exact (fails ⟨detail, rfl⟩).2 _ _ _ answered
      · exact unheard _ isIn trivial
    rw [alone.memory_eq outward own, nothing]
    rfl

theorem twoBearers_linkingUp : (cluster ["N1", "N2"]).system.Step twoBearers
    (.started 0 ⟨.linkUp (["N1", "N2"].get 1), .sorted⟩) linkingUp := rfl

/-- `N1` does not reach `N2`. -/
theorem failed_linkUp_unchanged_iff_refused :
    ∃ trace last detail, System.RunsAlone (cluster ["N1", "N2"]).system twoBearers 0
        ⟨.linkUp (["N1", "N2"].get 1), .sorted⟩ linkingUp trace last ∧
      replyOf last 0 = some (.error detail) ∧
      last.memory 0 = twoBearers.memory 0 ∧ last.memory 1 = twoBearers.memory 1 := by
  obtain ⟨trace, last, alone, labels, failed⟩ := System.exists_runsAlone (idle_idle _).quiescent
    twoBearers_linkingUp [.thread 0 .locked, .thread 0 (.failed (.connect "refused") false),
      .thread 0 .replied] (by decide)
    (fun last => decide (replyOf last 0 =
      some (.error ("connect to host-N2 failed: refused")))) (by decide)
  have replied := of_decide_eq_true failed
  have within : ∀ event ∈ trace.map Prod.snd, ¬ HandledUnheard event := by
    rw [labels]
    simp [HandledUnheard]
  exact ⟨trace, last, _, alone, replied, (failed_linkUp_unchanged_iff _ _
    (cluster_configured (by decide)) 0 1 _ _ _ _ _ (fun _ => rfl) rfl alone _ replied).mpr
      fun entry member => within entry.2 (List.mem_map_of_mem member)⟩

/-- The Ack of `N2` is lost: `N1` has failed to link up, `N2` has not. -/
theorem half_open_after_failed_linkUp :
    ∃ trace last, System.RunsAlone (cluster ["N1", "N2"]).system twoBearers 0
        ⟨.linkUp (["N1", "N2"].get 1), .sorted⟩ linkingUp trace last ∧
      trace.map Prod.snd = [.thread 0 .locked, .thread 0 .requested,
        .thread 0 (.replyLost (.read "timed out")), .thread 0 .replied] ∧
      last.Quiescent ∧
      replyOf last 0 = some (.error "read from host-N2 failed: timed out") ∧
      (twoBearers.memory 1).isLinked "N1" = false ∧
      (last.memory 1).isLinked "N1" = true ∧ (last.memory 0).isLinked "N2" = false ∧
      (twoBearers.memory 1).node.ledger = {"b2"} ∧
      (last.memory 1).node.ledger = {"b1", "b2"} := by
  obtain ⟨trace, last, alone, labels, outcome⟩ := System.exists_runsAlone (idle_idle _).quiescent
    twoBearers_linkingUp [.thread 0 .locked, .thread 0 .requested,
        .thread 0 (.replyLost (.read "timed out")), .thread 0 .replied] (by decide)
    (fun last => decide (last.Quiescent ∧
      replyOf last 0 = some (.error "read from host-N2 failed: timed out") ∧
      (last.memory 1).isLinked "N1" = true ∧ (last.memory 0).isLinked "N2" = false ∧
      (last.memory 1).node.ledger = {"b1", "b2"})) (by decide)
  obtain ⟨quiescent, replied, there, here, merged⟩ := of_decide_eq_true outcome
  exact ⟨trace, last, alone, labels, quiescent, replied, rfl, there, here, rfl, merged⟩

end Deployment

end HabiCore
