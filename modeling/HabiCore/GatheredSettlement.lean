import HabiCore.Deployment

/-!
# Settlement from gathered snapshots

Conversion Day takes the snapshots of the nodes one after the other and then
acts on all of them.  Two spends of one bearer escape its conflict check in one
way only: when the second is made, the coordinator has already taken a snapshot
that misses one of the two.
-/

namespace HabiCore.Deployment

open LockedProcesses LabelledRuns

variable {ι : Type} {D : Deployment ι} {nodeId : ι → String}

/-- The thread `n` takes a snapshot of the node `x`: it reads the state of its
own node, or its status request is answered. -/
def TakesSnapshot (n : Nat) (entry : World ι × Event ι) (x : ι) : Prop :=
  (entry.2 = .thread n .locked ∧ ∃ command next,
    entry.1.threads[n]? = some ⟨x, command, .running (.locked .read next)⟩) ∨
  (entry.2 = .thread n .served ∧ ∃ i command sender next,
    entry.1.threads[n]? = some ⟨i, command, .waiting x (.statusRequest sender) next⟩)

/-- A node spends a bearer that another node has spent, and the thread `n` has
taken a snapshot of the spending node, or one of the other node from before its
spend. -/
def LateDoubleSpend (n : Nat) (before : List (World ι × Event ι)) (w : World ι)
    (event : Event ι) : Prop :=
  ∃ x y b, x ≠ y ∧ Spends w event x b ∧ b ∈ (w.memory y).node.spent ∧
    ∃ entry ∈ before, TakesSnapshot n entry x ∨
      (TakesSnapshot n entry y ∧ b ∉ (entry.1.memory y).node.spent)

/-- At some step of the trace a double spend is late. -/
def LateDoubleSpendIn (n : Nat) (trace : List (World ι × Event ι)) : Prop :=
  ∃ before w event after, trace = before ++ (w, event) :: after ∧
    LateDoubleSpend n before w event

def Snapshotted (nodeId : ι → String) (trace : List (World ι × Event ι)) (n : Nat)
    (snapshots : List PeerSnapshot) (x : ι) : Prop :=
  ∃ snap ∈ snapshots, snap.nodeId = nodeId x ∧
    ∃ entry ∈ trace, TakesSnapshot n entry x ∧ snap.spent = (entry.1.memory x).node.spent

/-- What the coordinator `c` has gathered when the peers in `rest` remain. -/
structure Gathered (D : Deployment ι) (nodeId : ι → String)
    (trace : List (World ι × Event ι)) (n : Nat) (c : ι)
    (rest : List (Sigma fun _ : String => String)) (snapshots : List PeerSnapshot)
    (unreachable : List String) : Prop where
  own : Snapshotted nodeId trace n snapshots c
  others : unreachable = [] → ∀ j, j ≠ c →
    Snapshotted nodeId trace n snapshots j ∨ ∃ peer ∈ rest, peer.1 = nodeId j
  listed : ∀ peer ∈ rest, ∃ j, peer.1 = nodeId j ∧ D.listener peer.2 = some j

/-- How far the Conversion Day in the thread `n` of the node `c` has come. -/
inductive Gathering (D : Deployment ι) (nodeId : ι → String)
    (trace : List (World ι × Event ι)) (n : Nat) (c : ι) :
    Activity ι CriticalSection NodeShared String PeerMessage ExchangeFailure AdminReply → Prop
  | begun (order : IterationOrder) :
      Gathering D nodeId trace n c (.running (HabiNode.conversionDay (D.peers c) order))
  | asking {order : IterationOrder} {peer : Sigma fun _ : String => String}
      {rest : List (Sigma fun _ : String => String)} {snapshots : List PeerSnapshot}
      {unreachable : List String}
      (gathered : Gathered D nodeId trace n c (peer :: rest) snapshots unreachable) :
      Gathering D nodeId trace n c (.running (HabiNode.gather (D.peers c) order (nodeId c)
        (peer :: rest) snapshots unreachable))
  | asked {order : IterationOrder} {x : ι} {addr sender : String}
      {rest : List (Sigma fun _ : String => String)} {snapshots : List PeerSnapshot}
      {unreachable : List String} {next : Except ExchangeFailure PeerMessage → Handler}
      (gathered : Gathered D nodeId trace n c (⟨nodeId x, addr⟩ :: rest) snapshots unreachable)
      (onFailure : ∀ failure, next (.error failure) = HabiNode.gather (D.peers c) order
        (nodeId c) rest snapshots (unreachable ++ [nodeId x]))
      (onReply : ∀ sender ledger spent, next (.ok (.statusReply sender ledger spent)) =
        HabiNode.gather (D.peers c) order (nodeId c) rest
          (snapshots ++ [⟨nodeId x, ledger.toFinset, spent.toFinset⟩]) unreachable) :
      Gathering D nodeId trace n c (.waiting x (.statusRequest sender) next)
  | settled {activity : Activity ι CriticalSection NodeShared String PeerMessage
      ExchangeFailure AdminReply} {snapshots : List PeerSnapshot}
      (unanimous : Unanimous snapshots)
      (complete : ∀ x, Snapshotted nodeId trace n snapshots x) :
      Gathering D nodeId trace n c activity
  | refused (detail : String) : Gathering D nodeId trace n c (.running (.done (.error detail)))
  | rejected (detail : String) : Gathering D nodeId trace n c (.replied (.error detail))

section Stages

variable {trace more : List (World ι × Event ι)} {n : Nat} {c x : ι}
  {peer : Sigma fun _ : String => String} {rest : List (Sigma fun _ : String => String)}
  {snapshots snapshots' : List PeerSnapshot} {unreachable : List String}

theorem Snapshotted.mono (snapshotted : Snapshotted nodeId trace n snapshots x)
    (later : ∀ entry ∈ trace, entry ∈ more) (kept : ∀ snap ∈ snapshots, snap ∈ snapshots') :
    Snapshotted nodeId more n snapshots' x := by
  obtain ⟨snap, member, named, entry, inTrace, takes⟩ := snapshotted
  exact ⟨snap, kept snap member, named, entry, later entry inTrace, takes⟩

theorem Gathered.mono (gathered : Gathered D nodeId trace n c rest snapshots unreachable)
    (later : ∀ entry ∈ trace, entry ∈ more) :
    Gathered D nodeId more n c rest snapshots unreachable where
  own := gathered.own.mono later fun _ member => member
  others reached j other :=
    (gathered.others reached j other).imp_left fun taken => taken.mono later fun _ member => member
  listed := gathered.listed

theorem Gathering.mono {activity : Activity ι CriticalSection NodeShared String PeerMessage
      ExchangeFailure AdminReply} (gathering : Gathering D nodeId trace n c activity)
    (later : ∀ entry ∈ trace, entry ∈ more) : Gathering D nodeId more n c activity := by
  cases gathering with
  | begun order => exact .begun order
  | asking gathered => exact .asking (gathered.mono later)
  | asked gathered onFailure onReply => exact .asked (gathered.mono later) onFailure onReply
  | settled unanimous complete =>
      exact .settled unanimous fun x => (complete x).mono later fun _ member => member
  | refused detail => exact .refused detail
  | rejected detail => exact .rejected detail

theorem Gathered.gathering (gathered : Gathered D nodeId trace n c rest snapshots unreachable)
    (order : IterationOrder) :
    Gathering D nodeId trace n c
      (.running (HabiNode.gather (D.peers c) order (nodeId c) rest snapshots unreachable)) := by
  cases rest with
  | cons peer rest => exact .asking gathered
  | nil =>
      simp only [HabiNode.gather, HabiNode.settle]
      by_cases reached : unreachable = []
      · rw [if_neg (not_not.mpr reached)]
        cases outcome : computeConversionDay snapshots with
        | error conflict => exact .refused _
        | ok burnSet =>
            refine .settled (computeConversionDay_eq_ok_iff.mp outcome).1 fun x => ?_
            by_cases isOwn : x = c
            · rw [isOwn]
              exact gathered.own
            · exact (gathered.others reached x isOwn).resolve_right (by simp)
      · rw [if_pos reached]
        exact .refused _

theorem Gathered.unreached
    (gathered : Gathered D nodeId trace n c (peer :: rest) snapshots unreachable)
    (later : ∀ entry ∈ trace, entry ∈ more) (id : String) :
    Gathered D nodeId more n c rest snapshots (unreachable ++ [id]) where
  own := gathered.own.mono later fun _ member => member
  others reached := by simp at reached
  listed other member := gathered.listed other (List.mem_cons_of_mem _ member)

theorem Gathered.answered {addr : String} {snap : PeerSnapshot}
    (gathered : Gathered D nodeId trace n c (⟨nodeId x, addr⟩ :: rest) snapshots unreachable)
    (distinct : Function.Injective nodeId) (later : ∀ entry ∈ trace, entry ∈ more)
    (taken : Snapshotted nodeId more n [snap] x) :
    Gathered D nodeId more n c rest (snapshots ++ [snap]) unreachable where
  own := gathered.own.mono later fun _ member => List.mem_append_left _ member
  others reached j other := by
    rcases gathered.others reached j other with earlier | ⟨peer, member, isPeer⟩
    · exact Or.inl (earlier.mono later fun _ member => List.mem_append_left _ member)
    · rcases List.mem_cons.mp member with rfl | remaining
      · obtain rfl := distinct isPeer
        exact Or.inl (taken.mono (fun _ member => member) fun _ member =>
          List.mem_append_right _ member)
      · exact Or.inr ⟨peer, remaining, isPeer⟩
  listed other member := gathered.listed other (List.mem_cons_of_mem _ member)

end Stages

variable [DecidableEq ι] {w w' start last : World ι} {event : Event ι}
  {trace : List (World ι × Event ι)} {n : Nat} {c : ι}

omit [DecidableEq ι] in
theorem gathered_own (configured : Configured D nodeId) {entry : World ι × Event ι}
    (member : entry ∈ trace) (takes : TakesSnapshot n entry c)
    (memory : entry.1.memory c = w.memory c) :
    Gathered D nodeId trace n c (D.peers c).entries
      [⟨nodeId c, (w.memory c).node.ledger, (w.memory c).node.spent⟩] [] where
  own := ⟨_, List.mem_singleton_self _, rfl, entry, member, takes, by rw [memory]⟩
  others _ j other := by
    have listed := configured.listed c j other
    rw [AList.mem_keys, AList.keys, List.keys, List.mem_map] at listed
    exact Or.inr listed
  listed _ member := configured.only_entry member

/-- The moves of the coordinator. -/
theorem Gathering.advance {activity : Activity ι CriticalSection NodeShared String PeerMessage
      ExchangeFailure AdminReply} {command : Command} {move : Move ExchangeFailure}
    (gathering : Gathering D nodeId trace n c activity) (configured : Configured D nodeId)
    (named : (w.memory c).node.nodeId = nodeId c)
    (present : w.threads[n]? = some ⟨c, command, activity⟩)
    (edge : D.system.Step w (.thread n move) w') :
    ∃ activity', w'.threads[n]? = some ⟨c, command, activity'⟩ ∧
      Gathering D nodeId (trace ++ [(w, .thread n move)]) n c activity' := by
  have inBounds : n < w.threads.length := (List.getElem?_eq_some_iff.mp present).1
  have later : ∀ entry ∈ trace, entry ∈ trace ++ [(w, .thread n move)] :=
    fun entry member => List.mem_append_left _ member
  cases gathering with
  | begun order =>
      obtain ⟨rfl, rfl⟩ := edge.of_locked present
      refine ⟨_, List.getElem?_set_self inBounds, ?_⟩
      have takes : TakesSnapshot n (w, .thread n .locked) c :=
        Or.inl ⟨rfl, command, _, present⟩
      rw [named]
      apply Gathered.gathering
      exact gathered_own configured (by simp) takes rfl
  | @asking order peer rest snapshots unreachable gathered =>
      obtain ⟨id, addr⟩ := peer
      obtain ⟨j, rfl, listening⟩ := gathered.listed _ List.mem_cons_self
      rcases edge.of_exchange present with ⟨rfl, x, listening', rfl⟩ |
        ⟨failure, escaped, rfl, -, threads⟩
      · obtain rfl : j = x := Option.some_inj.mp (listening.symm.trans listening')
        exact ⟨_, List.getElem?_set_self inBounds,
          .asked (gathered.mono later) (fun _ => rfl) fun _ _ _ => rfl⟩
      · rw [threads]
        exact ⟨_, List.getElem?_set_self inBounds,
          (gathered.unreached later (nodeId j)).gathering order⟩
  | @asked order x addr sender rest snapshots unreachable next gathered onFailure onReply =>
      rcases edge.of_waiting present with ⟨rfl, rfl⟩ | ⟨failure, -, threads⟩
      · refine ⟨_, List.getElem?_set_self inBounds, ?_⟩
        have takes : TakesSnapshot n (w, .thread n .served) x :=
          Or.inr ⟨rfl, c, command, sender, next, present⟩
        rw [system_respond, handlePeerConnection_statusRequest, System.answered, onReply]
        apply Gathered.gathering
        apply gathered.answered configured.distinct later
        refine ⟨_, List.mem_singleton_self _, rfl, (w, .thread n .served), by simp, takes, ?_⟩
        simp [NodeShared.spentSorted]
      · rw [threads, onFailure]
        exact ⟨_, List.getElem?_set_self inBounds,
          (gathered.unreached later (nodeId x)).gathering order⟩
  | settled unanimous complete =>
      obtain ⟨activity', present'⟩ := edge.thread_moves present
      exact ⟨activity', present', .settled unanimous fun x =>
        (complete x).mono later fun _ member => member⟩
  | refused detail =>
      obtain ⟨rfl, rfl⟩ := edge.of_done present
      exact ⟨_, List.getElem?_set_self inBounds, .rejected detail⟩
  | rejected detail => exact (edge.of_replied present).elim

/-- In every run, all threads of Conversion Days gather. -/
theorem gathering_of_run (configured : Configured D nodeId) (idle : start.Idle)
    (named : ∀ i, (start.memory i).node.nodeId = nodeId i)
    (run : Run D.system.Step start trace last) :
    (∀ i, (last.memory i).node.nodeId = nodeId i) ∧
    ∀ n c command activity, last.threads[n]? = some ⟨c, command, activity⟩ →
      command.message = .conversionDay → Gathering D nodeId trace n c activity := by
  induction run with
  | refl => exact ⟨named, by simp [idle.1]⟩
  | @tail trace middle last event run edge ih =>
      obtain ⟨namedMiddle, gathering⟩ := ih
      refine ⟨fun i => (nodeId_step edge i).trans (namedMiddle i), ?_⟩
      intro n c command activity present isConversionDay
      rcases edge.thread_origin present with ⟨⟨i, command', before⟩, presentBefore, rfl, rfl⟩ |
        ⟨-, i, command', rfl, isNew⟩
      · have gatheringBefore := gathering n c command before presentBefore isConversionDay
        by_cases isOwn : ∃ move, event = .thread n move
        · obtain ⟨move, rfl⟩ := isOwn
          obtain ⟨activity', present', stage⟩ :=
            gatheringBefore.advance configured (namedMiddle c) presentBefore edge
          obtain ⟨-, -, rfl⟩ : c = c ∧ command = command ∧ activity' = activity := by
            simpa using present'.symm.trans present
          exact stage
        · have others : ∀ move, event ≠ .thread n move := fun move same => isOwn ⟨move, same⟩
          have frame := edge.thread_frame others presentBefore
          obtain ⟨-, -, rfl⟩ : c = c ∧ command = command ∧ before = activity := by
            simpa using frame.symm.trans present
          exact gatheringBefore.mono fun entry member => List.mem_append_left _ member
      · obtain ⟨rfl, rfl, rfl⟩ : c = i ∧ command = command' ∧
            activity = .running (D.system.handler i command') := by simpa using isNew
        rw [system_handler, isConversionDay]
        exact .begun command.order

omit [DecidableEq ι] in
theorem not_takesSnapshot_of_spends {x y : ι} {b : String} (spends : Spends w event x b) :
    ¬ TakesSnapshot n (w, event) y := by
  obtain ⟨k, command, next, rfl, present, -⟩ := spends
  rintro (⟨same, command', next', present'⟩ | ⟨same, -⟩)
  · obtain rfl : k = n := by simpa using same
    simp [present] at present'
  · simp at same

omit [DecidableEq ι] in
theorem LateDoubleSpendIn.append (late : LateDoubleSpendIn n trace)
    (more : List (World ι × Event ι)) : LateDoubleSpendIn n (trace ++ more) := by
  obtain ⟨before, w, event, after, rfl, isLate⟩ := late
  exact ⟨before, w, event, after ++ more, by simp, isLate⟩

/-- As long as no double spend has been late, the snapshots taken contain all
double spends. -/
theorem snapshots_contain_of_run (run : Run D.system.Step start trace last)
    {x y : ι} {b : String} (distinct : x ≠ y) (first : b ∈ (last.memory x).node.spent)
    (second : b ∈ (last.memory y).node.spent) (timely : ¬ LateDoubleSpendIn n trace) :
    ∀ entry ∈ trace, (TakesSnapshot n entry x → b ∈ (entry.1.memory x).node.spent) ∧
      (TakesSnapshot n entry y → b ∈ (entry.1.memory y).node.spent) := by
  induction run with
  | refl => simp
  | @tail trace middle last event run edge ih =>
      have timelyBefore : ¬ LateDoubleSpendIn n trace := fun late => timely (late.append _)
      have firstCases := (mem_spent_step edge).mp first
      have secondCases := (mem_spent_step edge).mp second
      -- The second of the two spends is made in this step.
      have completed : ∀ {x y}, x ≠ y → Spends middle event x b →
          b ∈ (middle.memory y).node.spent → ∀ entry ∈ trace, ¬ TakesSnapshot n entry x ∧
            (TakesSnapshot n entry y → b ∈ (entry.1.memory y).node.spent) := by
        intro x y other spends before entry member
        have late := fun misses => timely
          ⟨trace, middle, event, [], rfl, x, y, b, other, spends, before, entry, member, misses⟩
        exact ⟨fun takes => late (Or.inl takes),
          fun takes => by_contra fun missing => late (Or.inr ⟨takes, missing⟩)⟩
      intro entry member
      rcases List.mem_append.mp member with inTrace | isLast
      · rcases firstCases with firstBefore | firstSpends
        · rcases secondCases with secondBefore | secondSpends
          · exact ih firstBefore secondBefore timelyBefore entry inTrace
          · obtain ⟨untaken, contains⟩ :=
              completed distinct.symm secondSpends firstBefore entry inTrace
            exact ⟨contains, fun takes => (untaken takes).elim⟩
        · rcases secondCases with secondBefore | secondSpends
          · obtain ⟨untaken, contains⟩ :=
              completed distinct firstSpends secondBefore entry inTrace
            exact ⟨fun takes => (untaken takes).elim, contains⟩
          · exact (distinct (firstSpends.unique secondSpends)).elim
      · obtain rfl := List.mem_singleton.mp isLast
        exact ⟨fun takes => firstCases.resolve_right fun spends =>
            not_takesSnapshot_of_spends spends takes,
          fun takes => secondCases.resolve_right fun spends =>
            not_takesSnapshot_of_spends spends takes⟩

theorem double_spend_of_late (run : Run D.system.Step start trace last)
    (late : LateDoubleSpendIn n trace) :
    ∃ x y b, x ≠ y ∧ b ∈ (last.memory x).node.spent ∧ b ∈ (last.memory y).node.spent := by
  obtain ⟨before, w, event, after, rfl, x, y, b, distinct, spends, isSpent, -⟩ := late
  obtain ⟨next, -, edge, rest⟩ := run.split
  have persists : ∀ z, b ∈ (next.memory z).node.spent → b ∈ (last.memory z).node.spent := by
    intro z recorded
    apply rest.invariant (fun w => b ∈ (w.memory z).node.spent) recorded
    intro state label later _ earlier edge
    exact (mem_spent_step edge).mpr (Or.inl earlier)
  exact ⟨x, y, b, distinct, persists x ((mem_spent_step edge).mpr (Or.inr spends)),
    persists y ((mem_spent_step edge).mpr (Or.inl isSpent))⟩

/-- The thread `n` is a Conversion Day that has replied with success. -/
def Settled (w : World ι) (n : Nat) : Prop :=
  ∃ thread ∈ w.threads[n]?, thread.command.message = .conversionDay ∧
    thread.activity.reply = some .ok

instance (w : World ι) (n : Nat) : Decidable (Settled w n) :=
  inferInstanceAs (Decidable (∃ thread ∈ w.threads[n]?, _))

/-- When a Conversion Day has replied with success, in any run, no bearer has
been spent by two nodes if and only if no double spend has been late. -/
theorem gathered_settlement_is_safe_iff (configured : Configured D nodeId) (idle : start.Idle)
    (named : ∀ i, (start.memory i).node.nodeId = nodeId i)
    (run : Run D.system.Step start trace last) (settled : Settled last n) :
    (∀ x y, x ≠ y → ∀ b ∈ (last.memory x).node.spent, b ∉ (last.memory y).node.spent) ↔
      ¬ LateDoubleSpendIn n trace := by
  constructor
  · intro safe late
    obtain ⟨x, y, b, distinct, first, second⟩ := double_spend_of_late run late
    exact safe x y distinct b first second
  · intro timely x y distinct b first second
    have contains := snapshots_contain_of_run run distinct first second timely
    obtain ⟨⟨c, command, activity⟩, present, isConversionDay, isOk⟩ := settled
    obtain ⟨-, gathering⟩ := gathering_of_run configured idle named run
    cases gathering n c command activity present isConversionDay with
    | settled unanimous complete =>
        obtain ⟨snapX, memberX, namedX, entryX, inTraceX, takesX, spentX⟩ := complete x
        obtain ⟨snapY, memberY, namedY, entryY, inTraceY, takesY, spentY⟩ := complete y
        have sameId := unanimous snapX memberX snapY memberY b
          (by rw [spentX]; exact (contains entryX inTraceX).1 takesX)
          (by rw [spentY]; exact (contains entryY inTraceY).2 takesY)
        rw [namedX, namedY] at sameId
        exact distinct (configured.distinct sameId)
    | _ => simp [Activity.reply] at isOk

omit [DecidableEq ι] in
theorem timely_of_first_spends (first : ∀ entry ∈ trace,
    spendAttempt entry.1 entry.2 = none ∨ ∀ y, (entry.1.memory y).node.spent = ∅) :
    ¬ LateDoubleSpendIn n trace := by
  rintro ⟨before, w, event, after, rfl, x, y, b, -, spends, isSpent, -⟩
  rcases first (w, event) (by simp) with noSpend | unspent
  · simp [(spends_iff.mp spends).1] at noSpend
  · rw [unspent y] at isSpent
    exact (Finset.notMem_empty b isSpent).elim

def spendsOrSettles (command : Command) : Bool :=
  match command.message with
  | .spendAt _ | .conversionDay => true
  | _ => false

/-- Nothing is lost, and no commands but spends and Conversion Days are started. -/
def DuringSettlement (event : Event ι) : Prop :=
  event.Lossless ∧ event.Starts (spendsOrSettles ·)

instance (event : Event ι) : Decidable (DuringSettlement event) :=
  inferInstanceAs (Decidable (_ ∧ _))

def twoOfThree : World (Fin ["N1", "N2", "N3"].length) :=
  idle (unlinkedNode ["N1", "N2", "N3"] fun name =>
    if name = "N1" then ∅ else {"b1"})

/-- `N2` spends the bearer, and the Conversion Day of `N1` burns it. -/
theorem gathered_settlement_is_safe_iff_twoOfThree :
    ∃ trace last, Run (cluster ["N1", "N2", "N3"]).system.Step twoOfThree trace last ∧
      "b1" ∈ (last.memory 1).node.spent ∧
      ∀ x y, x ≠ y → ∀ b ∈ (last.memory x).node.spent, b ∉ (last.memory y).node.spent := by
  obtain ⟨trace, last, run, labels, outcome⟩ := System.exists_run
    (cluster ["N1", "N2", "N3"]).system twoOfThree
    [.started 1 (AdminMessage.spendAt "b1").command, .thread 0 .locked, .thread 0 .persisted,
      .thread 0 .replied, .started 0 AdminMessage.conversionDay.command, .thread 1 .locked,
      .thread 1 .requested, .thread 1 .served, .thread 1 .requested, .thread 1 .served,
      .thread 1 .locked, .thread 1 .persisted, .thread 1 .sent, .thread 1 .sent,
      .thread 1 .replied]
    (fun followed => decide (Settled followed.2 1 ∧
      "b1" ∈ (followed.2.memory 1).node.spent ∧
      ∀ entry ∈ followed.1, spendAttempt entry.1 entry.2 = none ∨
        ∀ y, (entry.1.memory y).node.spent = ∅))
    (by decide)
  obtain ⟨settled, isSpent, first⟩ := of_decide_eq_true outcome
  have safe := (gathered_settlement_is_safe_iff (cluster_configured (by decide)) (idle_idle _)
    (fun _ => rfl) run settled).mpr (timely_of_first_spends first)
  exact ⟨trace, last, run, isSpent, safe⟩

/-- `N1` has taken all snapshots when `N2` and `N3` spend the same bearer. -/
theorem spends_after_snapshots_escape :
    ¬ ∀ n last, Reaches (cluster ["N1", "N2", "N3"]).system.Step
        (fun _ event => DuringSettlement event) twoOfThree last → Settled last n →
        ∀ x y, x ≠ y → ∀ b ∈ (last.memory x).node.spent, b ∉ (last.memory y).node.spent := by
  intro safe
  obtain ⟨trace, last, run, labels, outcome⟩ := System.exists_run
    (cluster ["N1", "N2", "N3"]).system twoOfThree
    [.started 0 AdminMessage.conversionDay.command, .thread 0 .locked, .thread 0 .requested,
      .thread 0 .served, .thread 0 .requested, .thread 0 .served,
      .started 1 (AdminMessage.spendAt "b1").command,
      .started 2 (AdminMessage.spendAt "b1").command, .thread 1 .locked, .thread 2 .locked,
      .thread 0 .locked, .thread 0 .persisted, .thread 0 .replied]
    (fun followed => decide (Settled followed.2 0 ∧
      "b1" ∈ (followed.2.memory 1).node.spent ∧ "b1" ∈ (followed.2.memory 2).node.spent ∧
      ∀ entry ∈ followed.1, DuringSettlement entry.2))
    (by decide)
  obtain ⟨settled, first, second, within⟩ := of_decide_eq_true outcome
  exact safe 0 last ⟨trace, run, within⟩ settled 1 2 (by decide) "b1" first second

end HabiCore.Deployment
