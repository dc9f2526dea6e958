import HabiCore.Deployment
import HabiCore.RestartableProcess

/-!
# Acknowledged spends survive restarts

One node with a state file, among arbitrary peers.  A spend is written to the
file before it is announced, and the file never loses a bearer from the spent
set, so that no restart can undo a spend that somebody has heard of.
-/

namespace HabiCore

open LabelledRuns LockedProcesses

namespace DurableSpends

/-- A node with its state file. -/
abbrev State :=
  RestartableProcess.State Command CriticalSection NodeShared String PeerMessage
    ExchangeFailure AdminReply Node

abbrev Event := RestartableProcess.Event Command PeerMessage ExchangeFailure

def process (peers : PeerAddrs) (nodeId : String) :
    RestartableProcess.Process Command CriticalSection NodeShared String PeerMessage
      ExchangeFailure AdminReply Node where
  handler command := HabiNode.handleAdminCommand peers command.order command.message
  execute := CriticalSection.execute
  respond shared msg := (handlePeerConnection shared msg).2
  image shared := shared.node
  restore := HabiNode.restoreState nodeId

def savedSpent (s : State) : Finset String :=
  (s.saved.map Node.spent).getD ∅

def entered : State × Event → Option CriticalSection
  | (s, .locked k) =>
      match s.jobs[k]? with
      | some ⟨_, some (.locked body _)⟩ => some body
      | _ => none
  | _ => none

/-- No seed of the bearer takes effect after an attempt to spend it. -/
def SeededFirst (b : String) (trace : List (State × Event)) : Prop :=
  trace.Pairwise fun earlier later =>
    entered earlier = some (.localSpend b) → entered later ≠ some (.seed b)

instance (b : String) (trace : List (State × Event)) : Decidable (SeededFirst b trace) :=
  inferInstanceAs (Decidable (List.Pairwise _ _))

/-- The spend of the bearer by the job `k` replies Ok. -/
def RepliesOk (b : String) (k : Nat) (entry : State × Event) : Prop :=
  ∃ command, command.message = .spendAt b ∧ entry.2 = .replied k ∧
    entry.1.Runs k command (.done .ok)

/-- A notification of the bearer leaves the job `k` that spends it. -/
def Announces (b : String) (k : Nat) (entry : State × Event) : Prop :=
  ∃ command result addr sender next, command.message = .spendAt b ∧
    entry.2 = .sent k result ∧
    entry.1.Runs k command (.send addr (.spentNotify sender b) next)

def Separate (b : String) (node : Node) : Prop :=
  b ∈ node.spent → b ∉ node.ledger

variable {b : String} {found : NodeShared}

theorem separate_execute {body : CriticalSection} (noSeed : body ≠ .seed b)
    (separate : Separate b found.node) : Separate b (body.execute found).node := by
  intro isSpent isHeld
  rcases mem_execute_spent.mp isSpent with old | ⟨rfl, held⟩
  · rcases mem_ledger_of_execute isHeld with own | isBrought
    · exact separate old own
    · exact not_spent_of_brings noSeed isBrought old
  · obtain ⟨-, outcome⟩ := (found.localSpend_cases b).resolve_right fun refused => refused.1 held
    simp [CriticalSection.execute, outcome] at isHeld

theorem separate_respond (msg : PeerMessage) (separate : Separate b found.node) :
    Separate b (handlePeerConnection found msg).2.node := by
  intro isSpent isHeld
  rw [respond_spent] at isSpent
  rcases mem_ledger_of_respond isHeld with own | isBrought
  · exact separate isSpent own
  · exact not_spent_of_message_brings isBrought isSpent

/-- A spend that has not succeeded: it has just begun or is refused. -/
def Pending (peers : PeerAddrs) (b : String) : Handler → Prop
  | .locked body next => body = .localSpend b ∧ next = HabiNode.finishSpend peers b
  | .done reply => reply ≠ .ok
  | _ => False

def Broadcasts : Handler → Prop
  | .done reply => reply = .ok
  | .send _ _ next => ∀ result, Broadcasts (next result)
  | _ => False

/-- A spend that has succeeded: it is written to the file, and then announced. -/
def Succeeded (b : String) (s : State) (program : Handler) : Prop :=
  (b ∈ s.memory.node.spent ∧ ∃ next, program = .persist next ∧ Broadcasts next) ∨
    (b ∈ savedSpent s ∧ Broadcasts program)

theorem broadcasts_broadcast (notices : List (String × PeerMessage)) :
    Broadcasts (HabiNode.broadcast notices) := by
  induction notices with
  | nil => rfl
  | cons notice rest ih => exact fun _ => ih

/-- At most one spend of the bearer has succeeded since the last restart, and
what the file has recorded as spent is spent. -/
structure Bookkept (peers : PeerAddrs) (b : String) (winner : Option Nat) (s : State) :
    Prop where
  separate : Separate b s.memory.node
  savedSeparate : ∀ node, s.saved = some node → Separate b node
  recorded : b ∈ savedSpent s → b ∈ s.memory.node.spent
  stages : ∀ k command program, s.Runs k command program → command.message = .spendAt b →
    Pending peers b program ∨ (winner = some k ∧ Succeeded b s program)

variable {peers : PeerAddrs} {nodeId : String} {winner : Option Nat} {s s' : State}
  {event : Event}

theorem entered_of_runs {k : Nat} {command : Command} {body : CriticalSection}
    {next : NodeShared → Handler} (runs : s.Runs k command (.locked body next)) :
    entered (s, .locked k) = some body := by
  have present : s.jobs[k]? = some ⟨command, some (.locked body next)⟩ := runs
  simp [entered, present]

theorem bookkept_first : Bookkept peers b none (process peers nodeId).first where
  separate := by simp [Separate, RestartableProcess.Process.first, process,
    HabiNode.restoreState, NodeShared.new, Node.new]
  savedSeparate := by simp [RestartableProcess.Process.first]
  recorded := by simp [savedSpent, RestartableProcess.Process.first]
  stages := by simp [RestartableProcess.State.Runs, RestartableProcess.Process.first]

theorem Succeeded.mono {program : Handler} (succeeded : Succeeded b s program)
    (spent : b ∈ s.memory.node.spent → b ∈ s'.memory.node.spent)
    (saved : b ∈ savedSpent s → b ∈ savedSpent s') : Succeeded b s' program :=
  succeeded.imp (And.imp_left spent) (And.imp_left saved)

theorem Bookkept.spent_of_succeeded {program : Handler} (kept : Bookkept peers b winner s)
    (succeeded : Succeeded b s program) : b ∈ s.memory.node.spent := by
  rcases succeeded with ⟨isSpent, -⟩ | ⟨isSaved, -⟩
  · exact isSpent
  · exact kept.recorded isSaved

section Stages

variable {k : Nat} {command : Command} (kept : Bookkept peers b winner s)
  (isSpend : command.message = .spendAt b)
include kept isSpend

theorem Bookkept.of_locked {body : CriticalSection} {next : NodeShared → Handler}
    (runs : s.Runs k command (.locked body next)) :
    body = .localSpend b ∧ next = HabiNode.finishSpend peers b := by
  rcases kept.stages k command _ runs isSpend with pending |
    ⟨-, ⟨-, later, same, -⟩ | ⟨-, broadcasts⟩⟩
  · exact pending
  · cases same
  · exact broadcasts.elim

theorem Bookkept.of_persist {next : Handler} (runs : s.Runs k command (.persist next)) :
    winner = some k ∧ b ∈ s.memory.node.spent ∧ Broadcasts next := by
  rcases kept.stages k command _ runs isSpend with pending |
    ⟨wins, ⟨isSpent, later, same, broadcasts⟩ | ⟨-, broadcasts⟩⟩
  · exact pending.elim
  · cases same
    exact ⟨wins, isSpent, broadcasts⟩
  · exact broadcasts.elim

theorem Bookkept.of_exchange {addr : String} {msg : PeerMessage}
    {next : Except ExchangeFailure PeerMessage → Handler} :
    ¬ s.Runs k command (.exchange addr msg next) := by
  intro runs
  rcases kept.stages k command _ runs isSpend with pending |
    ⟨-, ⟨-, later, same, -⟩ | ⟨-, broadcasts⟩⟩
  · exact pending
  · cases same
  · exact broadcasts

theorem Bookkept.of_send {addr : String} {msg : PeerMessage}
    {next : Except ExchangeFailure Unit → Handler}
    (runs : s.Runs k command (.send addr msg next)) :
    winner = some k ∧ b ∈ savedSpent s ∧ ∀ result, Broadcasts (next result) := by
  rcases kept.stages k command _ runs isSpend with pending |
    ⟨wins, ⟨-, later, same, -⟩ | ⟨isSaved, broadcasts⟩⟩
  · exact pending.elim
  · cases same
  · exact ⟨wins, isSaved, broadcasts⟩

theorem Bookkept.of_ok (runs : s.Runs k command (.done .ok)) :
    winner = some k ∧ b ∈ savedSpent s := by
  rcases kept.stages k command _ runs isSpend with pending |
    ⟨wins, ⟨-, later, same, -⟩ | ⟨isSaved, -⟩⟩
  · exact (pending rfl).elim
  · cases same
  · exact ⟨wins, isSaved⟩

end Stages

theorem Bookkept.stages_step {winner' : Option Nat} (kept : Bookkept peers b winner s)
    (edge : (process peers nodeId).Step s event s')
    (others : ∀ k program, winner = some k → Succeeded b s program →
      winner' = some k ∧ Succeeded b s' program)
    (own : ∀ k command program, RestartableProcess.Process.actor event = some k →
      s'.Runs k command program → command.message = .spendAt b →
        Pending peers b program ∨ (winner' = some k ∧ Succeeded b s' program)) :
    ∀ k command program, s'.Runs k command program → command.message = .spendAt b →
      Pending peers b program ∨ (winner' = some k ∧ Succeeded b s' program) := by
  intro k command program runs isSpend
  rcases edge.runs_cases runs with before | moves | ⟨-, rfl⟩
  · have stage := kept.stages k command program before isSpend
    exact stage.imp_right fun ⟨wins, succeeded⟩ => others k program wins succeeded
  · exact own k command program moves runs isSpend
  · apply Or.inl
    simp only [process, isSpend, HabiNode.handleAdminCommand]
    exact ⟨rfl, rfl⟩

theorem Bookkept.stages_resume {winner' : Option Nat} {k : Nat} {command : Command}
    {remaining : Option Handler} (kept : Bookkept peers b winner s)
    (edge : (process peers nodeId).Step s event s')
    (moves : RestartableProcess.Process.actor event = some k)
    (jobs : s'.jobs = s.jobs.set k ⟨command, remaining⟩)
    (others : ∀ k program, winner = some k → Succeeded b s program →
      winner' = some k ∧ Succeeded b s' program)
    (own : ∀ program, remaining = some program → command.message = .spendAt b →
      Pending peers b program ∨ (winner' = some k ∧ Succeeded b s' program)) :
    ∀ k command program, s'.Runs k command program → command.message = .spendAt b →
      Pending peers b program ∨ (winner' = some k ∧ Succeeded b s' program) := by
  apply kept.stages_step edge others
  intro j command' program moves' runs isSpend
  obtain rfl : k = j := Option.some_inj.mp (moves.symm.trans moves')
  unfold RestartableProcess.State.Runs at runs
  rw [jobs] at runs
  obtain ⟨rfl, same⟩ := RestartableProcess.Process.resumed runs
  exact own program same isSpend

theorem mem_restore_spent : b ∈ (HabiNode.restoreState nodeId s.saved).node.spent ↔
    b ∈ savedSpent s := by
  cases isSaved : s.saved <;>
    simp [savedSpent, isSaved, HabiNode.restoreState, NodeShared.new, Node.new]

theorem separate_restore (savedSeparate : ∀ node, s.saved = some node → Separate b node) :
    Separate b (HabiNode.restoreState nodeId s.saved).node := by
  cases isSaved : s.saved with
  | none => simp [Separate, HabiNode.restoreState, NodeShared.new, Node.new]
  | some node => exact savedSeparate node isSaved

/-- A step makes a bearer spent by a section that spends it, or by a restart
from a file that records it. -/
theorem spent_step (kept : Bookkept peers b winner s)
    (edge : (process peers nodeId).Step s event s') (isSpent : b ∈ s'.memory.node.spent) :
    b ∈ s.memory.node.spent ∨ entered (s, event) = some (.localSpend b) := by
  cases edge.transition with
  | started | persisted | answered | sent | replied => exact Or.inl isSpent
  | @locked k command body next runs =>
      rcases mem_execute_spent.mp isSpent with before | ⟨rfl, -⟩
      · exact Or.inl before
      · exact Or.inr (entered_of_runs runs)
  | handled message =>
      have same : (handlePeerConnection s.memory message).2.node.spent = s.memory.node.spent :=
        respond_spent s.memory message
      exact Or.inl (same ▸ isSpent)
  | restarted => exact Or.inl (kept.recorded (mem_restore_spent.mp isSpent))

theorem separate_enter {body : CriticalSection}
    (noSeed : b ∈ found.node.spent → body ≠ .seed b) (separate : Separate b found.node) :
    Separate b (body.execute found).node := by
  by_cases isSeed : body = .seed b
  · subst isSeed
    intro isSpent
    have old := (mem_execute_spent.mp isSpent).resolve_right (by simp)
    exact (noSeed old rfl).elim
  · exact separate_execute isSeed separate

/-- A section of a spend of the bearer makes its job the winner if it succeeds;
every other section leaves the stages alone. -/
theorem Bookkept.step_locked {k : Nat} {command : Command} {body : CriticalSection}
    {next : NodeShared → Handler} (kept : Bookkept peers b winner s)
    (runs : s.Runs k command (.locked body next))
    (noSeed : b ∈ s.memory.node.spent → body ≠ .seed b)
    (edge : (process peers nodeId).Step s (.locked k)
      { s.resume k command (next s.memory) with memory := body.execute s.memory }) :
    ∃ winner', Bookkept peers b winner'
        { s.resume k command (next s.memory) with memory := body.execute s.memory } ∧
      (b ∈ s.memory.node.spent → winner' = winner) := by
  have separate := separate_enter noSeed kept.separate
  have grows : b ∈ s.memory.node.spent → b ∈ (body.execute s.memory).node.spent :=
    fun isSpent => mem_execute_spent.mpr (Or.inl isSpent)
  by_cases wins : command.message = .spendAt b ∧ b ∈ s.memory.node.ledger
  · -- No earlier spend of the bearer can have succeeded, since it is still held.
    obtain ⟨isSpend, isHeld⟩ := wins
    obtain ⟨rfl, rfl⟩ := kept.of_locked isSpend runs
    have unspent : b ∉ s.memory.node.spent := fun isSpent => kept.separate isSpent isHeld
    have isSpent : b ∈ (CriticalSection.execute (.localSpend b) s.memory).node.spent :=
      mem_execute_spent.mpr (Or.inr ⟨rfl, isHeld⟩)
    have outcome := (s.memory.localSpend_cases b).resolve_right fun refused => refused.1 isHeld
    refine ⟨some k, ⟨separate, kept.savedSeparate, fun saved => grows (kept.recorded saved),
      kept.stages_resume edge rfl rfl ?_ ?_⟩, fun old => (unspent old).elim⟩
    · intro j program _ succeeded
      exact (unspent (kept.spent_of_succeeded succeeded)).elim
    · intro program same _
      obtain rfl := Option.some_inj.mp same
      refine Or.inr ⟨rfl, Or.inl ⟨isSpent, ?_⟩⟩
      simp only [HabiNode.finishSpend, outcome.2]
      exact ⟨_, rfl, broadcasts_broadcast _⟩
  · refine ⟨winner, ⟨separate, kept.savedSeparate, fun saved => grows (kept.recorded saved),
      kept.stages_resume edge rfl rfl ?_ ?_⟩, fun _ => rfl⟩
    · intro j program wins succeeded
      exact ⟨wins, succeeded.mono grows id⟩
    · intro program same isSpend
      obtain rfl := Option.some_inj.mp same
      obtain ⟨rfl, rfl⟩ := kept.of_locked isSpend runs
      have missing : b ∉ s.memory.node.ledger := fun isHeld => wins ⟨isSpend, isHeld⟩
      have outcome := (s.memory.localSpend_cases b).resolve_left fun held => missing held.1
      apply Or.inl
      simp [HabiNode.finishSpend, outcome.2, Pending]

theorem Bookkept.step_of_same (kept : Bookkept peers b winner s)
    (sameMemory : s'.memory = s.memory) (sameFile : s'.saved = s.saved)
    (stages : (∀ k program, winner = some k → Succeeded b s program →
        winner = some k ∧ Succeeded b s' program) →
      ∀ k command program, s'.Runs k command program → command.message = .spendAt b →
        Pending peers b program ∨ (winner = some k ∧ Succeeded b s' program)) :
    ∃ winner', Bookkept peers b winner' s' ∧
      (b ∈ s.memory.node.spent → winner' = winner) := by
  have sameSpent : savedSpent s' = savedSpent s := by rw [savedSpent, savedSpent, sameFile]
  refine ⟨winner, ⟨?_, ?_, ?_, stages fun k program wins succeeded => ⟨wins, ?_⟩⟩, fun _ => rfl⟩
  · rw [sameMemory]
    exact kept.separate
  · rw [sameFile]
    exact kept.savedSeparate
  · rw [sameMemory, sameSpent]
    exact kept.recorded
  · exact succeeded.mono (fun isSpent => sameMemory ▸ isSpent) fun isSaved => sameSpent ▸ isSaved

theorem Bookkept.step (kept : Bookkept peers b winner s)
    (noSeed : b ∈ s.memory.node.spent → entered (s, event) ≠ some (.seed b))
    (edge : (process peers nodeId).Step s event s') :
    ∃ winner', Bookkept peers b winner' s' ∧ (b ∈ s.memory.node.spent → winner' = winner) := by
  have moved := edge
  cases edge.transition with
  | started command =>
      apply kept.step_of_same (by rfl) (by rfl)
      intro others
      apply kept.stages_step moved others
      intro k command' program moves
      cases moves
  | @locked k command body next runs =>
      apply kept.step_locked runs _ moved
      rintro isSpent rfl
      exact noSeed isSpent (entered_of_runs runs)
  | @persisted k command next runs =>
      refine ⟨winner, ⟨kept.separate, ?_, id, kept.stages_resume moved rfl rfl ?_ ?_⟩,
        fun _ => rfl⟩
      · intro node isSaved
        obtain rfl := Option.some_inj.mp isSaved
        exact kept.separate
      · intro j program wins succeeded
        exact ⟨wins, succeeded.mono id kept.recorded⟩
      · intro program same isSpend
        obtain rfl := Option.some_inj.mp same
        obtain ⟨wins, isSpent, broadcasts⟩ := kept.of_persist isSpend runs
        exact Or.inr ⟨wins, Or.inr ⟨isSpent, broadcasts⟩⟩
  | @answered k command address message next answer runs =>
      apply kept.step_of_same (by rfl) (by rfl)
      intro others
      apply kept.stages_resume moved rfl rfl others
      intro program _ isSpend
      exact (kept.of_exchange isSpend runs).elim
  | @sent k command address message next result runs =>
      apply kept.step_of_same (by rfl) (by rfl)
      intro others
      apply kept.stages_resume moved rfl rfl others
      intro program same isSpend
      obtain rfl := Option.some_inj.mp same
      obtain ⟨wins, isSaved, broadcasts⟩ := kept.of_send isSpend runs
      exact Or.inr ⟨wins, Or.inr ⟨isSaved, broadcasts result⟩⟩
  | @replied k command reply runs =>
      apply kept.step_of_same (by rfl) (by rfl)
      intro others
      apply kept.stages_resume moved rfl rfl others
      intro program same
      cases same
  | handled message =>
      have same := respond_spent s.memory message
      refine ⟨winner, ⟨separate_respond message kept.separate, kept.savedSeparate, ?_,
        kept.stages_step moved ?_ ?_⟩, fun _ => rfl⟩
      · intro isSaved
        simp only [process, same]
        exact kept.recorded isSaved
      · intro j program wins succeeded
        refine ⟨wins, succeeded.mono (fun isSpent => ?_) id⟩
        simp only [process, same]
        exact isSpent
      · intro k command' program moves
        cases moves
  | restarted =>
      refine ⟨winner, ⟨separate_restore kept.savedSeparate, kept.savedSeparate, ?_, ?_⟩,
        fun _ => rfl⟩
      · exact fun isSaved => mem_restore_spent.mpr isSaved
      · intro k command program runs
        exact (RestartableProcess.Process.not_runs_ended runs).elim

theorem Bookkept.saved_step (kept : Bookkept peers b winner s) (isSaved : b ∈ savedSpent s)
    (edge : (process peers nodeId).Step s event s') : b ∈ savedSpent s' := by
  cases edge.transition with
  | persisted => exact kept.recorded isSaved
  | _ => exact isSaved

/-- Whatever is spent has been spent by a section of the run. -/
theorem run_bookkept {trace : List (State × Event)}
    (run : Run (process peers nodeId).Step (process peers nodeId).first trace s)
    (seededFirst : SeededFirst b trace) :
    (∃ winner, Bookkept peers b winner s) ∧
      (b ∈ s.memory.node.spent → ∃ entry ∈ trace, entered entry = some (.localSpend b)) := by
  induction run with
  | refl =>
      refine ⟨⟨none, bookkept_first⟩, fun isSpent => ?_⟩
      simp [RestartableProcess.Process.first, process, HabiNode.restoreState, NodeShared.new,
        Node.new] at isSpent
  | @tail trace middle last event run edge ih =>
      have split := List.pairwise_append.mp seededFirst
      obtain ⟨⟨winner, kept⟩, attempted⟩ := ih split.1
      have noSeed : b ∈ middle.memory.node.spent → entered (middle, event) ≠ some (.seed b) := by
        intro isSpent
        obtain ⟨entry, member, enters⟩ := attempted isSpent
        exact split.2.2 entry member _ (List.mem_singleton_self _) enters
      obtain ⟨winner', kept', -⟩ := kept.step noSeed edge
      refine ⟨⟨winner', kept'⟩, fun isSpent => ?_⟩
      rcases spent_step kept edge isSpent with before | enters
      · obtain ⟨entry, member, enters⟩ := attempted before
        exact ⟨entry, List.mem_append_left _ member, enters⟩
      · exact ⟨_, List.mem_append_right _ (List.mem_singleton_self _), enters⟩

/-- Nothing leaves a spend before the file records it. -/
theorem Bookkept.of_acknowledged {k : Nat} (kept : Bookkept peers b winner s)
    (acknowledged : RepliesOk b k (s, event) ∨ Announces b k (s, event)) :
    winner = some k ∧ b ∈ savedSpent s := by
  rcases acknowledged with ⟨command, isSpend, -, runs⟩ |
    ⟨command, result, addr, sender, next, isSpend, -, runs⟩
  · exact kept.of_ok isSpend runs
  · obtain ⟨wins, isSaved, -⟩ := kept.of_send isSpend runs
    exact ⟨wins, isSaved⟩

/-- From a state whose file records the bearer, its spent set keeps it and its
winner stays the same. -/
theorem run_recorded {k : Nat} {last : State} {trace : List (State × Event)}
    (run : Run (process peers nodeId).Step s trace last)
    (kept : Bookkept peers b (some k) s) (isSaved : b ∈ savedSpent s)
    (noSeed : ∀ entry ∈ trace, entered entry ≠ some (.seed b)) :
    Bookkept peers b (some k) last ∧ b ∈ savedSpent last := by
  apply run.invariant (fun t => Bookkept peers b (some k) t ∧ b ∈ savedSpent t)
    ⟨kept, isSaved⟩
  intro t event next member inv edge
  obtain ⟨winner', kept', same⟩ := inv.1.step (fun _ => noSeed _ member) edge
  obtain rfl := same (inv.1.recorded inv.2)
  exact ⟨kept', inv.1.saved_step inv.2 edge⟩

/-- Once a spend has replied Ok or a notification of it has left, the bearer is
spent and not held in every later state, across any number of restarts, and no
other spend of it replies Ok. -/
theorem acknowledged_spends_are_durable {k : Nat} {last : State}
    {before after : List (State × Event)} {entry : State × Event}
    (run : Run (process peers nodeId).Step (process peers nodeId).first
      (before ++ entry :: after) last)
    (seededFirst : SeededFirst b (before ++ entry :: after))
    (acknowledged : RepliesOk b k entry ∨ Announces b k entry) :
    (∀ later ∈ last :: after.map Prod.fst,
      b ∈ later.memory.node.spent ∧ b ∉ later.memory.node.ledger) ∧
      ∀ later ∈ after, ∀ k', k' ≠ k → ¬ RepliesOk b k' later := by
  obtain ⟨next, upToHere, edge, onwards⟩ := run.split
  have parts := List.pairwise_append.mp seededFirst
  obtain ⟨⟨winner, kept⟩, attempted⟩ := run_bookkept upToHere parts.1
  obtain ⟨rfl, isSaved⟩ := kept.of_acknowledged acknowledged
  obtain ⟨spender, member, enters⟩ := attempted (kept.recorded isSaved)
  have noSeed : ∀ later ∈ entry :: after, entered later ≠ some (.seed b) :=
    fun later isLater => parts.2.2 spender member later isLater enters
  have recorded : ∀ {trace state}, Run (process peers nodeId).Step next trace state →
      (∀ later ∈ trace, later ∈ after) → Bookkept peers b (some k) state ∧
        b ∈ savedSpent state := by
    intro trace state run within
    have toState := (Run.tail .refl edge).trans run
    apply run_recorded toState kept isSaved
    intro later isLater
    rcases List.mem_append.mp isLater with here | inTrace
    · exact noSeed later (List.mem_cons.mpr (Or.inl (List.mem_singleton.mp here)))
    · exact noSeed later (List.mem_cons_of_mem _ (within later inTrace))
  have ofEntry : ∀ later ∈ after, Bookkept peers b (some k) later.1 ∧
      b ∈ savedSpent later.1 := by
    intro later isLater
    obtain ⟨early, rest, rfl⟩ := List.mem_iff_append.mp isLater
    obtain ⟨-, toLater, -, -⟩ := onwards.split
    exact recorded toLater fun other isOther => List.mem_append_left _ isOther
  have holds : ∀ state, Bookkept peers b (some k) state ∧ b ∈ savedSpent state →
      b ∈ state.memory.node.spent ∧ b ∉ state.memory.node.ledger :=
    fun state inv => ⟨inv.1.recorded inv.2, inv.1.separate (inv.1.recorded inv.2)⟩
  refine ⟨?_, ?_⟩
  · intro later isLater
    rcases List.mem_cons.mp isLater with rfl | isState
    · exact holds _ (recorded onwards fun _ member => member)
    · obtain ⟨earlier, isEarlier, rfl⟩ := List.mem_map.mp isState
      exact holds _ (ofEntry earlier isEarlier)
  · intro later isLater k' other repliesOk
    have winnerIs := ((ofEntry later isLater).1.of_acknowledged (Or.inl repliesOk)).1
    exact other (Option.some_inj.mp winnerIs).symm

def pairedNode :=
  process ([⟨"N2", "host-N2"⟩] : List (Sigma fun _ : String => String)).toAList "N1"

/-- The node is linked, has a bearer seeded and spends it. -/
def spentUnannounced : List (State × Event) × State :=
  (follow pairedNode.step pairedNode.first
    [.started (AdminMessage.seed "b1").command, .locked 0, .persisted 0, .replied 0,
      .handled (.linkUpHello "N2" [] []), .started (AdminMessage.spendAt "b1").command,
      .locked 1, .persisted 1]).get (by decide)

def firstNotice : State × Event :=
  (spentUnannounced.2, .sent 1 (.ok ()))

def afterFirstNotice : State :=
  (pairedNode.step firstNotice.1 firstNotice.2).get (by decide)

def restartedAnnounced : List (State × Event) × State :=
  (follow pairedNode.step afterFirstNotice
    [.restarted, .handled (.linkUpHello "N2" ["b1"] []),
      .started (AdminMessage.spendAt "b1").command, .locked 2, .replied 2]).get (by decide)

/-- Killed after the first notification has left, the node comes back with the
bearer spent, though the peer offers it again. -/
theorem acknowledged_spends_are_durable_afterRestart :
    ∃ before after entry last,
      Run pairedNode.Step pairedNode.first (before ++ entry :: after) last ∧
      (before ++ entry :: after).map Prod.snd =
        [.started (AdminMessage.seed "b1").command, .locked 0, .persisted 0, .replied 0,
          .handled (.linkUpHello "N2" [] []), .started (AdminMessage.spendAt "b1").command,
          .locked 1, .persisted 1, .sent 1 (.ok ()), .restarted,
          .handled (.linkUpHello "N2" ["b1"] []),
          .started (AdminMessage.spendAt "b1").command, .locked 2, .replied 2] ∧
      Announces "b1" 1 entry ∧
      "b1" ∈ last.memory.node.spent ∧ "b1" ∉ last.memory.node.ledger := by
  obtain ⟨upToHere, labelsBefore⟩ : Run pairedNode.Step pairedNode.first spentUnannounced.1
      spentUnannounced.2 ∧ spentUnannounced.1.map Prod.snd = _ :=
    run_of_follow (Option.some_get _).symm
  have edge : pairedNode.Step firstNotice.1 firstNotice.2 afterFirstNotice :=
    (Option.some_get _).symm
  obtain ⟨onwards, labelsAfter⟩ : Run pairedNode.Step afterFirstNotice restartedAnnounced.1
      restartedAnnounced.2 ∧ restartedAnnounced.1.map Prod.snd = _ :=
    run_of_follow (Option.some_get _).symm
  have run : Run pairedNode.Step pairedNode.first
      (spentUnannounced.1 ++ firstNotice :: restartedAnnounced.1) restartedAnnounced.2 := by
    rw [List.append_cons]
    exact (upToHere.tail edge).trans onwards
  have announced : Announces "b1" 1 firstNotice :=
    ⟨(AdminMessage.spendAt "b1").command, .ok (), "host-N2", "N1", _, rfl, rfl, rfl⟩
  have durable := acknowledged_spends_are_durable run (by decide) (Or.inr announced)
  refine ⟨spentUnannounced.1, restartedAnnounced.1, firstNotice, restartedAnnounced.2, run, ?_,
    announced, durable.1 _ List.mem_cons_self⟩
  rw [List.map_append, List.map_cons, labelsBefore, labelsAfter]
  rfl

end DurableSpends

end HabiCore
