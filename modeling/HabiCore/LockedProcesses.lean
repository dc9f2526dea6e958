import HabiCore.LabelledRuns
import Mathlib.Logic.Function.Basic

/-!
# Processes with a lock that exchange messages

Each process has a memory behind one lock.  A command is run by a thread of its
process, and a message is handled by the process it is sent to.  A thread holds
the lock for one critical section at a time, and the handling of a message is a
critical section too; between two sections everything else may happen.  Every
message travels on a connection of its own, so that messages are handled in any
order.
-/

namespace LockedProcesses

/-- What remains to be done for a command.  A critical section is given by its
name, and what follows it depends on the memory it has found. -/
inductive Program (ς σ α μ φ ρ : Type) where
  | done (reply : ρ)
  | locked (body : ς) (next : σ → Program ς σ α μ φ ρ)
  | persist (next : Program ς σ α μ φ ρ)
  | exchange (address : α) (message : μ) (next : Except φ μ → Program ς σ α μ φ ρ)
  | send (address : α) (message : μ) (next : Except φ Unit → Program ς σ α μ φ ρ)

/-- A thread runs its program, waits for the reply to a request that has left,
or has replied.  A reply on its way back belongs to the thread that waits for
it, which is then running what follows the reply. -/
inductive Activity (ι ς σ α μ φ ρ : Type) where
  | running (program : Program ς σ α μ φ ρ)
  | waiting (peer : ι) (message : μ) (next : Except φ μ → Program ς σ α μ φ ρ)
  | replied (reply : ρ)

def Activity.reply {ι ς σ α μ φ ρ : Type} : Activity ι ς σ α μ φ ρ → Option ρ
  | .replied reply => some reply
  | _ => none

structure Thread (ι κ ς σ α μ φ ρ : Type) where
  process : ι
  command : κ
  activity : Activity ι ς σ α μ φ ρ

/-- The memories and saved images of all processes, all threads ever started
and the one-way messages in flight. -/
structure World (ι κ ς σ α μ φ ρ δ : Type) where
  memory : ι → σ
  saved : ι → Option δ
  threads : List (Thread ι κ ς σ α μ φ ρ)
  inFlight : List (ι × μ)

/-- What a thread may do next. -/
inductive Move (φ : Type) where
  | locked
  | persisted
  | notPersisted
  | requested
  | served
  | sent
  | replied
  /-- Connecting, sending or reading fails; the message may have left. -/
  | failed (failure : φ) (escaped : Bool)
  /-- The request is handled, but its reply does not arrive. -/
  | replyLost (failure : φ)

/-- Threads and messages in flight are referred to by their numbers. -/
inductive Event (ι κ φ : Type) where
  | started (process : ι) (command : κ)
  | thread (number : Nat) (move : Move φ)
  | delivered (number : Nat)
  | lost (number : Nat)

/-- How the processes compute.  `respond` handles a message and may answer it;
a request that is not answered ends in the failure `unanswered`. -/
structure System (ι κ ς σ α μ φ ρ δ : Type) where
  handler : ι → κ → Program ς σ α μ φ ρ
  execute : ς → σ → σ
  respond : σ → μ → Option μ × σ
  listener : α → Option ι
  unanswered : φ
  image : σ → δ

variable {ι κ ς σ α μ φ ρ δ : Type}

namespace Event

/-- No message is lost and no exchange fails. -/
def Lossless : Event ι κ φ → Prop
  | .thread _ (.failed ..) | .thread _ (.replyLost _) | .lost _ => False
  | _ => True

def Starts (commands : κ → Prop) : Event ι κ φ → Prop
  | .started _ command => commands command
  | _ => True

theorem Starts.mono {commands commands' : κ → Prop} {event : Event ι κ φ}
    (starts : event.Starts commands)
    (wider : ∀ command, commands command → commands' command) : event.Starts commands' := by
  cases event with
  | started i command => exact wider command starts
  | _ => trivial

instance (event : Event ι κ φ) : Decidable event.Lossless := by
  unfold Lossless
  split <;> infer_instance

instance (commands : κ → Prop) [DecidablePred commands] (event : Event ι κ φ) :
    Decidable (event.Starts commands) := by
  unfold Starts
  split <;> infer_instance

end Event

namespace World

variable (w : World ι κ ς σ α μ φ ρ δ)

def resume (k : Nat) (thread : Thread ι κ ς σ α μ φ ρ)
    (activity : Activity ι ς σ α μ φ ρ) : World ι κ ς σ α μ φ ρ δ :=
  { w with threads := w.threads.set k { thread with activity := activity } }

/-- The event lets the peer handle a message in flight or a request. -/
def Handles (event : Event ι κ φ) (peer : ι) (message : μ) : Prop :=
  (∃ m, event = .delivered m ∧ w.inFlight[m]? = some (peer, message)) ∨
    ∃ k move i command next, event = .thread k move ∧
      w.threads[k]? = some ⟨i, command, .waiting peer message next⟩

/-- All commands are answered and no message is in flight. -/
def Quiescent : Prop :=
  (∀ thread ∈ w.threads, thread.activity.reply.isSome) ∧ w.inFlight = []

instance : Decidable w.Quiescent :=
  inferInstanceAs (Decidable (_ ∧ _))

/-- No command has been started and no message is in flight. -/
def Idle : Prop :=
  w.threads = [] ∧ w.inFlight = []

variable {w} in
theorem Idle.quiescent (idle : w.Idle) : w.Quiescent :=
  ⟨by simp [idle.1], idle.2⟩

end World

namespace System

variable [DecidableEq ι] (S : System ι κ ς σ α μ φ ρ δ)

/-- What a thread goes on with after its request has been handled. -/
def answered (next : Except φ μ → Program ς σ α μ φ ρ) :
    Option μ → Program ς σ α μ φ ρ
  | some reply => next (.ok reply)
  | none => next (.error S.unanswered)

def escaping (escaped : Bool) (address : α) (message : μ) : List (ι × μ) :=
  match escaped, S.listener address with
  | true, some peer => [(peer, message)]
  | _, _ => []

/-- A move of the thread `k`, if its activity permits it. -/
def advance (w : World ι κ ς σ α μ φ ρ δ) (k : Nat) (thread : Thread ι κ ς σ α μ φ ρ) :
    Move φ → Activity ι ς σ α μ φ ρ → Option (World ι κ ς σ α μ φ ρ δ)
  | .locked, .running (.locked body next) =>
      let found := w.memory thread.process
      some { w.resume k thread (.running (next found)) with
        memory := Function.update w.memory thread.process (S.execute body found) }
  | .persisted, .running (.persist next) =>
      some { w.resume k thread (.running next) with
        saved := Function.update w.saved thread.process
          (some (S.image (w.memory thread.process))) }
  | .notPersisted, .running (.persist next) => some (w.resume k thread (.running next))
  | .requested, .running (.exchange address message next) =>
      (S.listener address).map fun peer => w.resume k thread (.waiting peer message next)
  | .served, .waiting peer message next =>
      let outcome := S.respond (w.memory peer) message
      some { w.resume k thread (.running (S.answered next outcome.1)) with
        memory := Function.update w.memory peer outcome.2 }
  | .sent, .running (.send address message next) =>
      (S.listener address).map fun peer =>
        { w.resume k thread (.running (next (.ok ()))) with
          inFlight := w.inFlight ++ [(peer, message)] }
  | .replied, .running (.done reply) => some (w.resume k thread (.replied reply))
  | .failed failure escaped, .running (.exchange address message next) =>
      some { w.resume k thread (.running (next (.error failure))) with
        inFlight := w.inFlight ++ S.escaping escaped address message }
  | .failed failure escaped, .running (.send address message next) =>
      some { w.resume k thread (.running (next (.error failure))) with
        inFlight := w.inFlight ++ S.escaping escaped address message }
  | .failed failure escaped, .waiting peer message next =>
      some { w.resume k thread (.running (next (.error failure))) with
        inFlight := w.inFlight ++ if escaped then [(peer, message)] else [] }
  | .replyLost failure, .waiting peer message next =>
      some { w.resume k thread (.running (next (.error failure))) with
        memory := Function.update w.memory peer (S.respond (w.memory peer) message).2 }
  | _, _ => none

def step (w : World ι κ ς σ α μ φ ρ δ) :
    Event ι κ φ → Option (World ι κ ς σ α μ φ ρ δ)
  | .started i command =>
      some { w with threads := w.threads ++ [⟨i, command, .running (S.handler i command)⟩] }
  | .thread k move =>
      w.threads[k]?.bind fun thread => S.advance w k thread move thread.activity
  | .delivered m =>
      w.inFlight[m]?.map fun sent =>
        { w with
          memory := Function.update w.memory sent.1 (S.respond (w.memory sent.1) sent.2).2
          inFlight := w.inFlight.eraseIdx m }
  | .lost m => some { w with inFlight := w.inFlight.eraseIdx m }

def Step (w : World ι κ ς σ α μ φ ρ δ) (event : Event ι κ φ)
    (w' : World ι κ ς σ α μ φ ρ δ) : Prop :=
  S.step w event = some w'

/-- The steps of a system, each with the activity it requires. -/
inductive Transition (w : World ι κ ς σ α μ φ ρ δ) :
    Event ι κ φ → World ι κ ς σ α μ φ ρ δ → Prop
  | started (i : ι) (command : κ) :
      Transition w (.started i command) { w with
        threads := w.threads ++ [⟨i, command, .running (S.handler i command)⟩] }
  | locked {k : Nat} {i : ι} {command : κ} {body : ς} {next : σ → Program ς σ α μ φ ρ}
      (present : w.threads[k]? = some ⟨i, command, .running (.locked body next)⟩) :
      Transition w (.thread k .locked) { w with
        threads := w.threads.set k ⟨i, command, .running (next (w.memory i))⟩
        memory := Function.update w.memory i (S.execute body (w.memory i)) }
  | persisted {k : Nat} {i : ι} {command : κ} {next : Program ς σ α μ φ ρ}
      (present : w.threads[k]? = some ⟨i, command, .running (.persist next)⟩) :
      Transition w (.thread k .persisted) { w with
        threads := w.threads.set k ⟨i, command, .running next⟩
        saved := Function.update w.saved i (some (S.image (w.memory i))) }
  | notPersisted {k : Nat} {i : ι} {command : κ} {next : Program ς σ α μ φ ρ}
      (present : w.threads[k]? = some ⟨i, command, .running (.persist next)⟩) :
      Transition w (.thread k .notPersisted) { w with
        threads := w.threads.set k ⟨i, command, .running next⟩ }
  | requested {k : Nat} {i peer : ι} {command : κ} {address : α} {message : μ}
      {next : Except φ μ → Program ς σ α μ φ ρ}
      (present : w.threads[k]? =
        some ⟨i, command, .running (.exchange address message next)⟩)
      (listening : S.listener address = some peer) :
      Transition w (.thread k .requested) { w with
        threads := w.threads.set k ⟨i, command, .waiting peer message next⟩ }
  | served {k : Nat} {i peer : ι} {command : κ} {message : μ}
      {next : Except φ μ → Program ς σ α μ φ ρ}
      (present : w.threads[k]? = some ⟨i, command, .waiting peer message next⟩) :
      Transition w (.thread k .served) { w with
        threads := w.threads.set k
          ⟨i, command, .running (S.answered next (S.respond (w.memory peer) message).1)⟩
        memory := Function.update w.memory peer (S.respond (w.memory peer) message).2 }
  | sent {k : Nat} {i peer : ι} {command : κ} {address : α} {message : μ}
      {next : Except φ Unit → Program ς σ α μ φ ρ}
      (present : w.threads[k]? = some ⟨i, command, .running (.send address message next)⟩)
      (listening : S.listener address = some peer) :
      Transition w (.thread k .sent) { w with
        threads := w.threads.set k ⟨i, command, .running (next (.ok ()))⟩
        inFlight := w.inFlight ++ [(peer, message)] }
  | replied {k : Nat} {i : ι} {command : κ} {reply : ρ}
      (present : w.threads[k]? = some ⟨i, command, .running (.done reply)⟩) :
      Transition w (.thread k .replied) { w with
        threads := w.threads.set k ⟨i, command, .replied reply⟩ }
  | exchangeFailed {k : Nat} {i : ι} {command : κ} {address : α} {message : μ}
      {next : Except φ μ → Program ς σ α μ φ ρ} {failure : φ} {escaped : Bool}
      (present : w.threads[k]? =
        some ⟨i, command, .running (.exchange address message next)⟩) :
      Transition w (.thread k (.failed failure escaped)) { w with
        threads := w.threads.set k ⟨i, command, .running (next (.error failure))⟩
        inFlight := w.inFlight ++ S.escaping escaped address message }
  | sendFailed {k : Nat} {i : ι} {command : κ} {address : α} {message : μ}
      {next : Except φ Unit → Program ς σ α μ φ ρ} {failure : φ} {escaped : Bool}
      (present : w.threads[k]? = some ⟨i, command, .running (.send address message next)⟩) :
      Transition w (.thread k (.failed failure escaped)) { w with
        threads := w.threads.set k ⟨i, command, .running (next (.error failure))⟩
        inFlight := w.inFlight ++ S.escaping escaped address message }
  | waitFailed {k : Nat} {i peer : ι} {command : κ} {message : μ}
      {next : Except φ μ → Program ς σ α μ φ ρ} {failure : φ} {escaped : Bool}
      (present : w.threads[k]? = some ⟨i, command, .waiting peer message next⟩) :
      Transition w (.thread k (.failed failure escaped)) { w with
        threads := w.threads.set k ⟨i, command, .running (next (.error failure))⟩
        inFlight := w.inFlight ++ if escaped then [(peer, message)] else [] }
  | replyLost {k : Nat} {i peer : ι} {command : κ} {message : μ}
      {next : Except φ μ → Program ς σ α μ φ ρ} {failure : φ}
      (present : w.threads[k]? = some ⟨i, command, .waiting peer message next⟩) :
      Transition w (.thread k (.replyLost failure)) { w with
        threads := w.threads.set k ⟨i, command, .running (next (.error failure))⟩
        memory := Function.update w.memory peer (S.respond (w.memory peer) message).2 }
  | delivered {m : Nat} {peer : ι} {message : μ}
      (present : w.inFlight[m]? = some (peer, message)) :
      Transition w (.delivered m) { w with
        memory := Function.update w.memory peer (S.respond (w.memory peer) message).2
        inFlight := w.inFlight.eraseIdx m }
  | lost (m : Nat) : Transition w (.lost m) { w with inFlight := w.inFlight.eraseIdx m }

variable {S} {w w' : World ι κ ς σ α μ φ ρ δ} {event : Event ι κ φ}

theorem transition_of_advance {k : Nat} {thread : Thread ι κ ς σ α μ φ ρ} {move : Move φ}
    (present : w.threads[k]? = some thread)
    (moved : S.advance w k thread move thread.activity = some w') :
    S.Transition w (.thread k move) w' := by
  obtain ⟨i, command, activity⟩ := thread
  dsimp only at moved
  unfold advance at moved
  split at moved
  · cases moved
    exact .locked present
  · cases moved
    exact .persisted present
  · cases moved
    exact .notPersisted present
  · obtain ⟨peer, listening, rfl⟩ := Option.map_eq_some_iff.mp moved
    exact .requested present listening
  · cases moved
    exact .served present
  · obtain ⟨peer, listening, rfl⟩ := Option.map_eq_some_iff.mp moved
    exact .sent present listening
  · cases moved
    exact .replied present
  · cases moved
    exact .exchangeFailed present
  · cases moved
    exact .sendFailed present
  · cases moved
    exact .waitFailed present
  · cases moved
    exact .replyLost present
  · cases moved

theorem Step.transition (edge : S.Step w event w') : S.Transition w event w' := by
  cases event with
  | started i command =>
      cases edge
      exact .started i command
  | thread k move =>
      obtain ⟨thread, present, moved⟩ := Option.bind_eq_some_iff.mp edge
      exact transition_of_advance present moved
  | delivered m =>
      obtain ⟨⟨peer, message⟩, present, rfl⟩ := Option.map_eq_some_iff.mp edge
      exact .delivered present
  | lost m =>
      cases edge
      exact .lost m

theorem exists_run (S : System ι κ ς σ α μ φ ρ δ) (w : World ι κ ς σ α μ φ ρ δ)
    (events : List (Event ι κ φ))
    (check : List (World ι κ ς σ α μ φ ρ δ × Event ι κ φ) × World ι κ ς σ α μ φ ρ δ → Bool)
    (passes : (LabelledRuns.follow S.step w events).any check = true) :
    ∃ trace last, LabelledRuns.Run S.Step w trace last ∧ trace.map Prod.snd = events ∧
      check (trace, last) = true :=
  LabelledRuns.exists_run S.step w events check passes

/-- A step starts a thread, changes the activity of one, or handles or loses a
message in flight. -/
theorem Step.threads_cases (edge : S.Step w event w') :
    (∃ i command, event = .started i command ∧
      w'.threads = w.threads ++ [⟨i, command, .running (S.handler i command)⟩]) ∨
    (∃ k move thread activity, event = .thread k move ∧ w.threads[k]? = some thread ∧
      w'.threads = w.threads.set k { thread with activity := activity }) ∨
    ((∀ i command, event ≠ .started i command) ∧ (∀ k move, event ≠ .thread k move) ∧
      w'.threads = w.threads) := by
  cases edge.transition with
  | started i command => exact Or.inl ⟨i, command, rfl, rfl⟩
  | locked present | persisted present | notPersisted present | requested present
  | served present | sent present | replied present | exchangeFailed present
  | sendFailed present | waitFailed present | replyLost present =>
      exact Or.inr (Or.inl ⟨_, _, _, _, rfl, present, rfl⟩)
  | delivered | lost => exact Or.inr (Or.inr ⟨by simp, by simp, rfl⟩)

/-- The moves of other threads leave a thread alone. -/
theorem Step.thread_frame (edge : S.Step w event w') {k : Nat}
    {thread : Thread ι κ ς σ α μ φ ρ} (others : ∀ move, event ≠ .thread k move)
    (present : w.threads[k]? = some thread) : w'.threads[k]? = some thread := by
  rcases edge.threads_cases with ⟨i, command, -, threads⟩ |
    ⟨k', move, thread', activity, rfl, -, threads⟩ | ⟨-, -, threads⟩
  · rw [threads, List.getElem?_append_left (List.getElem?_eq_some_iff.mp present).1]
    exact present
  · have distinct : k' ≠ k := fun same => others move (by rw [same])
    rw [threads, List.getElem?_set_ne distinct]
    exact present
  · rw [threads]
    exact present

theorem Step.thread_moves {k : Nat} {move : Move φ} (edge : S.Step w (.thread k move) w')
    {i : ι} {command : κ} {activity : Activity ι ς σ α μ φ ρ}
    (present : w.threads[k]? = some ⟨i, command, activity⟩) :
    ∃ activity', w'.threads[k]? = some ⟨i, command, activity'⟩ := by
  rcases edge.threads_cases with ⟨i, command, same, -⟩ |
    ⟨k', move', thread, activity', same, found, threads⟩ | ⟨-, noMove, -⟩
  · simp at same
  · obtain ⟨rfl, rfl⟩ : k = k' ∧ move = move' := by simpa using same
    obtain rfl := Option.some_inj.mp (present.symm.trans found)
    rw [threads]
    exact ⟨activity', List.getElem?_set_self (List.getElem?_eq_some_iff.mp present).1⟩
  · exact (noMove k move rfl).elim

theorem Step.thread_origin (edge : S.Step w event w') {k : Nat}
    {thread : Thread ι κ ς σ α μ φ ρ} (present : w'.threads[k]? = some thread) :
    (∃ before, w.threads[k]? = some before ∧ thread.process = before.process ∧
      thread.command = before.command) ∨
    (k = w.threads.length ∧ ∃ i command, event = .started i command ∧
      thread = ⟨i, command, .running (S.handler i command)⟩) := by
  rcases edge.threads_cases with ⟨i, command, rfl, threads⟩ |
    ⟨k', move, thread', activity, -, moved, threads⟩ | ⟨-, -, threads⟩
  · rw [threads, List.getElem?_append] at present
    split at present
    · exact Or.inl ⟨thread, present, rfl, rfl⟩
    · rename_i beyond
      have isNew : k = w.threads.length := by
        have bound := (List.getElem?_eq_some_iff.mp present).1
        simp only [List.length_singleton] at bound
        omega
      subst isNew
      obtain rfl : (⟨i, command, .running (S.handler i command)⟩ : Thread ι κ ς σ α μ φ ρ) =
        thread := by simpa using present
      exact Or.inr ⟨rfl, i, command, rfl, rfl⟩
  · rw [threads, List.getElem?_set] at present
    split at present
    · rename_i same
      subst same
      split at present
      · obtain rfl := Option.some_inj.mp present
        exact Or.inl ⟨thread', moved, rfl, rfl⟩
      · simp at present
    · exact Or.inl ⟨thread, present, rfl, rfl⟩
  · rw [threads] at present
    exact Or.inl ⟨thread, present, rfl, rfl⟩

theorem Step.advance_eq (edge : S.Step w (.thread k move) w')
    {thread : Thread ι κ ς σ α μ φ ρ} (present : w.threads[k]? = some thread) :
    S.advance w k thread move thread.activity = some w' := by
  have moved : S.step w (.thread k move) = some w' := edge
  simpa [step, present] using moved

section Moves

variable {k : Nat} {i : ι} {command : κ} {move : Move φ}
  (edge : S.Step w (.thread k move) w')
include edge

theorem Step.of_locked {body : ς} {next : σ → Program ς σ α μ φ ρ}
    (present : w.threads[k]? = some ⟨i, command, .running (.locked body next)⟩) :
    move = .locked ∧ w' = { w with
      threads := w.threads.set k ⟨i, command, .running (next (w.memory i))⟩
      memory := Function.update w.memory i (S.execute body (w.memory i)) } := by
  have moved := edge.advance_eq present
  cases move <;> simp only [advance, reduceCtorEq] at moved
  exact ⟨rfl, (Option.some_inj.mp moved).symm⟩

theorem Step.of_persist {next : Program ς σ α μ φ ρ}
    (present : w.threads[k]? = some ⟨i, command, .running (.persist next)⟩) :
    (move = .persisted ∨ move = .notPersisted) ∧ ∃ saved, w' = { w with
      threads := w.threads.set k ⟨i, command, .running next⟩
      saved := saved } := by
  have moved := edge.advance_eq present
  cases move <;> simp only [advance, reduceCtorEq] at moved
  · exact ⟨Or.inl rfl, _, (Option.some_inj.mp moved).symm⟩
  · exact ⟨Or.inr rfl, _, (Option.some_inj.mp moved).symm⟩

theorem Step.of_done {reply : ρ}
    (present : w.threads[k]? = some ⟨i, command, .running (.done reply)⟩) :
    move = .replied ∧ w' = { w with
      threads := w.threads.set k ⟨i, command, .replied reply⟩ } := by
  have moved := edge.advance_eq present
  cases move <;> simp only [advance, reduceCtorEq] at moved
  exact ⟨rfl, (Option.some_inj.mp moved).symm⟩

theorem Step.of_replied {reply : ρ}
    (present : w.threads[k]? = some ⟨i, command, .replied reply⟩) : False := by
  have moved := edge.advance_eq present
  cases move <;> simp only [advance, reduceCtorEq] at moved

theorem Step.of_exchange {address : α} {message : μ} {next : Except φ μ → Program ς σ α μ φ ρ}
    (present : w.threads[k]? = some ⟨i, command, .running (.exchange address message next)⟩) :
    (move = .requested ∧ ∃ peer, S.listener address = some peer ∧ w' = { w with
      threads := w.threads.set k ⟨i, command, .waiting peer message next⟩ }) ∨
    ∃ failure escaped, move = .failed failure escaped ∧ w'.memory = w.memory ∧
      w'.threads = w.threads.set k ⟨i, command, .running (next (.error failure))⟩ := by
  have moved := edge.advance_eq present
  cases move <;> simp only [advance, reduceCtorEq] at moved
  · obtain ⟨peer, listening, rfl⟩ := Option.map_eq_some_iff.mp moved
    exact Or.inl ⟨rfl, peer, listening, rfl⟩
  · obtain rfl := Option.some_inj.mp moved
    exact Or.inr ⟨_, _, rfl, rfl, rfl⟩

theorem Step.of_waiting {peer : ι} {message : μ} {next : Except φ μ → Program ς σ α μ φ ρ}
    (present : w.threads[k]? = some ⟨i, command, .waiting peer message next⟩) :
    (move = .served ∧ w' = { w with
      threads := w.threads.set k
        ⟨i, command, .running (S.answered next (S.respond (w.memory peer) message).1)⟩
      memory := Function.update w.memory peer (S.respond (w.memory peer) message).2 }) ∨
    ∃ failure, ((∃ escaped, move = .failed failure escaped) ∨ move = .replyLost failure) ∧
      w'.threads = w.threads.set k ⟨i, command, .running (next (.error failure))⟩ := by
  have moved := edge.advance_eq present
  cases move <;> simp only [advance, reduceCtorEq] at moved
  · exact Or.inl ⟨rfl, (Option.some_inj.mp moved).symm⟩
  · obtain rfl := Option.some_inj.mp moved
    exact Or.inr ⟨_, Or.inl ⟨_, rfl⟩, rfl⟩
  · obtain rfl := Option.some_inj.mp moved
    exact Or.inr ⟨_, Or.inr rfl, rfl⟩

theorem Step.of_lossless_exchange {address : α} {message : μ}
    {next : Except φ μ → Program ς σ α μ φ ρ}
    (present : w.threads[k]? = some ⟨i, command, .running (.exchange address message next)⟩)
    (lossless : (Event.thread k move : Event ι κ φ).Lossless) :
    move = .requested ∧ ∃ peer, S.listener address = some peer ∧ w' = { w with
      threads := w.threads.set k ⟨i, command, .waiting peer message next⟩ } := by
  rcases edge.of_exchange present with requested | ⟨failure, escaped, rfl, -⟩
  · exact requested
  · exact lossless.elim

theorem Step.of_lossless_waiting {peer : ι} {message : μ}
    {next : Except φ μ → Program ς σ α μ φ ρ}
    (present : w.threads[k]? = some ⟨i, command, .waiting peer message next⟩)
    (lossless : (Event.thread k move : Event ι κ φ).Lossless) :
    move = .served ∧ w' = { w with
      threads := w.threads.set k
        ⟨i, command, .running (S.answered next (S.respond (w.memory peer) message).1)⟩
      memory := Function.update w.memory peer (S.respond (w.memory peer) message).2 } := by
  rcases edge.of_waiting present with served | ⟨failure, ⟨escaped, rfl⟩ | rfl, -⟩
  · exact served
  · exact lossless.elim
  · exact lossless.elim

theorem Step.of_send {address : α} {message : μ} {next : Except φ Unit → Program ς σ α μ φ ρ}
    (present : w.threads[k]? = some ⟨i, command, .running (.send address message next)⟩)
    (lossless : (Event.thread k move : Event ι κ φ).Lossless) :
    move = .sent ∧ ∃ peer, S.listener address = some peer ∧ w' = { w with
      threads := w.threads.set k ⟨i, command, .running (next (.ok ()))⟩
      inFlight := w.inFlight ++ [(peer, message)] } := by
  have moved := edge.advance_eq present
  cases move <;> simp only [advance, reduceCtorEq] at moved
  · obtain ⟨peer, listening, rfl⟩ := Option.map_eq_some_iff.mp moved
    exact ⟨rfl, peer, listening, rfl⟩
  · exact lossless.elim

end Moves

/-- A step leaves the memories alone, runs a critical section or handles a
message. -/
theorem Step.memory_cases (edge : S.Step w event w') :
    ((∀ k, event ≠ .thread k .locked) ∧ (∀ m, event ≠ .delivered m) ∧
      w'.memory = w.memory) ∨
    (∃ k i command body next, event = .thread k .locked ∧
      w.threads[k]? = some ⟨i, command, .running (.locked body next)⟩ ∧
      w'.memory = Function.update w.memory i (S.execute body (w.memory i))) ∨
    ((∀ k, event ≠ .thread k .locked) ∧ ∃ peer message, w.Handles event peer message ∧
      w'.memory =
        Function.update w.memory peer (S.respond (w.memory peer) message).2) := by
  cases edge.transition with
  | locked present => exact Or.inr (Or.inl ⟨_, _, _, _, _, rfl, present, rfl⟩)
  | served present | replyLost present =>
      exact Or.inr (Or.inr ⟨by simp, _, _, Or.inr ⟨_, _, _, _, _, rfl, present⟩, rfl⟩)
  | delivered present =>
      exact Or.inr (Or.inr ⟨by simp, _, _, Or.inl ⟨_, rfl, present⟩, rfl⟩)
  | _ => exact Or.inl ⟨by simp, by simp, rfl⟩

end System

end LockedProcesses
