import HabiCore.EncodedMessages
import Mathlib.Order.CompleteBooleanAlgebra
import Mathlib.Order.CompletePartialOrder

/-!
# Systems whose processes are killed and restarted

Any process of a system may be killed at any time and restarted from its saved
image.  Its threads end, requests to it fail, and what was on the way to it is
lost.  A contract that also speaks about saved images covers runs with restarts,
and processes that write their messages and images down follow such runs.
-/

namespace LockedProcesses

variable {ι κ ς σ α μ φ ρ δ : Type}

/-- A step of the system, or a restart, which those who wait for the process see
as a failure. -/
inductive RestartEvent (ι κ φ : Type) where
  | step (event : Event ι κ φ)
  | restarted (i : ι) (failure : φ)

namespace RestartEvent

def Starts (commands : κ → Prop) : RestartEvent ι κ φ → Prop
  | .step event => event.Starts commands
  | .restarted _ _ => True

theorem Starts.mono {commands commands' : κ → Prop} {event : RestartEvent ι κ φ}
    (starts : event.Starts commands)
    (wider : ∀ command, commands command → commands' command) : event.Starts commands' := by
  cases event with
  | step event => exact Event.Starts.mono starts wider
  | restarted i failure => trivial

instance (commands : κ → Prop) [DecidablePred commands] (event : RestartEvent ι κ φ) :
    Decidable (event.Starts commands) := by
  unfold Starts
  split <;> infer_instance

end RestartEvent

section Restart

variable [DecidableEq ι]

/-- What becomes of a thread when a process is restarted. -/
def Thread.afterRestart (i : ι) (failure : φ) (thread : Thread ι κ ς σ α μ φ ρ) :
    Option (Thread ι κ ς σ α μ φ ρ) :=
  match thread.activity with
  | .replied _ => some thread
  | .running _ => if thread.process = i then none else some thread
  | .waiting peer _ next =>
      if thread.process = i then none
      else if peer = i then some { thread with activity := .running (next (.error failure)) }
      else some thread

def World.restarted (w : World ι κ ς σ α μ φ ρ δ) (i : ι) (failure : φ) (memory : σ) :
    World ι κ ς σ α μ φ ρ δ :=
  { w with
    memory := Function.update w.memory i memory
    threads := w.threads.filterMap (Thread.afterRestart i failure)
    inFlight := w.inFlight.filter fun sent => sent.1 ≠ i }

namespace System

variable (S : System ι κ ς σ α μ φ ρ δ) (restore : ι → Option δ → σ)

def restartStep (w : World ι κ ς σ α μ φ ρ δ) :
    RestartEvent ι κ φ → Option (World ι κ ς σ α μ φ ρ δ)
  | .step event => S.step w event
  | .restarted i failure => some (w.restarted i failure (restore i (w.saved i)))

def RestartStep (w : World ι κ ς σ α μ φ ρ δ) (event : RestartEvent ι κ φ)
    (w' : World ι κ ς σ α μ φ ρ δ) : Prop :=
  S.restartStep restore w event = some w'

variable {S restore} {w w' : World ι κ ς σ α μ φ ρ δ}

theorem Step.saved_at {event : Event ι κ φ} (edge : S.Step w event w') (i : ι) :
    w'.saved i = w.saved i ∨ w'.saved i = some (S.image (w.memory i)) := by
  cases edge.transition with
  | @persisted k j command next present =>
      by_cases same : i = j
      · subst same
        simp
      · simp [same]
  | _ => exact Or.inl rfl

theorem RestartStep.of_restarted {i : ι} {failure : φ}
    (edge : S.RestartStep restore w (.restarted i failure) w') :
    w' = w.restarted i failure (restore i (w.saved i)) :=
  (Option.some_inj.mp edge).symm

theorem exists_restartRun (S : System ι κ ς σ α μ φ ρ δ) (restore : ι → Option δ → σ)
    (w : World ι κ ς σ α μ φ ρ δ) (events : List (RestartEvent ι κ φ))
    (check : World ι κ ς σ α μ φ ρ δ → Bool)
    (passes : (LabelledRuns.follow (S.restartStep restore) w events).any
      (fun followed => check followed.2) = true) :
    ∃ trace last, LabelledRuns.Run (S.RestartStep restore) w trace last ∧
      trace.map Prod.snd = events ∧ check last = true :=
  LabelledRuns.exists_run (S.restartStep restore) w events (fun followed => check followed.2) passes

end System

end Restart

namespace Contract

variable [DecidableEq ι] {C : Contract Unit ι κ ς σ α μ ρ} {S : System ι κ ς σ α μ φ ρ δ}
  {restore : ι → Option δ → σ} {commands : κ → Prop} {image : ι → δ → Prop}
  {w w' : World ι κ ς σ α μ φ ρ δ}

/-- How a system keeps to a contract across restarts, where nothing has to be
known: what it saves meets a condition, and what is restored from such images
complies. -/
structure KeptAcross (C : Contract Unit ι κ ς σ α μ ρ) (S : System ι κ ς σ α μ φ ρ δ)
    (restore : ι → Option δ → σ) (commands : κ → Prop) (image : ι → δ → Prop) : Prop where
  kept : C.Kept S (fun _ => ()) commands
  escape : ∀ i command message, C.request () i command message → C.message () message
  save : ∀ i found, C.memory () i found → image i (S.image found)
  restore : ∀ i saved, (∀ content, saved = some content → image i content) →
    C.memory () i (restore i saved)

structure CompliesAcross (C : Contract Unit ι κ ς σ α μ ρ) (image : ι → δ → Prop)
    (w : World ι κ ς σ α μ φ ρ δ) : Prop where
  complies : C.Complies () w
  saved : ∀ i content, w.saved i = some content → image i content

theorem ThreadHonours.afterRestart {i : ι} {failure : φ}
    {thread thread' : Thread ι κ ς σ α μ φ ρ} (honours : C.ThreadHonours thread ())
    (survives : thread.afterRestart i failure = some thread') : C.ThreadHonours thread' () := by
  obtain ⟨j, command, program | ⟨peer, message, next⟩ | reply⟩ := thread
  · simp only [Thread.afterRestart] at survives
    split at survives <;> cases survives
    exact honours
  · simp only [Thread.afterRestart] at survives
    split at survives
    · cases survives
    · split at survives <;> cases survives
      · exact (honours.2 () le_rfl).2 failure
      · exact honours
  · cases survives
    exact honours

theorem CompliesAcross.step {event : RestartEvent ι κ φ}
    (across : C.CompliesAcross image w) (kept : C.KeptAcross S restore commands image)
    (allowed : event.Starts commands) (edge : S.RestartStep restore w event w') :
    C.CompliesAcross image w' := by
  cases event with
  | step event =>
      have edge : S.Step w event w' := edge
      refine ⟨kept.kept.step across.complies allowed (Or.inr fun _ => kept.escape) edge, ?_⟩
      intro i content isSaved
      rcases edge.saved_at i with same | written
      · exact across.saved i content (same ▸ isSaved)
      · obtain rfl := Option.some_inj.mp (written.symm.trans isSaved)
        exact kept.save i _ (across.complies.memory i)
  | restarted i failure =>
      obtain rfl := edge.of_restarted
      refine ⟨⟨fun j => ?_, fun thread member => ?_, fun sent member => ?_⟩, across.saved⟩
      · by_cases same : j = i
        · subst same
          simpa [World.restarted] using kept.restore j _ (across.saved j)
        · simpa [World.restarted, same] using across.complies.memory j
      · obtain ⟨thread', member', survives⟩ := List.mem_filterMap.mp member
        exact (across.complies.threads thread' member').afterRestart survives
      · exact across.complies.inFlight sent (List.mem_of_mem_filter member)

theorem CompliesAcross.run {trace : List (World ι κ ς σ α μ φ ρ δ × RestartEvent ι κ φ)}
    (across : C.CompliesAcross image w) (kept : C.KeptAcross S restore commands image)
    (run : LabelledRuns.Run (S.RestartStep restore) w trace w')
    (allowed : ∀ entry ∈ trace, entry.2.Starts commands) : C.CompliesAcross image w' :=
  run.invariant _ across fun _ _ _ member across edge =>
    across.step kept (allowed _ member) edge

/-- It does not matter how images are restored that nothing restores otherwise. -/
theorem CompliesAcross.restoreRun {restore' : ι → Option δ → σ}
    {trace : List (World ι κ ς σ α μ φ ρ δ × RestartEvent ι κ φ)}
    (across : C.CompliesAcross image w) (kept : C.KeptAcross S restore commands image)
    (agree : ∀ i saved, (∀ content, saved = some content → image i content) →
      restore' i saved = restore i saved)
    (run : LabelledRuns.Run (S.RestartStep restore') w trace w')
    (allowed : ∀ entry ∈ trace, entry.2.Starts commands) :
    LabelledRuns.Run (S.RestartStep restore) w trace w' := by
  induction run with
  | refl => exact .refl
  | @tail trace middle last event run edge ih =>
      have within := fun entry member => allowed entry (List.mem_append_left _ member)
      have before := ih within
      refine before.tail ?_
      cases event with
      | step event => exact edge
      | restarted i failure =>
          have same := agree i (middle.saved i) ((across.run kept before within).saved i)
          rw [edge.of_restarted, same]
          rfl

end Contract

namespace Codec

variable {κ' μ' φ' ρ' δ' : Type} {c : Codec κ μ φ ρ δ κ' μ' φ' ρ' δ'}

/-- The same event, but for the numbers of threads. -/
def SameRestartEvent (c : Codec κ μ φ ρ δ κ' μ' φ' ρ' δ') :
    RestartEvent ι κ' φ' → RestartEvent ι κ φ → Prop
  | .step event', .step event => c.SameEvent event' event
  | .restarted i failure', .restarted j failure => i = j ∧ c.failure failure' = failure
  | _, _ => False

def RefusedRestartEvent (c : Codec κ μ φ ρ δ κ' μ' φ' ρ' δ')
    (w' : World ι κ' ς σ α μ' φ' ρ' δ') : RestartEvent ι κ' φ' → Prop
  | .step event' => c.RefusedEvent w' event'
  | .restarted _ _ => False

variable [DecidableEq ι] {S : System ι κ ς σ α μ φ ρ δ} {w : World ι κ ς σ α μ φ ρ δ}
  {w' : World ι κ' ς σ α μ' φ' ρ' δ'}

theorem Refused.afterRestart {i : ι} {failure' : φ'}
    {thread thread' : Thread ι κ' ς σ α μ' φ' ρ'} (refused : c.Refused thread)
    (survives : thread.afterRestart i failure' = some thread') : c.Refused thread' := by
  obtain ⟨refusal, read, isDone | replied⟩ := refused
  · simp only [Thread.afterRestart, isDone] at survives
    split at survives <;> cases survives
    exact ⟨refusal, read, Or.inl isDone⟩
  · simp only [Thread.afterRestart, replied, Option.some_inj] at survives
    subst survives
    exact ⟨refusal, read, Or.inr replied⟩

theorem Follows.afterRestart {i : ι} {failure' : φ'} {thread' : Thread ι κ' ς σ α μ' φ' ρ'}
    {thread : Thread ι κ ς σ α μ φ ρ} (follows : c.Follows thread' thread) :
    (thread'.afterRestart i failure' = none ∧
      thread.afterRestart i (c.failure failure') = none) ∨
    ∃ left' left, thread'.afterRestart i failure' = some left' ∧
      thread.afterRestart i (c.failure failure') = some left ∧ c.Follows left' left := by
  obtain ⟨j, text, activity'⟩ := thread'
  obtain ⟨j', command, activity⟩ := thread
  obtain ⟨read, same, isActivity⟩ := follows
  obtain rfl : j = j' := same
  obtain rfl : activity' = c.activity activity := isActivity
  cases activity with
  | running program =>
      by_cases own : j = i
      · exact Or.inl ⟨by simp [Thread.afterRestart, Codec.activity, own],
          by simp [Thread.afterRestart, own]⟩
      · exact Or.inr ⟨_, _, by simp [Thread.afterRestart, Codec.activity, own],
          by simp [Thread.afterRestart, own], read, rfl, rfl⟩
  | waiting peer message next =>
      by_cases own : j = i
      · exact Or.inl ⟨by simp [Thread.afterRestart, Codec.activity, own],
          by simp [Thread.afterRestart, own]⟩
      · by_cases down : peer = i
        · subst down
          exact Or.inr ⟨⟨j, text, .running (c.program (next (.error (c.failure failure'))))⟩,
            ⟨j, command, .running (next (.error (c.failure failure')))⟩,
            by simp [Thread.afterRestart, Codec.activity, Codec.answer, own],
            by simp [Thread.afterRestart, own], read, rfl, rfl⟩
        · exact Or.inr ⟨_, _, by simp [Thread.afterRestart, Codec.activity, own, down],
            by simp [Thread.afterRestart, own, down], read, rfl, rfl⟩
  | replied reply => exact Or.inr ⟨_, _, rfl, rfl, read, rfl, rfl⟩

theorem Writes.restarted (writes : c.Writes w' w) (i : ι) (failure' : φ') (memory : σ) :
    c.Writes (w'.restarted i failure' memory) (w.restarted i (c.failure failure') memory) where
  memory := by simp [World.restarted, writes.memory]
  saved := writes.saved
  threads := writes.threads.filterMap (fun _ _ refused survives => refused.afterRestart survives)
    fun _ _ follows => follows.afterRestart
  inFlight := by
    simp only [World.restarted, writes.inFlight, List.filter_map]
    rfl

variable {C : Contract Unit ι κ ς σ α μ ρ} {commands : κ → Prop} {image : ι → δ → Prop}
  {restore : ι → Option δ → σ} {restore' : ι → Option δ' → σ}

/-- A run with restarts in writing is a run with restarts, if a process restores
from what it has written the memory that it would restore from the image. -/
theorem Faithful.restartRun (faithful : c.Faithful C)
    (kept : C.KeptAcross S restore commands image) (closed : c.failure c.closed = S.unanswered)
    (restores : ∀ i saved, (∀ content, saved = some content → image i content) →
      restore' i (saved.map c.writeImage) = restore i saved)
    {start : World ι κ ς σ α μ φ ρ δ} {start' last' : World ι κ' ς σ α μ' φ' ρ' δ'}
    {trace' : List (World ι κ' ς σ α μ' φ' ρ' δ' × RestartEvent ι κ' φ')}
    (writes : c.Writes start' start) (across : C.CompliesAcross image start)
    (run : LabelledRuns.Run ((S.written c).RestartStep restore') start' trace' last')
    (starts : ∀ entry ∈ trace', entry.2.Starts fun text =>
      ∀ command, c.readCommand text = .ok command → commands command) :
    ∃ trace last, LabelledRuns.Run (S.RestartStep restore) start trace last ∧
      c.Writes last' last ∧ C.CompliesAcross image last ∧
      Shows (fun entry' => c.RefusedRestartEvent entry'.1 entry'.2)
        (fun entry' entry => c.Writes entry'.1 entry.1 ∧ c.SameRestartEvent entry'.2 entry.2)
        trace' trace := by
  induction run with
  | refl => exact ⟨[], start, .refl, writes, across, .nil⟩
  | @tail trace' middle' last' event' run edge ih =>
      obtain ⟨trace, middle, run, writesMiddle, acrossMiddle, shows⟩ :=
        ih fun entry member => starts entry (List.mem_append_left _ member)
      have allowed := starts (middle', event') (by simp)
      cases event' with
      | step event' =>
          have legible := faithful.legible kept.kept acrossMiddle.complies
          rcases writesMiddle.step legible closed edge with ⟨refused, writesLast⟩ |
            ⟨event, last, step, same, writesLast⟩
          · exact ⟨trace, middle, run, writesLast, acrossMiddle, shows.append_hidden refused⟩
          · have edge : S.RestartStep restore middle (.step event) last := step
            have starting : RestartEvent.Starts commands (.step event : RestartEvent ι κ φ) :=
              same.starts allowed
            exact ⟨_, last, run.tail edge, writesLast, acrossMiddle.step kept starting edge,
              shows.append_shown ⟨writesMiddle, same⟩⟩
      | restarted i failure' =>
          obtain rfl := edge.of_restarted
          have restored : restore' i (middle'.saved i) = restore i (middle.saved i) := by
            rw [writesMiddle.saved i]
            exact restores i _ (acrossMiddle.saved i)
          have step : S.RestartStep restore middle (.restarted i (c.failure failure')) _ := rfl
          have starting : RestartEvent.Starts commands
              (.restarted i (c.failure failure') : RestartEvent ι κ φ) := trivial
          refine ⟨_, _, run.tail step, ?_, acrossMiddle.step kept starting step,
            shows.append_shown ⟨writesMiddle, rfl, rfl⟩⟩
          rw [restored]
          exact writesMiddle.restarted i failure' _

end Codec

end LockedProcesses
