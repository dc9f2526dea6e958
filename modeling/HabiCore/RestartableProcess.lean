import HabiCore.LockedProcesses

/-!
# A process that is killed and restarted

One process with a memory behind a lock and a file on disk, in an environment
about which nothing is known: any command may be given, any message may arrive
and any exchange may have any outcome.  Each command is a job that runs its
program.  The process may be killed at any point; the restarted one has no jobs
and only what the file holds.  A write of the file is atomic and succeeds.
-/

namespace RestartableProcess

open LockedProcesses

/-- A command with what remains of its program; nothing remains once it has
replied or its process has been killed. -/
structure Job (κ ς σ α μ φ ρ : Type) where
  command : κ
  remaining : Option (Program ς σ α μ φ ρ)

/-- The memory, the file, and all jobs ever started. -/
structure State (κ ς σ α μ φ ρ δ : Type) where
  memory : σ
  saved : Option δ
  jobs : List (Job κ ς σ α μ φ ρ)

inductive Event (κ μ φ : Type) where
  | started (command : κ)
  | locked (number : Nat)
  | persisted (number : Nat)
  | answered (number : Nat) (answer : Except φ μ)
  | sent (number : Nat) (result : Except φ Unit)
  | replied (number : Nat)
  | handled (message : μ)
  | restarted

/-- How the process computes.  `respond` handles a message, and `restore` is the
memory of a process that starts from a file. -/
structure Process (κ ς σ α μ φ ρ δ : Type) where
  handler : κ → Program ς σ α μ φ ρ
  execute : ς → σ → σ
  respond : σ → μ → σ
  image : σ → δ
  restore : Option δ → σ

variable {κ ς σ α μ φ ρ δ : Type}

/-- The process is killed before the job has replied, or has replied. -/
def Job.ended (job : Job κ ς σ α μ φ ρ) : Job κ ς σ α μ φ ρ :=
  { job with remaining := none }

namespace State

variable (s : State κ ς σ α μ φ ρ δ)

def Runs (k : Nat) (command : κ) (program : Program ς σ α μ φ ρ) : Prop :=
  s.jobs[k]? = some ⟨command, some program⟩

def resume (k : Nat) (command : κ) (program : Program ς σ α μ φ ρ) :
    State κ ς σ α μ φ ρ δ :=
  { s with jobs := s.jobs.set k ⟨command, some program⟩ }

end State

namespace Process

variable (P : Process κ ς σ α μ φ ρ δ)

def first : State κ ς σ α μ φ ρ δ :=
  ⟨P.restore none, none, []⟩

def advance (s : State κ ς σ α μ φ ρ δ) (k : Nat) (command : κ) :
    Event κ μ φ → Program ς σ α μ φ ρ → Option (State κ ς σ α μ φ ρ δ)
  | .locked _, .locked body next =>
      some { s.resume k command (next s.memory) with memory := P.execute body s.memory }
  | .persisted _, .persist next =>
      some { s.resume k command next with saved := some (P.image s.memory) }
  | .answered _ answer, .exchange _ _ next => some (s.resume k command (next answer))
  | .sent _ result, .send _ _ next => some (s.resume k command (next result))
  | .replied _, .done _ => some { s with jobs := s.jobs.set k ⟨command, none⟩ }
  | _, _ => none

def actor : Event κ μ φ → Option Nat
  | .locked k | .persisted k | .answered k _ | .sent k _ | .replied k => some k
  | .started _ | .handled _ | .restarted => none

def step (s : State κ ς σ α μ φ ρ δ) (event : Event κ μ φ) :
    Option (State κ ς σ α μ φ ρ δ) :=
  match event with
  | .started command =>
      some { s with jobs := s.jobs ++ [⟨command, some (P.handler command)⟩] }
  | .handled message => some { s with memory := P.respond s.memory message }
  | .restarted =>
      some { s with memory := P.restore s.saved, jobs := s.jobs.map Job.ended }
  | .locked k | .persisted k | .answered k _ | .sent k _ | .replied k =>
      s.jobs[k]?.bind fun job =>
        job.remaining.bind fun program => P.advance s k job.command event program

def Step (s : State κ ς σ α μ φ ρ δ) (event : Event κ μ φ) (s' : State κ ς σ α μ φ ρ δ) :
    Prop :=
  P.step s event = some s'

/-- The steps of a process, each with the program it requires. -/
inductive Transition (s : State κ ς σ α μ φ ρ δ) :
    Event κ μ φ → State κ ς σ α μ φ ρ δ → Prop
  | started (command : κ) : Transition s (.started command)
      { s with jobs := s.jobs ++ [⟨command, some (P.handler command)⟩] }
  | locked {k : Nat} {command : κ} {body : ς} {next : σ → Program ς σ α μ φ ρ}
      (runs : s.Runs k command (.locked body next)) :
      Transition s (.locked k)
        { s.resume k command (next s.memory) with memory := P.execute body s.memory }
  | persisted {k : Nat} {command : κ} {next : Program ς σ α μ φ ρ}
      (runs : s.Runs k command (.persist next)) :
      Transition s (.persisted k)
        { s.resume k command next with saved := some (P.image s.memory) }
  | answered {k : Nat} {command : κ} {address : α} {message : μ}
      {next : Except φ μ → Program ς σ α μ φ ρ} (answer : Except φ μ)
      (runs : s.Runs k command (.exchange address message next)) :
      Transition s (.answered k answer) (s.resume k command (next answer))
  | sent {k : Nat} {command : κ} {address : α} {message : μ}
      {next : Except φ Unit → Program ς σ α μ φ ρ} (result : Except φ Unit)
      (runs : s.Runs k command (.send address message next)) :
      Transition s (.sent k result) (s.resume k command (next result))
  | replied {k : Nat} {command : κ} {reply : ρ} (runs : s.Runs k command (.done reply)) :
      Transition s (.replied k) { s with jobs := s.jobs.set k ⟨command, none⟩ }
  | handled (message : μ) :
      Transition s (.handled message) { s with memory := P.respond s.memory message }
  | restarted :
      Transition s .restarted
        { s with memory := P.restore s.saved, jobs := s.jobs.map Job.ended }

variable {P} {s s' : State κ ς σ α μ φ ρ δ} {event : Event κ μ φ}

theorem transition_of_advance {k : Nat} {command : κ} {program : Program ς σ α μ φ ρ}
    (runs : s.Runs k command program) (isActor : actor event = some k)
    (moved : P.advance s k command event program = some s') : P.Transition s event s' := by
  unfold advance at moved
  split at moved
  · obtain rfl := Option.some_inj.mp isActor
    cases moved
    exact .locked runs
  · obtain rfl := Option.some_inj.mp isActor
    cases moved
    exact .persisted runs
  · obtain rfl := Option.some_inj.mp isActor
    cases moved
    exact .answered _ runs
  · obtain rfl := Option.some_inj.mp isActor
    cases moved
    exact .sent _ runs
  · obtain rfl := Option.some_inj.mp isActor
    cases moved
    exact .replied runs
  · cases moved

theorem Step.transition (edge : P.Step s event s') : P.Transition s event s' := by
  have ofJob : ∀ k, actor event = some k →
      (s.jobs[k]?.bind fun job => job.remaining.bind fun program =>
        P.advance s k job.command event program) = some s' → P.Transition s event s' := by
    intro k isActor moved
    obtain ⟨⟨command, remaining⟩, present, moved⟩ := Option.bind_eq_some_iff.mp moved
    obtain ⟨program, rfl, moved⟩ := Option.bind_eq_some_iff.mp moved
    exact transition_of_advance present isActor moved
  cases event with
  | started command =>
      cases edge
      exact .started command
  | handled message =>
      cases edge
      exact .handled message
  | restarted =>
      cases edge
      exact .restarted
  | locked k | persisted k | answered k answer | sent k result | replied k =>
      exact ofJob k rfl edge

theorem not_runs_ended {jobs : List (Job κ ς σ α μ φ ρ)} {k : Nat} {command : κ}
    {program : Program ς σ α μ φ ρ} :
    (jobs.map Job.ended)[k]? ≠ some ⟨command, some program⟩ := by
  intro present
  rw [List.getElem?_map, Option.map_eq_some_iff] at present
  obtain ⟨job, -, isEnded⟩ := present
  simp [Job.ended] at isEnded

/-- A job that runs after a step has gone on by it, has been started by it or
has run the same program before. -/
theorem Step.runs_cases (edge : P.Step s event s') {k : Nat} {command : κ}
    {program : Program ς σ α μ φ ρ} (runs : s'.Runs k command program) :
    s.Runs k command program ∨ actor event = some k ∨
      event = .started command ∧ program = P.handler command := by
  have ofResume : ∀ j other remaining, (s.jobs.set j ⟨other, remaining⟩)[k]? =
      some ⟨command, some program⟩ → s.Runs k command program ∨ some j = some k := by
    intro j other remaining present
    by_cases same : j = k
    · exact Or.inr (congrArg some same)
    · rw [List.getElem?_set_ne same] at present
      exact Or.inl present
  unfold State.Runs at runs
  cases edge.transition with
  | started command' =>
      rw [List.getElem?_append] at runs
      split at runs
      · exact Or.inl runs
      · have member := List.mem_of_getElem? runs
        simp only [List.mem_singleton, Job.mk.injEq, Option.some.injEq] at member
        obtain ⟨rfl, rfl⟩ := member
        exact Or.inr (Or.inr ⟨rfl, rfl⟩)
  | locked | persisted | answered | sent | replied =>
      exact (ofResume _ _ _ runs).imp id Or.inl
  | handled => exact Or.inl runs
  | restarted => exact (not_runs_ended runs).elim

theorem resumed {jobs : List (Job κ ς σ α μ φ ρ)} {k : Nat} {command command' : κ}
    {remaining : Option (Program ς σ α μ φ ρ)} {program : Program ς σ α μ φ ρ}
    (present : (jobs.set k ⟨command, remaining⟩)[k]? = some ⟨command', some program⟩) :
    command' = command ∧ remaining = some program := by
  rw [List.getElem?_set_self', Option.map_eq_map, Option.map_eq_some_iff] at present
  obtain ⟨job, -, same⟩ := present
  simp only [Function.const_apply, Job.mk.injEq] at same
  exact ⟨same.1.symm, same.2⟩

end Process

end RestartableProcess
