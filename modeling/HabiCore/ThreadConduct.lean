import HabiCore.LockedProcesses

/-!
# The conduct of threads

Conditions on what follows a critical section or a request in a program.  If the
handlers meet them, so do all threads of a system at all times.
-/

namespace LockedProcesses

variable {ι κ ς σ α μ φ ρ δ : Type}

/-- What may follow a section that has run on the memory it found, a write of the
image, a request and a one-way message, as long as the memories found are
admitted. -/
structure Conduct (ς σ α μ φ ρ : Type) where
  admits : σ → Prop
  afterSection : ς → σ → Program ς σ α μ φ ρ → Prop
  afterSave : Program ς σ α μ φ ρ → Prop
  onRequest : μ → (Except φ μ → Program ς σ α μ φ ρ) → Prop
  onSend : α → μ → (Except φ Unit → Program ς σ α μ φ ρ) → Prop

def Program.Keeps (conduct : Conduct ς σ α μ φ ρ) : Program ς σ α μ φ ρ → Prop
  | .done _ => True
  | .locked body next => ∀ found, conduct.admits found →
      conduct.afterSection body found (next found) ∧ (next found).Keeps conduct
  | .persist next => conduct.afterSave next ∧ next.Keeps conduct
  | .exchange _ message next =>
      conduct.onRequest message next ∧ ∀ answer, (next answer).Keeps conduct
  | .send address message next =>
      conduct.onSend address message next ∧ ∀ result, (next result).Keeps conduct

def Thread.Keeps (conduct : ι → Conduct ς σ α μ φ ρ) (thread : Thread ι κ ς σ α μ φ ρ) : Prop :=
  match thread.activity with
  | .running program => program.Keeps (conduct thread.process)
  | .waiting _ message next => (conduct thread.process).onRequest message next ∧
      ∀ answer, (next answer).Keeps (conduct thread.process)
  | .replied _ => True

def World.Keeps (conduct : ι → Conduct ς σ α μ φ ρ) (w : World ι κ ς σ α μ φ ρ δ) : Prop :=
  ∀ thread ∈ w.threads, thread.Keeps conduct

variable {conduct : ι → Conduct ς σ α μ φ ρ} {w w' : World ι κ ς σ α μ φ ρ δ}

theorem World.Idle.keeps (idle : w.Idle) : w.Keeps conduct := by
  simp [World.Keeps, idle.1]

theorem World.Keeps.thread (keeps : w.Keeps conduct) {k : Nat}
    {thread : Thread ι κ ς σ α μ φ ρ} (present : w.threads[k]? = some thread) :
    thread.Keeps conduct :=
  keeps thread (List.mem_of_getElem? present)

theorem World.Keeps.set (keeps : w.Keeps conduct) {n : Nat} {other : Thread ι κ ς σ α μ φ ρ}
    (kept : other.Keeps conduct) : ∀ thread ∈ w.threads.set n other, thread.Keeps conduct := by
  intro thread member
  rcases List.mem_or_eq_of_mem_set member with old | rfl
  · exact keeps thread old
  · exact kept

variable [DecidableEq ι] {S : System ι κ ς σ α μ φ ρ δ} {event : Event ι κ φ}

theorem World.Keeps.step (keeps : w.Keeps conduct)
    (handlers : ∀ i command, (S.handler i command).Keeps (conduct i))
    (admitted : ∀ i, (conduct i).admits (w.memory i)) (edge : S.Step w event w') :
    w'.Keeps conduct := by
  cases edge.transition with
  | started i command =>
      intro thread member
      rcases List.mem_append.mp member with old | new
      · exact keeps thread old
      · obtain rfl := List.mem_singleton.mp new
        exact handlers i command
  | locked present =>
      have kept := keeps.thread present
      exact keeps.set (kept _ (admitted _)).2
  | persisted present =>
      have kept := keeps.thread present
      exact keeps.set kept.2
  | notPersisted present =>
      have kept := keeps.thread present
      exact keeps.set kept.2
  | requested present =>
      have kept := keeps.thread present
      exact keeps.set kept
  | @served n i peer command message next present =>
      have kept := keeps.thread present
      apply keeps.set
      unfold Thread.Keeps System.answered
      cases (S.respond (w.memory peer) message).1 with
      | none => exact kept.2 _
      | some reply => exact kept.2 _
  | sent present =>
      have kept := keeps.thread present
      exact keeps.set (kept.2 _)
  | replied present => exact keeps.set trivial
  | exchangeFailed present =>
      have kept := keeps.thread present
      exact keeps.set (kept.2 _)
  | sendFailed present =>
      have kept := keeps.thread present
      exact keeps.set (kept.2 _)
  | waitFailed present =>
      have kept := keeps.thread present
      exact keeps.set (kept.2 _)
  | replyLost present =>
      have kept := keeps.thread present
      exact keeps.set (kept.2 _)
  | delivered | lost => exact keeps

end LockedProcesses
