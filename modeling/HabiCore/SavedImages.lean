import HabiCore.LockedProcesses

/-!
# Memories and saved images

Each process writes images of its memory to a file of its own.  The file holds
the image of the memory as long as every change is followed by a write, and
what a property of images says of the file follows from the last write.
-/

namespace LockedProcesses

open LabelledRuns

variable {ι κ ς σ α μ φ ρ δ : Type}

def Event.saves : Event ι κ φ → Bool
  | .thread _ .notPersisted => false
  | _ => true

namespace World

variable (w : World ι κ ς σ α μ φ ρ δ)

/-- What a process finds in its file, or starts with if it has none. -/
def file (blank : ι → δ) (i : ι) : δ :=
  (w.saved i).getD (blank i)

def received : Event ι κ φ → Option (ι × μ)
  | .delivered m => w.inFlight[m]?
  | .thread k .served | .thread k (.replyLost _) =>
      match w.threads[k]? with
      | some ⟨_, _, .waiting peer message _⟩ => some (peer, message)
      | _ => none
  | _ => none

def saver : Event ι κ φ → Option ι
  | .thread k .persisted =>
      match w.threads[k]? with
      | some ⟨i, _, .running (.persist _)⟩ => some i
      | _ => none
  | _ => none

/-- A thread of the process is about to write the file. -/
def SavePending (i : ι) : Prop :=
  ∃ thread ∈ w.threads, ∃ next, thread.process = i ∧ thread.activity = .running (.persist next)

/-- The file holds the image of the memory. -/
def Synced (S : System ι κ ς σ α μ φ ρ δ) (blank : ι → δ) (i : ι) : Prop :=
  w.file blank i = S.image (w.memory i)

end World

variable [DecidableEq ι] {S : System ι κ ς σ α μ φ ρ δ} {w w' : World ι κ ς σ α μ φ ρ δ}
  {event : Event ι κ φ} {i : ι} {blank : ι → δ}

namespace System

/-- A step leaves the memory of a process alone, handles a message or runs a
section of the process. -/
theorem Step.memory_at (edge : S.Step w event w') (i : ι) :
    (w.received event = none ∧ w'.memory i = w.memory i) ∨
      (∃ j message, w.received event = some (j, message) ∧ w'.saved = w.saved ∧
        w'.memory = Function.update w.memory j (S.respond (w.memory j) message).2) ∨
      ∃ k command body next, event = .thread k .locked ∧ w'.saved = w.saved ∧
        w.threads[k]? = some ⟨i, command, .running (.locked body next)⟩ ∧
        w'.threads[k]? = some ⟨i, command, .running (next (w.memory i))⟩ ∧
        w'.memory i = S.execute body (w.memory i) := by
  cases edge.transition with
  | @locked k j command body next present =>
      by_cases isOwn : j = i
      · subst isOwn
        refine Or.inr (Or.inr ⟨k, command, body, next, rfl, rfl, present, ?_, ?_⟩)
        · exact List.getElem?_set_self (List.getElem?_eq_some_iff.mp present).1
        · simp
      · exact Or.inl ⟨rfl, Function.update_of_ne (Ne.symm isOwn) _ _⟩
  | served present | replyLost present =>
      exact Or.inr (Or.inl ⟨_, _, by simp [World.received, present], rfl, rfl⟩)
  | delivered present => exact Or.inr (Or.inl ⟨_, _, present, rfl, rfl⟩)
  | _ => exact Or.inl ⟨rfl, rfl⟩

/-- A step leaves a file alone or writes the image of the memory. -/
theorem Step.file_at (edge : S.Step w event w') (blank : ι → δ) (i : ι) :
    (w.saver event ≠ some i ∧ w'.saved i = w.saved i) ∨
      (w.saver event = some i ∧ w'.memory = w.memory ∧
        w'.file blank i = S.image (w.memory i)) := by
  cases edge.transition with
  | @persisted k j command next present =>
      by_cases isOwn : j = i
      · subst isOwn
        exact Or.inr ⟨by simp [World.saver, present], rfl, by simp [World.file]⟩
      · refine Or.inl ⟨?_, Function.update_of_ne (Ne.symm isOwn) _ _⟩
        simpa [World.saver, present] using isOwn
  | _ => exact Or.inl ⟨by simp [World.saver], rfl⟩

theorem Step.persist_frame (edge : S.Step w event w') {n : Nat} {command : κ}
    {next : Program ς σ α μ φ ρ} (saves : event.saves)
    (present : w.threads[n]? = some ⟨i, command, .running (.persist next)⟩) :
    w'.threads[n]? = some ⟨i, command, .running (.persist next)⟩ ∨
      w.saver event = some i := by
  by_cases moves : ∃ move, event = .thread n move
  · obtain ⟨move, rfl⟩ := moves
    rcases (edge.of_persist present).1 with rfl | rfl
    · exact Or.inr (by simp [World.saver, present])
    · cases saves
  · exact Or.inl (edge.thread_frame (fun move same => moves ⟨move, same⟩) present)

theorem Step.savePending (edge : S.Step w event w')
    (saves : event.saves) (pending : w.SavePending i) :
    w'.SavePending i ∨ w.saver event = some i := by
  obtain ⟨⟨j, command, activity⟩, member, next, rfl, rfl⟩ := pending
  obtain ⟨n, present⟩ := List.mem_iff_getElem?.mp member
  rcases edge.persist_frame saves present with still | isSaver
  · exact Or.inl ⟨_, List.mem_of_getElem? still, next, rfl, rfl⟩
  · exact Or.inr isSaver

theorem Step.synced_of_saver (edge : S.Step w event w') (isSaver : w.saver event = some i) :
    w'.Synced S blank i := by
  rcases edge.file_at blank i with ⟨notSaver, -⟩ | ⟨-, same, holds⟩
  · exact (notSaver isSaver).elim
  · unfold World.Synced
    rw [holds, same]

theorem Step.synced_of_image (edge : S.Step w event w')
    (saves : event.saves) (sameFile : w'.saved i = w.saved i)
    (sameImage : S.image (w'.memory i) = S.image (w.memory i))
    (before : w.Synced S blank i ∨ w.SavePending i) :
    w'.Synced S blank i ∨ w'.SavePending i := by
  rcases before with synced | pending
  · apply Or.inl
    unfold World.Synced World.file at synced ⊢
    rw [sameFile, sameImage, synced]
  · rcases edge.savePending saves pending with still | isSaver
    · exact Or.inr still
    · exact Or.inl (edge.synced_of_saver isSaver)

/-- If sections that change the image are followed by a write, and the messages
that are handled do not change it, then the file holds the image unless a write
is pending. -/
theorem Step.synced_or_savePending (edge : S.Step w event w')
    (saves : event.saves)
    (sections : ∀ (k : Nat) (command : κ) (body : ς) (next : σ → Program ς σ α μ φ ρ),
      w.threads[k]? = some ⟨i, command, .running (.locked body next)⟩ →
        S.image (S.execute body (w.memory i)) = S.image (w.memory i) ∨
          ∃ later, next (w.memory i) = .persist later)
    (messages : ∀ message, w.received event = some (i, message) →
      S.image (S.respond (w.memory i) message).2 = S.image (w.memory i))
    (before : w.Synced S blank i ∨ w.SavePending i) :
    w'.Synced S blank i ∨ w'.SavePending i := by
  rcases edge.memory_at i with ⟨-, same⟩ | ⟨j, message, isReceived, sameFile, changed⟩ |
    ⟨k, command, body, next, rfl, sameFile, present, present', changed⟩
  · rcases edge.file_at blank i with ⟨-, sameFile⟩ | ⟨isSaver, -⟩
    · exact edge.synced_of_image saves sameFile (by rw [same]) before
    · exact Or.inl (edge.synced_of_saver isSaver)
  · apply edge.synced_of_image saves (by rw [sameFile]) _ before
    by_cases isOwn : i = j
    · subst isOwn
      rw [changed, Function.update_self]
      exact messages message isReceived
    · rw [changed, Function.update_of_ne isOwn]
  · rcases sections k command body next present with same | ⟨later, persists⟩
    · exact edge.synced_of_image saves (by rw [sameFile]) (by rw [changed, same]) before
    · exact Or.inr ⟨_, List.mem_of_getElem? present', later, rfl, by rw [persists]⟩

end System

/-- A property of images that the steps of a run keep in memory holds of the
file at the end, if it has held of the file or the file has been written. -/
theorem file_of_run {trace : List (World ι κ ς σ α μ φ ρ δ × Event ι κ φ)}
    {first last : World ι κ ς σ α μ φ ρ δ} (holds : δ → Prop)
    (run : Run S.Step first trace last)
    (kept : ∀ entry ∈ trace, ∀ next, S.Step entry.1 entry.2 next →
      holds (S.image (entry.1.memory i)) → holds (S.image (next.memory i)))
    (initially : holds (S.image (first.memory i))) :
    holds (S.image (last.memory i)) ∧
      (holds (last.file blank i) ↔
        holds (first.file blank i) ∨ ∃ entry ∈ trace, entry.1.saver entry.2 = some i) := by
  induction run with
  | refl => exact ⟨initially, by simp⟩
  | @tail trace middle last event run edge ih =>
      obtain ⟨inMemory, inFile⟩ := ih fun entry member =>
        kept entry (List.mem_append_left _ member)
      refine ⟨kept (middle, event) (by simp) last edge inMemory, ?_⟩
      rcases edge.file_at blank i with ⟨notSaver, sameFile⟩ | ⟨isSaver, -, written⟩
      · have same : last.file blank i = middle.file blank i := by
          unfold World.file
          rw [sameFile]
        rw [same, inFile]
        simp [or_and_right, exists_or, notSaver]
      · rw [written]
        simp [or_and_right, exists_or, isSaver, inMemory]

theorem saved_of_run {trace : List (World ι κ ς σ α μ φ ρ δ × Event ι κ φ)}
    {first last : World ι κ ς σ α μ φ ρ δ} {n : Nat} {command : κ}
    {next : Program ς σ α μ φ ρ} (run : Run S.Step first trace last)
    (saves : ∀ entry ∈ trace, entry.2.saves)
    (present : first.threads[n]? = some ⟨i, command, .running (.persist next)⟩) :
    last.threads[n]? = some ⟨i, command, .running (.persist next)⟩ ∨
      ∃ entry ∈ trace, entry.1.saver entry.2 = some i := by
  induction run with
  | refl => exact Or.inl present
  | @tail trace middle last event run edge ih =>
      rcases ih fun entry member => saves entry (List.mem_append_left _ member) with
        waiting | ⟨entry, member, isSaver⟩
      · rcases edge.persist_frame (saves (middle, event) (by simp)) waiting with
          still | isSaver
        · exact Or.inl still
        · exact Or.inr ⟨(middle, event), by simp, isSaver⟩
      · exact Or.inr ⟨entry, List.mem_append_left _ member, isSaver⟩

end LockedProcesses
