import HabiCore.LockedProcesses

/-!
# The history of a run

A thread changes the memory of a process by a critical section of its own or by
a message that the process handles.  The history of a lossless run lists these
effects in order, each with the thread it comes from, and says which threads
have sent the messages that are in flight.
-/

namespace LockedProcesses

variable {ι κ ς σ α μ φ ρ δ : Type}

/-- A section that the thread has run in its process, or a message of the thread
that the process has handled. -/
structure MemoryEffect (ι ς μ : Type) where
  thread : Nat
  process : ι
  cause : ς ⊕ μ

/-- The threads that have sent the messages in flight, in the order of these
messages, and the effects so far. -/
structure History (ι ς μ : Type) where
  senders : List Nat
  effects : List (MemoryEffect ι ς μ)

def System.perform (S : System ι κ ς σ α μ φ ρ δ) : ς ⊕ μ → σ → σ
  | .inl body, found => S.execute body found
  | .inr message, found => (S.respond found message).2

namespace History

variable (h : History ι ς μ)

def effect (w : World ι κ ς σ α μ φ ρ δ) : Event ι κ φ → Option (MemoryEffect ι ς μ)
  | .thread k .locked =>
      match w.threads[k]? with
      | some ⟨i, _, .running (.locked body _)⟩ => some ⟨k, i, .inl body⟩
      | _ => none
  | .thread k .served =>
      match w.threads[k]? with
      | some ⟨_, _, .waiting peer message _⟩ => some ⟨k, peer, .inr message⟩
      | _ => none
  | .delivered m =>
      match h.senders[m]?, w.inFlight[m]? with
      | some k, some (peer, message) => some ⟨k, peer, .inr message⟩
      | _, _ => none
  | _ => none

def sendersAfter : Event ι κ φ → List Nat
  | .thread k .sent => h.senders ++ [k]
  | .delivered m => h.senders.eraseIdx m
  | _ => h.senders

def record (w : World ι κ ς σ α μ φ ρ δ) (event : Event ι κ φ) : History ι ς μ :=
  ⟨h.sendersAfter event, h.effects ++ (h.effect w event).toList⟩

/-- The thread has had one of the given effects on the process, is about to run
such a section, or has sent such a message that is in flight. -/
def Includes (w : World ι κ ς σ α μ φ ρ δ) (k : Nat) (i : ι) (causes : ς ⊕ μ → Prop) : Prop :=
  (∃ effect ∈ h.effects, effect.thread = k ∧ effect.process = i ∧ causes effect.cause) ∨
  (∃ command body next, w.threads[k]? = some ⟨i, command, .running (.locked body next)⟩ ∧
    causes (.inl body)) ∨
  ∃ (m : Nat) (message : μ), h.senders[m]? = some k ∧ w.inFlight[m]? = some (i, message) ∧
    causes (.inr message)

end History

def history (trace : List (World ι κ ς σ α μ φ ρ δ × Event ι κ φ)) : History ι ς μ :=
  trace.foldl (fun h entry => h.record entry.1 entry.2) ⟨[], []⟩

theorem history_append (trace : List (World ι κ ς σ α μ φ ρ δ × Event ι κ φ))
    (entry : World ι κ ς σ α μ φ ρ δ × Event ι κ φ) :
    history (trace ++ [entry]) = (history trace).record entry.1 entry.2 := by
  simp [history]

variable {h : History ι ς μ} {w w' : World ι κ ς σ α μ φ ρ δ} {event : Event ι κ φ}
  {k : Nat} {i : ι} {causes : ς ⊕ μ → Prop}

namespace History

theorem Includes.of_quiescent (quiescent : w.Quiescent) (includes : h.Includes w k i causes) :
    ∃ effect ∈ h.effects, effect.thread = k ∧ effect.process = i ∧ causes effect.cause := by
  rcases includes with happened | ⟨command, body, next, running, -⟩ | ⟨m, message, -, flying, -⟩
  · exact happened
  · have replied := quiescent.1 _ (List.mem_of_getElem? running)
    simp [Activity.reply] at replied
  · simp [quiescent.2] at flying

theorem includes_of_effect {effect : MemoryEffect ι ς μ}
    (happens : h.effect w event = some effect) (isCause : causes effect.cause) :
    (h.record w event).Includes w' effect.thread effect.process causes :=
  Or.inl ⟨effect, by simp [record, happens], rfl, rfl, isCause⟩

variable [DecidableEq ι] {S : System ι κ ς σ α μ φ ρ δ}

theorem senders_step (counted : h.senders.length = w.inFlight.length)
    (edge : S.Step w event w') (lossless : event.Lossless) :
    (h.record w event).senders.length = w'.inFlight.length := by
  cases edge.transition with
  | sent => simp [record, sendersAfter, counted]
  | delivered => simp [record, sendersAfter, List.length_eraseIdx, counted]
  | exchangeFailed | sendFailed | waitFailed | replyLost | lost => exact lossless.elim
  | _ => exact counted

/-- A step has the effect that is recorded of it, and no other. -/
theorem memory_step (counted : h.senders.length = w.inFlight.length)
    (edge : S.Step w event w') (lossless : event.Lossless) :
    (h.effect w event = none ∧ w'.memory = w.memory) ∨
    ∃ effect, h.effect w event = some effect ∧ w'.memory =
      Function.update w.memory effect.process
        (S.perform effect.cause (w.memory effect.process)) := by
  cases edge.transition with
  | @locked k i command body next present =>
      exact Or.inr ⟨⟨k, i, .inl body⟩, by simp [effect, present], rfl⟩
  | @served k i peer command message next present =>
      exact Or.inr ⟨⟨k, peer, .inr message⟩, by simp [effect, present], rfl⟩
  | @delivered m peer message present =>
      have bound : m < h.senders.length := by
        rw [counted]
        exact (List.getElem?_eq_some_iff.mp present).1
      exact Or.inr ⟨⟨h.senders[m], peer, .inr message⟩, by simp [effect, present, bound], rfl⟩
  | exchangeFailed | sendFailed | waitFailed | replyLost | lost => exact lossless.elim
  | _ => exact Or.inl ⟨rfl, rfl⟩

/-- What a history includes it includes for good. -/
theorem Includes.step (includes : h.Includes w k i causes) (edge : S.Step w event w')
    (lossless : event.Lossless) : (h.record w event).Includes w' k i causes := by
  rcases includes with ⟨effect, member, isThread⟩ | ⟨command, body, next, running, isCause⟩ |
    ⟨m, message, sender, flying, isCause⟩
  · exact Or.inl ⟨effect, List.mem_append_left _ member, isThread⟩
  · by_cases moves : ∃ move, event = .thread k move
    · obtain ⟨move, rfl⟩ := moves
      obtain ⟨rfl, -⟩ := edge.of_locked running
      have happens : h.effect w (.thread k .locked : Event ι κ φ) = some ⟨k, i, .inl body⟩ := by
        simp [effect, running]
      exact includes_of_effect happens isCause
    · have stays := edge.thread_frame (fun move same => moves ⟨move, same⟩) running
      exact Or.inr (Or.inl ⟨command, body, next, stays, isCause⟩)
  · cases edge.transition with
    | sent =>
        refine Or.inr (Or.inr ⟨m, message, ?_, ?_, isCause⟩)
        · exact List.getElem?_append_left (List.getElem?_eq_some_iff.mp sender).1 ▸ sender
        · exact List.getElem?_append_left (List.getElem?_eq_some_iff.mp flying).1 ▸ flying
    | @delivered n peer message' present =>
        rcases Nat.lt_trichotomy m n with earlier | rfl | later
        · refine Or.inr (Or.inr ⟨m, message, ?_, ?_, isCause⟩)
          · simpa [record, sendersAfter, List.getElem?_eraseIdx, earlier] using sender
          · simpa [List.getElem?_eraseIdx, earlier] using flying
        · have happens : h.effect w (.delivered m : Event ι κ φ) = some ⟨k, i, .inr message⟩ := by
            simp [effect, sender, flying]
          exact includes_of_effect happens isCause
        · obtain ⟨before, rfl⟩ := Nat.exists_eq_add_of_lt later
          have notEarlier : ¬ n + before < n := by omega
          refine Or.inr (Or.inr ⟨n + before, message, ?_, ?_, isCause⟩)
          · simpa [record, sendersAfter, List.getElem?_eraseIdx, notEarlier] using sender
          · simpa [List.getElem?_eraseIdx, notEarlier] using flying
    | exchangeFailed | sendFailed | waitFailed | replyLost | lost => exact lossless.elim
    | _ => exact Or.inr (Or.inr ⟨m, message, sender, flying, isCause⟩)

/-- What a history newly includes comes from a request that is served, from a
message that is sent, or from a thread that comes to a section. -/
theorem Includes.origin (includes : (h.record w event).Includes w' k i causes)
    (counted : h.senders.length = w.inFlight.length) (edge : S.Step w event w')
    (lossless : event.Lossless) :
    h.Includes w k i causes ∨
    (∃ j command message next, event = .thread k .served ∧
      w.threads[k]? = some ⟨j, command, .waiting i message next⟩ ∧ causes (.inr message)) ∨
    (∃ j command address message next, event = .thread k .sent ∧
      w.threads[k]? = some ⟨j, command, .running (.send address message next)⟩ ∧
      S.listener address = some i ∧ causes (.inr message)) ∨
    ∃ command body next, w'.threads[k]? = some ⟨i, command, .running (.locked body next)⟩ ∧
      causes (.inl body) := by
  rcases includes with ⟨effect, member, rfl, rfl, isCause⟩ | running |
    ⟨m, message, sender, flying, isCause⟩
  · rcases List.mem_append.mp member with old | new
    · exact Or.inl (Or.inl ⟨effect, old, rfl, rfl, isCause⟩)
    · have happens := Option.mem_toList.mp new
      cases edge.transition with
      | @locked k i command body next present =>
          obtain rfl : ⟨k, i, .inl body⟩ = effect := by
            simpa [History.effect, present] using happens
          exact Or.inl (Or.inr (Or.inl ⟨command, body, next, present, isCause⟩))
      | @served k i peer command message next present =>
          obtain rfl : ⟨k, peer, .inr message⟩ = effect := by
            simpa [History.effect, present] using happens
          exact Or.inr (Or.inl ⟨i, command, message, next, rfl, present, isCause⟩)
      | @delivered m peer message present =>
          cases sender : h.senders[m]? with
          | none => simp [History.effect, sender] at happens
          | some k =>
              obtain rfl : ⟨k, peer, .inr message⟩ = effect := by
                simpa [History.effect, sender, present] using happens
              exact Or.inl (Or.inr (Or.inr ⟨m, message, sender, present, isCause⟩))
      | exchangeFailed | sendFailed | waitFailed | replyLost | lost => exact lossless.elim
      | _ => simp [History.effect] at happens
  · exact Or.inr (Or.inr (Or.inr running))
  · cases edge.transition with
    | @sent n j peer command address message' next present listening =>
        rcases Nat.lt_or_ge m w.inFlight.length with old | new
        · rw [List.getElem?_append_left old] at flying
          have sentBefore : h.senders[m]? = some k := by
            rw [← sender]
            exact (List.getElem?_append_left (counted ▸ old)).symm
          exact Or.inl (Or.inr (Or.inr ⟨m, message, sentBefore, flying, isCause⟩))
        · rw [List.getElem?_append_right new] at flying
          have isSender : (h.senders ++ [n])[m]? = some k := sender
          rw [List.getElem?_append_right (counted ▸ new)] at isSender
          obtain ⟨-, rfl, rfl⟩ : m - w.inFlight.length = 0 ∧ peer = i ∧ message' = message := by
            simpa [List.getElem?_singleton] using flying
          obtain ⟨-, rfl⟩ : m - h.senders.length = 0 ∧ n = k := by
            simpa [List.getElem?_singleton] using isSender
          exact Or.inr (Or.inr (Or.inl
            ⟨j, command, address, message', next, rfl, present, listening, isCause⟩))
    | @delivered n peer message' present =>
        have isSender : (h.senders.eraseIdx n)[m]? = some k := sender
        rw [List.getElem?_eraseIdx] at isSender flying
        split at isSender
        · rename_i earlier
          rw [if_pos earlier] at flying
          exact Or.inl (Or.inr (Or.inr ⟨m, message, isSender, flying, isCause⟩))
        · rename_i later
          rw [if_neg later] at flying
          exact Or.inl (Or.inr (Or.inr ⟨m + 1, message, isSender, flying, isCause⟩))
    | exchangeFailed | sendFailed | waitFailed | replyLost | lost => exact lossless.elim
    | _ => exact Or.inl (Or.inr (Or.inr ⟨m, message, sender, flying, isCause⟩))

end History

theorem getElem?_set_cases {threads : List (Thread ι κ ς σ α μ φ ρ)} {n : Nat}
    {other thread : Thread ι κ ς σ α μ φ ρ}
    (present : (threads.set n other)[k]? = some thread) :
    threads[k]? = some thread ∨ (n = k ∧ other = thread) := by
  rw [List.getElem?_set] at present
  split at present
  · rename_i same
    split at present
    · exact Or.inr ⟨same, Option.some_inj.mp present⟩
    · cases present
  · exact Or.inl present

theorem System.Step.program_origin [DecidableEq ι] {S : System ι κ ς σ α μ φ ρ δ}
    (edge : S.Step w event w') (lossless : event.Lossless) {command : κ}
    {program : Program ς σ α μ φ ρ}
    (running : w'.threads[k]? = some ⟨i, command, .running program⟩) :
    w.threads[k]? = some ⟨i, command, .running program⟩ ∨
    program = S.handler i command ∨
    (∃ body next, w.threads[k]? = some ⟨i, command, .running (.locked body next)⟩ ∧
      program = next (w.memory i)) ∨
    w.threads[k]? = some ⟨i, command, .running (.persist program)⟩ ∨
    (∃ peer message next, event = .thread k .served ∧
      w.threads[k]? = some ⟨i, command, .waiting peer message next⟩ ∧
      program = S.answered next (S.respond (w.memory peer) message).1) ∨
    ∃ address message next peer, event = .thread k .sent ∧
      w.threads[k]? = some ⟨i, command, .running (.send address message next)⟩ ∧
      S.listener address = some peer ∧ program = next (.ok ()) := by
  cases edge.transition with
  | started j command' =>
      rw [List.getElem?_append] at running
      split at running
      · exact Or.inl running
      · have isNew := List.mem_singleton.mp (List.mem_of_getElem? running)
        cases isNew
        exact Or.inr (Or.inl rfl)
  | locked present =>
      rcases getElem?_set_cases running with old | ⟨rfl, same⟩
      · exact Or.inl old
      · cases same
        exact Or.inr (Or.inr (Or.inl ⟨_, _, present, rfl⟩))
  | persisted present | notPersisted present =>
      rcases getElem?_set_cases running with old | ⟨rfl, same⟩
      · exact Or.inl old
      · cases same
        exact Or.inr (Or.inr (Or.inr (Or.inl present)))
  | served present =>
      rcases getElem?_set_cases running with old | ⟨rfl, same⟩
      · exact Or.inl old
      · cases same
        exact Or.inr (Or.inr (Or.inr (Or.inr (Or.inl ⟨_, _, _, rfl, present, rfl⟩))))
  | sent present listening =>
      rcases getElem?_set_cases running with old | ⟨rfl, same⟩
      · exact Or.inl old
      · cases same
        exact Or.inr (Or.inr (Or.inr (Or.inr (Or.inr
          ⟨_, _, _, _, rfl, present, listening, rfl⟩))))
  | requested | replied =>
      rcases getElem?_set_cases running with old | ⟨rfl, same⟩
      · exact Or.inl old
      · cases same
  | delivered => exact Or.inl running
  | exchangeFailed | sendFailed | waitFailed | replyLost | lost => exact lossless.elim

end LockedProcesses
