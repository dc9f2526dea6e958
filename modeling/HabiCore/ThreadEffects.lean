import HabiCore.IsolatedRuns
import HabiCore.OpenPrograms

/-!
# What threads do for others

A step of a run shows others something of the thread that moves, it may put a
message in flight, and it may let a process handle one.
-/

namespace LockedProcesses

open LabelledRuns

variable {ι κ ς σ α μ φ ρ δ : Type}

def Activity.awaited : Activity ι ς σ α μ φ ρ → List (ι × μ)
  | .waiting peer message _ => [(peer, message)]
  | _ => []

/-- The message that a step lets a process handle. -/
def World.handledBy (w : World ι κ ς σ α μ φ ρ δ) : Event ι κ φ → List (ι × μ)
  | .thread k .served | .thread k (.replyLost _) =>
      (w.threads[k]?.map (·.activity.awaited)).getD []
  | .delivered m => w.inFlight[m]?.toList
  | _ => []

theorem World.mem_handledBy {w : World ι κ ς σ α μ φ ρ δ} {event : Event ι κ φ} {sent : ι × μ} :
    sent ∈ w.handledBy event ↔
      (∃ m, event = .delivered m ∧ w.inFlight[m]? = some sent) ∨
      ∃ k, (event = .thread k .served ∨ ∃ failure, event = .thread k (.replyLost failure)) ∧
        ∃ i command next, w.threads[k]? = some ⟨i, command, .waiting sent.1 sent.2 next⟩ := by
  have waiting : ∀ k : Nat, sent ∈ (w.threads[k]?.map (·.activity.awaited)).getD [] ↔
      ∃ i command next, w.threads[k]? = some ⟨i, command, .waiting sent.1 sent.2 next⟩ := by
    intro k
    cases present : w.threads[k]? with
    | none => simp
    | some thread =>
        obtain ⟨i, command, program | ⟨peer, message, next⟩ | reply⟩ := thread
        · simp [Activity.awaited]
        · simp [Activity.awaited, Prod.ext_iff, eq_comm]
        · simp [Activity.awaited]
  cases event with
  | started | lost => simp [handledBy]
  | delivered m => simp [handledBy, eq_comm]
  | thread k move =>
      cases move with
      | served | replyLost => simpa [handledBy] using waiting k
      | _ => simp [handledBy]

def handled (trace : List (World ι κ ς σ α μ φ ρ δ × Event ι κ φ)) : List (ι × μ) :=
  trace.flatMap fun entry => entry.1.handledBy entry.2

namespace System

variable (S : System ι κ ς σ α μ φ ρ δ)

/-- The message that a step puts in flight. -/
def releasedBy (w : World ι κ ς σ α μ φ ρ δ) : Event ι κ φ → List (ι × μ)
  | .thread k move =>
      match move, w.threads[k]?.map Thread.activity with
      | .sent, some (.running (.send address message _)) => S.escaping true address message
      | .failed _ escaped, some (.running (.send address message _))
      | .failed _ escaped, some (.running (.exchange address message _)) =>
          S.escaping escaped address message
      | .failed _ escaped, some (.waiting peer message _) =>
          if escaped then [(peer, message)] else []
      | _, _ => []
  | _ => []

def released (trace : List (World ι κ ς σ α μ φ ρ δ × Event ι κ φ)) : List (ι × μ) :=
  trace.flatMap fun entry => S.releasedBy entry.1 entry.2

/-- The step tries to send the message to the process, which it does not reach. -/
def FailsToSend (w : World ι κ ς σ α μ φ ρ δ) (event : Event ι κ φ) (sent : ι × μ) : Prop :=
  ∃ k failure i command address next, event = .thread k (.failed failure false) ∧
    w.threads[k]? = some ⟨i, command, .running (.send address sent.2 next)⟩ ∧
    S.listener address = some sent.1

def answerOf : Option μ → Except φ μ
  | some reply => .ok reply
  | none => .error S.unanswered

def effectsOfMove (w : World ι κ ς σ α μ φ ρ δ) :
    Move φ → Activity ι ς σ α μ φ ρ → List (Effect α μ φ)
  | .persisted, .running (.persist _) | .notPersisted, .running (.persist _) => [.persisted]
  | .requested, .running (.exchange address message _) => [.asked address message]
  | .served, .waiting peer message _ =>
      [.answered (S.answerOf (S.respond (w.memory peer) message).1)]
  | .sent, .running (.send address message _) => [.sent address message (.ok ())]
  | .failed failure _, .running (.exchange address message _) =>
      [.asked address message, .answered (.error failure)]
  | .failed failure _, .running (.send address message _) =>
      [.sent address message (.error failure)]
  | .failed failure _, .waiting .. | .replyLost failure, .waiting .. =>
      [.answered (.error failure)]
  | _, _ => []

def effectsOf (k : Nat) (w : World ι κ ς σ α μ φ ρ δ) : Event ι κ φ → List (Effect α μ φ)
  | .thread k' move =>
      if k' = k then (w.threads[k]?.map (S.effectsOfMove w move ·.activity)).getD [] else []
  | _ => []

/-- What others have seen of the thread `k` in a run. -/
def effects (k : Nat) (trace : List (World ι κ ς σ α μ φ ρ δ × Event ι κ φ)) :
    List (Effect α μ φ) :=
  trace.flatMap fun entry => S.effectsOf k entry.1 entry.2

/-- The effects contain the message as one that is addressed to the process. -/
def Contacted (effects : List (Effect α μ φ)) (sent : ι × μ) : Prop :=
  ∃ address, S.listener address = some sent.1 ∧
    (address, sent.2) ∈ effects.filterMap Effect.addressed

def Asked (effects : List (Effect α μ φ)) (sent : ι × μ) : Prop :=
  ∃ address, S.listener address = some sent.1 ∧ .asked address sent.2 ∈ effects

variable {S} {k : Nat}

theorem effectsOf_thread {w : World ι κ ς σ α μ φ ρ δ} {move : Move φ} {i : ι} {command : κ}
    {activity : Activity ι ς σ α μ φ ρ} (present : w.threads[k]? = some ⟨i, command, activity⟩) :
    S.effectsOf k w (.thread k move) = S.effectsOfMove w move activity := by
  simp [effectsOf, present]

theorem answered_eq (next : Except φ μ → Program ς σ α μ φ ρ) (reply : Option μ) :
    S.answered next reply = next (S.answerOf reply) := by
  cases reply <;> rfl

theorem Contacted.mono {effects effects' : List (Effect α μ φ)} {sent : ι × μ}
    (contacted : S.Contacted effects sent) (more : effects ⊆ effects') :
    S.Contacted effects' sent := by
  obtain ⟨address, listening, member⟩ := contacted
  obtain ⟨effect, isEffect, addressed⟩ := List.mem_filterMap.mp member
  exact ⟨address, listening, List.mem_filterMap.mpr ⟨effect, more isEffect, addressed⟩⟩

theorem Asked.mono {effects effects' : List (Effect α μ φ)} {sent : ι × μ}
    (asked : S.Asked effects sent) (more : effects ⊆ effects') : S.Asked effects' sent := by
  obtain ⟨address, listening, member⟩ := asked
  exact ⟨address, listening, more member⟩

theorem Asked.contacted {effects : List (Effect α μ φ)} {sent : ι × μ}
    (asked : S.Asked effects sent) : S.Contacted effects sent := by
  obtain ⟨address, listening, member⟩ := asked
  exact ⟨address, listening, List.mem_filterMap.mpr ⟨_, member, rfl⟩⟩

theorem mem_escaping {escaped : Bool} {address : α} {message : μ} {sent : ι × μ} :
    sent ∈ S.escaping escaped address message ↔
      escaped = true ∧ S.listener address = some sent.1 ∧ message = sent.2 := by
  unfold escaping
  split
  · rename_i peer listening
    rw [List.mem_singleton, listening, Option.some_inj]
    constructor
    · rintro rfl
      exact ⟨rfl, rfl, rfl⟩
    · rintro ⟨-, rfl, rfl⟩
      rfl
  · rename_i noEscape
    refine iff_of_false List.not_mem_nil ?_
    rintro ⟨rfl, listening, -⟩
    exact noEscape _ rfl listening

section Attempts

variable {w : World ι κ ς σ α μ φ ρ δ} {event : Event ι κ φ}

theorem sent_mem_effectsOf {address : α} {message : μ} {result : Except φ Unit} :
    .sent address message result ∈ S.effectsOf k w event ↔
      ∃ i command next, w.threads[k]? = some ⟨i, command, .running (.send address message next)⟩ ∧
        ((event = .thread k .sent ∧ result = .ok ()) ∨
          ∃ failure escaped, event = .thread k (.failed failure escaped) ∧
            result = .error failure) := by
  constructor
  · intro member
    cases event with
    | thread j move =>
        by_cases same : j = k
        · subst same
          cases present : w.threads[j]? with
          | none => simp [effectsOf, present] at member
          | some thread =>
              obtain ⟨i, command, activity⟩ := thread
              rw [effectsOf_thread present] at member
              unfold effectsOfMove at member
              split at member
              all_goals simp only [List.mem_cons, List.not_mem_nil, Effect.sent.injEq, or_false,
                reduceCtorEq] at member
              · obtain ⟨rfl, rfl, rfl⟩ := member
                exact ⟨i, command, _, rfl, Or.inl ⟨rfl, rfl⟩⟩
              · obtain ⟨rfl, rfl, rfl⟩ := member
                exact ⟨i, command, _, rfl, Or.inr ⟨_, _, rfl, rfl⟩⟩
        · simp [effectsOf, same] at member
    | _ => cases member
  · rintro ⟨i, command, next, present, ⟨rfl, rfl⟩ | ⟨failure, escaped, rfl, rfl⟩⟩
    · simp [effectsOf_thread present, effectsOfMove]
    · simp [effectsOf_thread present, effectsOfMove]

/-- An attempt to send releases the message, or fails. -/
theorem released_or_failsToSend {address : α} {peer : ι} {message : μ} {result : Except φ Unit}
    (member : .sent address message result ∈ S.effectsOf k w event)
    (listening : S.listener address = some peer) :
    (peer, message) ∈ S.releasedBy w event ∨ S.FailsToSend w event (peer, message) := by
  obtain ⟨i, command, next, present, ⟨rfl, -⟩ | ⟨failure, escaped, rfl, -⟩⟩ :=
    sent_mem_effectsOf.mp member
  · refine Or.inl ?_
    simp only [releasedBy, present, Option.map_some]
    exact mem_escaping.mpr ⟨rfl, listening, rfl⟩
  · cases escaped with
    | true =>
        refine Or.inl ?_
        simp only [releasedBy, present, Option.map_some]
        exact mem_escaping.mpr ⟨rfl, listening, rfl⟩
    | false => exact Or.inr ⟨k, failure, i, command, address, next, rfl, present, listening⟩

end Attempts

section InFlight

variable [DecidableEq ι] {w w' : World ι κ ς σ α μ φ ρ δ} {event : Event ι κ φ} {sent : ι × μ}

theorem inFlight_thread {move : Move φ} (edge : S.Step w (.thread k move) w') :
    w'.inFlight = w.inFlight ++ S.releasedBy w (.thread k move) := by
  cases edge.transition with
  | sent present listening => simp [releasedBy, present, escaping, listening]
  | exchangeFailed present | sendFailed present | waitFailed present =>
      simp [releasedBy, present]
  | _ => simp [releasedBy]

theorem inFlight_or_released (edge : S.Step w event w') (member : sent ∈ w'.inFlight) :
    sent ∈ w.inFlight ∨ sent ∈ S.releasedBy w event := by
  cases event with
  | started i command =>
      cases edge
      exact Or.inl member
  | thread k move =>
      rw [inFlight_thread edge] at member
      exact List.mem_append.mp member
  | delivered m =>
      obtain ⟨other, -, rfl⟩ := Option.map_eq_some_iff.mp edge
      exact Or.inl (List.mem_of_mem_eraseIdx member)
  | lost m =>
      cases edge
      exact Or.inl (List.mem_of_mem_eraseIdx member)

/-- A message stays in flight until it is handled or lost. -/
theorem inFlight_or_handled (edge : S.Step w event w') (kept : ∀ m, event ≠ .lost m)
    (member : sent ∈ w.inFlight) : sent ∈ w'.inFlight ∨ sent ∈ w.handledBy event := by
  cases event with
  | started i command =>
      cases edge
      exact Or.inl member
  | thread k move =>
      rw [inFlight_thread edge]
      exact Or.inl (List.mem_append_left _ member)
  | delivered m =>
      obtain ⟨other, flying, rfl⟩ := Option.map_eq_some_iff.mp edge
      obtain ⟨n, found⟩ := List.mem_iff_getElem?.mp member
      by_cases same : n = m
      · subst same
        exact Or.inr (World.mem_handledBy.mpr (Or.inl ⟨n, rfl, found⟩))
      · exact Or.inl (List.mem_eraseIdx_iff_getElem?.mpr ⟨n, same, found⟩)
  | lost m => exact (kept m rfl).elim

theorem inFlight_of_released (edge : S.Step w event w') (member : sent ∈ S.releasedBy w event) :
    sent ∈ w'.inFlight := by
  cases event with
  | thread k move =>
      rw [inFlight_thread edge]
      exact List.mem_append_right _ member
  | _ => cases member

end InFlight

end System

end LockedProcesses
