import HabiCore.EncodedMessages
import Mathlib.Data.List.Forall2

/-!
# Every run can be written down

The runs of processes that write their messages down are runs of processes that
exchange the messages.  Conversely, a run can be written down if all that comes
into it from outside can: its commands and its failures.
-/

namespace LockedProcesses

namespace Shows

variable {A B : Type*} {hidden : A → Prop} {related : A → B → Prop}
  {full : List A} {shown : List B}

theorem set_shown (shows : Shows hidden related full shown) {k' : Nat} {b : B}
    (present : shown[k']? = some b) :
    ∃ k a, full[k]? = some a ∧ related a b ∧
      ∀ a' b', related a' b' → Shows hidden related (full.set k a') (shown.set k' b') := by
  induction shows generalizing k' with
  | nil => simp at present
  | @hide first full shown isHidden rest ih =>
      obtain ⟨k, a, found, isRelated, replaced⟩ := ih present
      exact ⟨k + 1, a, by simpa using found, isRelated, fun a' b' other =>
        .hide isHidden (replaced a' b' other)⟩
  | @view first last full shown isRelated rest ih =>
      cases k' with
      | zero =>
          obtain rfl : last = b := by simpa using present
          exact ⟨0, first, rfl, isRelated, fun a' b' other => .view other rest⟩
      | succ k' =>
          obtain ⟨k, a, found, isRelated', replaced⟩ := ih (by simpa using present)
          exact ⟨k + 1, a, by simpa using found, isRelated', fun a' b' other =>
            .view isRelated (replaced a' b' other)⟩

end Shows

namespace Codec

variable {ι ς σ α κ μ φ ρ δ κ' μ' φ' ρ' δ' : Type} {c : Codec κ μ φ ρ δ κ' μ' φ' ρ' δ'}

/-- What the event brings in from outside can be written down. -/
def Writable (c : Codec κ μ φ ρ δ κ' μ' φ' ρ' δ') : Event ι κ φ → Prop
  | .started _ command => ∃ text, c.readCommand text = .ok command
  | .thread _ (.failed failure _) | .thread _ (.replyLost failure) =>
      ∃ failure', c.failure failure' = failure
  | _ => True

variable {S : System ι κ ς σ α μ φ ρ δ} {w next : World ι κ ς σ α μ φ ρ δ}
  {w' : World ι κ' ς σ α μ' φ' ρ' δ'} {event : Event ι κ φ}

theorem Writes.followed (writes : c.Writes w' w) {k : Nat} {i : ι} {command : κ}
    {a : Activity ι ς σ α μ φ ρ} (present : w.threads[k]? = some ⟨i, command, a⟩) :
    ∃ k' text, w'.threads[k']? = some ⟨i, text, c.activity a⟩ ∧
      ∀ b, Shows c.Refused c.Follows (w'.threads.set k' ⟨i, text, c.activity b⟩)
        (w.threads.set k ⟨i, command, b⟩) := by
  obtain ⟨k', ⟨j, text, activity'⟩, found, ⟨read, same, isActivity⟩, replaced⟩ :=
    writes.threads.set_shown present
  obtain rfl : j = i := same
  obtain rfl : activity' = c.activity a := isActivity
  exact ⟨k', text, found, fun b => replaced _ _ ⟨read, rfl, rfl⟩⟩

/-- A step can be taken in writing. -/
theorem Writes.written_step [DecidableEq ι] (writes : c.Writes w' w) (legible : c.Legible S w)
    (closed : c.failure c.closed = S.unanswered) (writable : c.Writable event)
    (edge : S.Step w event next) :
    ∃ event' next', (S.written c).Step w' event' next' ∧ c.SameEvent event' event ∧
      c.Writes next' next := by
  obtain ⟨memory, saved, threads, inFlight⟩ := writes
  have writes : c.Writes w' w := ⟨memory, saved, threads, inFlight⟩
  cases edge.transition with
  | started i command =>
      obtain ⟨text, read⟩ := writable
      refine ⟨.started i text, _, rfl, ⟨rfl, read⟩, memory, saved, ?_, inFlight⟩
      refine threads.append_shown ⟨read, rfl, ?_⟩
      simp [System.written, read, activity]
  | @locked k i command body onward present =>
      obtain ⟨k', text, found, replaced⟩ := writes.followed present
      refine ⟨.thread k' .locked, _, (System.Transition.locked found).step, rfl, ?_, saved, ?_,
        inFlight⟩
      · simp [System.written, memory]
      · rw [memory]
        exact replaced (.running (onward (w.memory i)))
  | @persisted k i command onward present =>
      obtain ⟨k', text, found, replaced⟩ := writes.followed present
      refine ⟨.thread k' .persisted, _, (System.Transition.persisted found).step, rfl, memory,
        fun j => ?_, replaced (.running onward), inFlight⟩
      by_cases same : j = i
      · subst same
        simp [System.written, memory]
      · simp [same, saved j]
  | @notPersisted k i command onward present =>
      obtain ⟨k', text, found, replaced⟩ := writes.followed present
      exact ⟨.thread k' .notPersisted, _, (System.Transition.notPersisted found).step, rfl,
        memory, saved, replaced (.running onward), inFlight⟩
  | @requested k i peer command address request onward present listening =>
      obtain ⟨k', text, found, replaced⟩ := writes.followed present
      have listening : (S.written c).listener address = some peer := listening
      exact ⟨.thread k' .requested, _, (System.Transition.requested found listening).step, rfl,
        memory, saved, replaced (.waiting peer request onward), inFlight⟩
  | @served k i peer command request onward present =>
      obtain ⟨k', text, found, replaced⟩ := writes.followed present
      have handles : w.Handles (.thread k .served : Event ι κ φ) peer request :=
        Or.inr ⟨_, _, _, _, _, rfl, present⟩
      have read := legible.message _ _ _ handles
      refine ⟨.thread k' .served, _, (System.Transition.served found).step, rfl, ?_, saved, ?_,
        inFlight⟩
      · simp [System.written, memory, read]
      · have goesOn := written_answered closed onward
          fun reply => legible.reply _ _ _ reply handles
        have answered := replaced
          (.running (S.answered onward (S.respond (w.memory peer) request).1))
        rw [activity, ← goesOn] at answered
        simpa [System.written, read, memory] using answered
  | @sent k i peer command address notice onward present listening =>
      obtain ⟨k', text, found, replaced⟩ := writes.followed present
      have listening : (S.written c).listener address = some peer := listening
      refine ⟨.thread k' .sent, _, (System.Transition.sent found listening).step, rfl, memory,
        saved, replaced (.running (onward (.ok ()))), ?_⟩
      simp [inFlight, sent]
  | @replied k i command reply present =>
      obtain ⟨k', text, found, replaced⟩ := writes.followed present
      exact ⟨.thread k' .replied, _, (System.Transition.replied found).step, rfl, memory, saved,
        replaced (.replied reply), inFlight⟩
  | @exchangeFailed k i command address request onward failure escaped present =>
      obtain ⟨failure', rfl⟩ := writable
      obtain ⟨k', text, found, replaced⟩ := writes.followed present
      refine ⟨.thread k' (.failed failure' escaped), _,
        (System.Transition.exchangeFailed found).step, rfl, memory, saved,
        replaced (.running (onward (.error (c.failure failure')))), ?_⟩
      simp [inFlight, written_escaping]
  | @sendFailed k i command address notice onward failure escaped present =>
      obtain ⟨failure', rfl⟩ := writable
      obtain ⟨k', text, found, replaced⟩ := writes.followed present
      refine ⟨.thread k' (.failed failure' escaped), _,
        (System.Transition.sendFailed found).step, rfl, memory, saved,
        replaced (.running (onward (.error (c.failure failure')))), ?_⟩
      simp [inFlight, written_escaping]
  | @waitFailed k i peer command request onward failure escaped present =>
      obtain ⟨failure', rfl⟩ := writable
      obtain ⟨k', text, found, replaced⟩ := writes.followed present
      refine ⟨.thread k' (.failed failure' escaped), _,
        (System.Transition.waitFailed found).step, rfl, memory, saved,
        replaced (.running (onward (.error (c.failure failure')))), ?_⟩
      cases escaped <;> simp [inFlight, sent]
  | @replyLost k i peer command request onward failure present =>
      obtain ⟨failure', rfl⟩ := writable
      obtain ⟨k', text, found, replaced⟩ := writes.followed present
      have handles : w.Handles (.thread k (.replyLost (c.failure failure')) : Event ι κ φ) peer
          request := Or.inr ⟨_, _, _, _, _, rfl, present⟩
      have read := legible.message _ _ _ handles
      refine ⟨.thread k' (.replyLost failure'), _, (System.Transition.replyLost found).step, rfl,
        ?_, saved, replaced (.running (onward (.error (c.failure failure')))), inFlight⟩
      simp [System.written, memory, read]
  | @delivered m peer message present =>
      have handles : w.Handles (.delivered m : Event ι κ φ) peer message :=
        Or.inl ⟨m, rfl, present⟩
      have read := legible.message _ _ _ handles
      have found : w'.inFlight[m]? = some (peer, c.write message) := by
        simp [inFlight, present, sent]
      refine ⟨.delivered m, _, (System.Transition.delivered found).step, rfl, ?_, saved, threads,
        ?_⟩
      · simp [System.written, memory, read]
      · rw [inFlight, eraseIdx_map_sent]
  | lost m =>
      exact ⟨.lost m, _, rfl, rfl, memory, saved, threads, by rw [inFlight, eraseIdx_map_sent]⟩

variable [DecidableEq ι] {K : Type} [Preorder K] {C : Contract K ι κ ς σ α μ ρ}
  {known : (ι → σ) → K} {commands : κ → Prop}

/-- A run can be taken in writing, event by event. -/
theorem Faithful.written_run (faithful : c.Faithful C) (kept : C.Kept S known commands)
    (closed : c.failure c.closed = S.unanswered) {start last : World ι κ ς σ α μ φ ρ δ}
    {start' : World ι κ' ς σ α μ' φ' ρ' δ'} {trace : List (World ι κ ς σ α μ φ ρ δ × Event ι κ φ)}
    (writes : c.Writes start' start) (complies : C.Complies (known start.memory) start)
    (run : LabelledRuns.Run S.Step start trace last)
    (allowed : ∀ entry ∈ trace, entry.2.Starts commands ∧ c.Writable entry.2) :
    ∃ trace' last', LabelledRuns.Run (S.written c).Step start' trace' last' ∧
      c.Writes last' last ∧ C.Complies (known last.memory) last ∧
      List.Forall₂ (fun entry' entry => c.Writes entry'.1 entry.1 ∧
        c.SameEvent entry'.2 entry.2 ∧ entry.2.Starts commands) trace' trace := by
  induction run with
  | refl => exact ⟨[], start', .refl, writes, complies, .nil⟩
  | @tail trace middle last event run edge ih =>
      obtain ⟨trace', middle', run', writesMiddle, compliesMiddle, together⟩ :=
        ih fun entry member => allowed entry (List.mem_append_left _ member)
      obtain ⟨starts, writable⟩ := allowed (middle, event) (by simp)
      obtain ⟨event', last', step', same, writesLast⟩ :=
        writesMiddle.written_step (faithful.legible kept compliesMiddle) closed writable edge
      exact ⟨_, last', run'.tail step', writesLast,
        kept.step compliesMiddle starts (Or.inr faithful.request) edge,
        List.rel_append together (.cons ⟨writesMiddle, same, starts⟩ .nil)⟩

end Codec

end LockedProcesses
