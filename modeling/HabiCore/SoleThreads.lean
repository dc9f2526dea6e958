import HabiCore.ThreadEffects
import Mathlib.Data.List.Nodup
import Mathlib.Data.List.Pairwise

/-!
# Threads that run alone

While only one command runs, exchanges may fail and messages may be on their way
for long.  The thread of the command then performs its program as in an open
environment, and the memory of every other process is what the messages that it
has handled have made of it.
-/

namespace LockedProcesses

open LabelledRuns

variable {ι κ ς σ α μ φ ρ δ : Type}

namespace System

variable {S : System ι κ ς σ α μ φ ρ δ} {k : Nat}

variable (S) in
def ActivityPerforms (mayAnswer : α → μ → Except φ μ → Prop) :
    Activity ι ς σ α μ φ ρ → σ → List (Effect α μ φ) → σ → ρ → Prop
  | .running program, found, effects, left, reply =>
      program.Performs S.execute mayAnswer found effects left reply
  | .waiting peer message next, found, effects, left, reply =>
      ∃ answer later, (∀ address, S.listener address = some peer →
          mayAnswer address message answer) ∧ effects = .answered answer :: later ∧
        (next answer).Performs S.execute mayAnswer found later left reply
  | .replied given, found, effects, left, reply =>
      effects = [] ∧ left = found ∧ reply = given

variable (S) in
def ActivityAsked (past : List (Effect α μ φ)) : Activity ι ς σ α μ φ ρ → Prop
  | .waiting peer message _ => S.Asked past (peer, message)
  | _ => True

/-- The thread `k` is the only one that has not replied.  What it has done and
still does is what its program performs on the memory it started with. -/
structure Sole (S : System ι κ ς σ α μ φ ρ δ) (mayAnswer : α → μ → Except φ μ → Prop) (k : Nat)
    (i : ι) (command : κ) (start : σ) (past : List (Effect α μ φ))
    (w : World ι κ ς σ α μ φ ρ δ) : Prop where
  others : ∀ j thread, j ≠ k → w.threads[j]? = some thread → thread.activity.reply.isSome
  inFlight : ∀ sent ∈ w.inFlight, S.Contacted past sent
  own : ∃ activity, w.threads[k]? = some ⟨i, command, activity⟩ ∧ S.ActivityAsked past activity ∧
    ∀ effects left reply, S.ActivityPerforms mayAnswer activity (w.memory i) effects left reply →
      (S.handler i command).Performs S.execute mayAnswer start (past ++ effects) left reply

/-- The program addresses nobody who listens at its own process. -/
def Outward (S : System ι κ ς σ α μ φ ρ δ) (mayAnswer : α → μ → Except φ μ → Prop) (i : ι)
    (program : Program ς σ α μ φ ρ) (start : σ) : Prop :=
  ∀ effects left reply, program.Performs S.execute mayAnswer start effects left reply →
    ∀ sent, S.Contacted effects sent → sent.1 ≠ i

/-- Every answer that the thread `k` may get in the world is admitted, failures
included. -/
def Admitted (S : System ι κ ς σ α μ φ ρ δ) (mayAnswer : α → μ → Except φ μ → Prop)
    (k : Nat) (w : World ι κ ς σ α μ φ ρ δ) : Prop :=
  ∀ i command peer message next address,
    w.threads[k]? = some ⟨i, command, .waiting peer message next⟩ →
    S.listener address = some peer →
      mayAnswer address message (S.answerOf (S.respond (w.memory peer) message).1)

theorem admitted_any (w : World ι κ ς σ α μ φ ρ δ) : Admitted S AnyAnswer k w :=
  fun _ _ _ _ _ _ _ _ => trivial

namespace Sole

variable {mayAnswer : α → μ → Except φ μ → Prop} {i : ι} {command : κ} {start : σ}
  {past : List (Effect α μ φ)} {w w' : World ι κ ς σ α μ φ ρ δ} {event : Event ι κ φ}

theorem number_eq (sole : Sole S mayAnswer k i command start past w) {j : Nat}
    {thread : Thread ι κ ς σ α μ φ ρ} (present : w.threads[j]? = some thread)
    (moves : thread.activity.reply = none) : j = k := by
  by_contra other
  have replied := sole.others j thread other present
  rw [moves] at replied
  cases replied

theorem thread_eq (sole : Sole S mayAnswer k i command start past w) {j : Nat} {x : ι} {other : κ}
    {activity : Activity ι ς σ α μ φ ρ} (present : w.threads[j]? = some ⟨x, other, activity⟩)
    (moves : activity.reply = none) :
    j = k ∧ x = i ∧ other = command ∧ S.ActivityAsked past activity := by
  obtain rfl := sole.number_eq present moves
  obtain ⟨activity', present', asked, -⟩ := sole.own
  rw [present'] at present
  obtain ⟨rfl, rfl, rfl⟩ : i = x ∧ command = other ∧ activity' = activity := by simpa using present
  exact ⟨rfl, rfl, rfl, asked⟩

theorem exists_end (failing : ∀ address message failure, mayAnswer address message (.error failure))
    (activity : Activity ι ς σ α μ φ ρ) (found : σ) :
    ∃ effects left reply, S.ActivityPerforms mayAnswer activity found effects left reply := by
  have answers : ∀ address message, ∃ answer, mayAnswer address message answer :=
    fun address message => ⟨_, failing address message S.unanswered⟩
  have results : Nonempty (Except φ Unit) := ⟨.ok ()⟩
  cases activity with
  | running program => exact Program.exists_performs answers results program found
  | waiting peer message next =>
      have ends : ∃ effects left reply, (next (.error S.unanswered)).Performs S.execute mayAnswer
          found effects left reply := Program.exists_performs answers results _ found
      obtain ⟨effects, left, reply, performs⟩ := ends
      exact ⟨_, left, reply, _, effects, fun _ _ => failing _ _ _, rfl, performs⟩
  | replied reply => exact ⟨[], found, reply, rfl, rfl, rfl⟩

theorem ne_of_contacted (sole : Sole S mayAnswer k i command start past w)
    (failing : ∀ address message failure, mayAnswer address message (.error failure))
    (outward : Outward S mayAnswer i (S.handler i command) start) {sent : ι × μ}
    (contacted : S.Contacted past sent) : sent.1 ≠ i := by
  obtain ⟨activity, -, -, continues⟩ := sole.own
  obtain ⟨effects, left, reply, performs⟩ := exists_end failing activity (w.memory i)
  exact outward _ _ _ (continues _ _ _ performs) sent
    (contacted.mono (List.subset_append_left _ _))

theorem resume {activity activity' : Activity ι ς σ α μ φ ρ} {now : List (Effect α μ φ)}
    (sole : Sole S mayAnswer k i command start past w)
    (present : w.threads[k]? = some ⟨i, command, activity⟩)
    (threads : w'.threads = w.threads.set k ⟨i, command, activity'⟩)
    (inFlight : ∀ sent ∈ w'.inFlight, sent ∈ w.inFlight ∨ S.Contacted (past ++ now) sent)
    (asked : S.ActivityAsked (past ++ now) activity')
    (performs : ∀ effects left reply,
      S.ActivityPerforms mayAnswer activity' (w'.memory i) effects left reply →
        S.ActivityPerforms mayAnswer activity (w.memory i) (now ++ effects) left reply) :
    Sole S mayAnswer k i command start (past ++ now) w' := by
  obtain ⟨activity₀, present₀, -, continues⟩ := sole.own
  obtain rfl : activity = activity₀ := by
    rw [present₀] at present
    simpa using present.symm
  refine ⟨fun j thread other found => ?_, fun sent member => ?_, activity', ?_, asked, ?_⟩
  · rw [threads, List.getElem?_set_ne (Ne.symm other)] at found
    exact sole.others j thread other found
  · rcases inFlight sent member with old | contacted
    · exact (sole.inFlight sent old).mono (List.subset_append_left _ _)
    · exact contacted
  · rw [threads]
    exact List.getElem?_set_self (List.getElem?_eq_some_iff.mp present).1
  · intro effects left reply later
    rw [List.append_assoc]
    exact continues _ _ _ (performs _ _ _ later)

theorem contacted_of_escaping {escaped : Bool} {address : α} {message : μ}
    {effect : Effect α μ φ} {now : List (Effect α μ φ)} {sent : ι × μ}
    (addressed : effect.addressed = some (address, message)) (isNow : effect ∈ now)
    (member : sent ∈ S.escaping escaped address message) : S.Contacted (past ++ now) sent := by
  obtain ⟨-, listening, rfl⟩ := mem_escaping.mp member
  exact ⟨address, listening,
    List.mem_filterMap.mpr ⟨effect, List.mem_append_right _ isNow, addressed⟩⟩

theorem waiting_ne (sole : Sole S mayAnswer k i command start past w)
    (failing : ∀ address message failure, mayAnswer address message (.error failure))
    (outward : Outward S mayAnswer i (S.handler i command) start) {peer : ι} {message : μ}
    {next : Except φ μ → Program ς σ α μ φ ρ}
    (present : w.threads[k]? = some ⟨i, command, .waiting peer message next⟩) : peer ≠ i := by
  obtain ⟨-, -, -, asked⟩ := sole.thread_eq present rfl
  exact sole.ne_of_contacted failing outward asked.contacted

theorem handledBy_contacted (sole : Sole S mayAnswer k i command start past w) {sent : ι × μ}
    (member : sent ∈ w.handledBy event) :
    S.Asked past sent ∨ sent ∈ w.inFlight := by
  rcases World.mem_handledBy.mp member with ⟨m, -, flying⟩ | ⟨j, -, x, other, next, present⟩
  · exact Or.inr (List.mem_of_getElem? flying)
  · obtain ⟨-, -, -, asked⟩ := sole.thread_eq present rfl
    exact Or.inl asked

variable [DecidableEq ι]

theorem step (sole : Sole S mayAnswer k i command start past w)
    (failing : ∀ address message failure, mayAnswer address message (.error failure))
    (outward : Outward S mayAnswer i (S.handler i command) start)
    (admitted : Admitted S mayAnswer k w) (quiet : event.Starts fun _ => False)
    (edge : S.Step w event w') :
    Sole S mayAnswer k i command start (past ++ S.effectsOf k w event) w' := by
  cases edge.transition with
  | started j other => exact quiet.elim
  | locked present =>
      obtain ⟨rfl, rfl, rfl, -⟩ := sole.thread_eq present rfl
      rw [effectsOf_thread present]
      refine sole.resume present rfl (fun _ => Or.inl) trivial fun effects left reply later => ?_
      dsimp only at later
      rw [Function.update_self] at later
      exact .locked later
  | persisted present | notPersisted present =>
      obtain ⟨rfl, rfl, rfl, -⟩ := sole.thread_eq present rfl
      rw [effectsOf_thread present]
      exact sole.resume present rfl (fun _ => Or.inl) trivial fun _ _ _ later => .persist later
  | @requested j x peer other address message next present listening =>
      obtain ⟨rfl, rfl, rfl, -⟩ := sole.thread_eq present rfl
      rw [effectsOf_thread present]
      refine sole.resume present rfl (fun _ => Or.inl)
        ⟨address, listening, List.mem_append_right _ List.mem_cons_self⟩ ?_
      rintro _ left reply ⟨answer, later, admits, rfl, performs⟩
      exact .exchange (admits address listening) performs
  | @served j x peer other message next present =>
      obtain ⟨rfl, rfl, rfl, -⟩ := sole.thread_eq present rfl
      have elsewhere := sole.waiting_ne failing outward present
      rw [effectsOf_thread present]
      refine sole.resume present rfl (fun _ => Or.inl) trivial fun effects left reply later => ?_
      dsimp only at later
      rw [Function.update_of_ne (Ne.symm elsewhere), answered_eq] at later
      exact ⟨_, effects, fun address => admitted _ _ _ _ _ address present, rfl, later⟩
  | @sent j x peer other address message next present listening =>
      obtain ⟨rfl, rfl, rfl, -⟩ := sole.thread_eq present rfl
      rw [effectsOf_thread present]
      refine sole.resume present rfl (fun sent member => ?_) trivial
        fun _ _ _ later => .send later
      rcases List.mem_append.mp member with old | new
      · exact Or.inl old
      · obtain rfl := List.mem_singleton.mp new
        exact Or.inr (contacted_of_escaping rfl List.mem_cons_self
          (mem_escaping.mpr ⟨rfl, listening, rfl⟩))
  | replied present =>
      obtain ⟨rfl, rfl, rfl, -⟩ := sole.thread_eq present rfl
      rw [effectsOf_thread present]
      refine sole.resume present rfl (fun _ => Or.inl) trivial ?_
      rintro _ _ _ ⟨rfl, rfl, rfl⟩
      exact .done
  | @exchangeFailed j x other address message next failure escaped present =>
      obtain ⟨rfl, rfl, rfl, -⟩ := sole.thread_eq present rfl
      rw [effectsOf_thread present]
      refine sole.resume present rfl (fun sent member => ?_) trivial
        fun _ _ _ later => .exchange (failing _ _ _) later
      exact (List.mem_append.mp member).imp_right
        (contacted_of_escaping rfl List.mem_cons_self)
  | @sendFailed j x other address message next failure escaped present =>
      obtain ⟨rfl, rfl, rfl, -⟩ := sole.thread_eq present rfl
      rw [effectsOf_thread present]
      refine sole.resume present rfl (fun sent member => ?_) trivial
        fun _ _ _ later => .send later
      exact (List.mem_append.mp member).imp_right
        (contacted_of_escaping rfl List.mem_cons_self)
  | @waitFailed j x peer other message next failure escaped present =>
      obtain ⟨rfl, rfl, rfl, asked⟩ := sole.thread_eq present rfl
      rw [effectsOf_thread present]
      refine sole.resume present rfl (fun sent member => ?_) trivial
        fun effects _ _ later => ⟨_, effects, fun _ _ => failing _ _ _, rfl, later⟩
      refine (List.mem_append.mp member).imp_right fun escapes => ?_
      cases escaped with
      | false => cases escapes
      | true =>
          obtain rfl := List.mem_singleton.mp escapes
          exact asked.contacted.mono (List.subset_append_left _ _)
  | @replyLost j x peer other message next failure present =>
      obtain ⟨rfl, rfl, rfl, -⟩ := sole.thread_eq present rfl
      have elsewhere := sole.waiting_ne failing outward present
      rw [effectsOf_thread present]
      refine sole.resume present rfl (fun _ => Or.inl) trivial fun effects left reply later => ?_
      dsimp only at later
      rw [Function.update_of_ne (Ne.symm elsewhere)] at later
      exact ⟨_, effects, fun _ _ => failing _ _ _, rfl, later⟩
  | @delivered m peer message present =>
      have elsewhere : peer ≠ i := sole.ne_of_contacted failing outward
        (sole.inFlight _ (List.mem_of_getElem? present))
      have nothing : S.effectsOf k w (.delivered m) = [] := rfl
      rw [nothing, List.append_nil]
      refine ⟨sole.others, fun sent member =>
        sole.inFlight sent (List.mem_of_mem_eraseIdx member), ?_⟩
      dsimp only
      rw [Function.update_of_ne (Ne.symm elsewhere)]
      exact sole.own
  | lost m =>
      have nothing : S.effectsOf k w (.lost m) = [] := rfl
      rw [nothing, List.append_nil]
      exact ⟨sole.others, fun sent member => sole.inFlight sent (List.mem_of_mem_eraseIdx member),
        sole.own⟩

/-- The memory of another process is what the message it handles makes of it. -/
theorem memory_step (sole : Sole S mayAnswer k i command start past w)
    (edge : S.Step w event w') {x : ι} (other : x ≠ i) :
    w'.memory x = S.deliverAll w.memory (w.handledBy event) x := by
  cases edge.transition with
  | @locked j y other' body next present =>
      obtain ⟨-, rfl, -⟩ := sole.thread_eq present rfl
      exact Function.update_of_ne other _ _
  | served present | replyLost present =>
      simp [World.handledBy, Activity.awaited, present, deliverAll, deliver]
  | delivered present => simp [World.handledBy, present, deliverAll, deliver]
  | _ => rfl

theorem of_started {first : World ι κ ς σ α μ φ ρ δ} (quiescent : w.Quiescent)
    (begins : S.Step w (.started i command) first) :
    Sole S mayAnswer w.threads.length i command (w.memory i) [] first := by
  cases begins
  refine ⟨fun j thread other found => ?_, by simp [quiescent.2],
    .running (S.handler i command), by simp, trivial, fun _ _ _ => id⟩
  rw [List.getElem?_append] at found
  split at found
  · exact quiescent.1 thread (List.mem_of_getElem? found)
  · have bound := (List.getElem?_eq_some_iff.mp found).1
    simp only [List.length_singleton] at bound
    omega

end Sole

section Attempts

variable {mayAnswer : α → μ → Except φ μ → Prop} {i : ι} {command : κ} {start : σ}
  {past : List (Effect α μ φ)} {w : World ι κ ς σ α μ φ ρ δ} {event : Event ι κ φ}
  {sent : ι × μ} (sole : Sole S mayAnswer k i command start past w)
include sole

theorem attempt_of_failsToSend (fails : S.FailsToSend w event sent) :
    sent ∉ S.releasedBy w event ∧ ∃ address result, S.listener address = some sent.1 ∧
      .sent address sent.2 result ∈ S.effectsOf k w event := by
  obtain ⟨j, failure, x, other, address, next, rfl, present, listening⟩ := fails
  obtain rfl := sole.number_eq present rfl
  refine ⟨?_, address, _, listening,
    sent_mem_effectsOf.mpr ⟨x, other, next, present, Or.inr ⟨failure, false, rfl, rfl⟩⟩⟩
  simp [releasedBy, present, escaping]

theorem attempt_of_released (member : sent ∈ S.releasedBy w event) :
    S.Asked (past ++ S.effectsOf k w event) sent ∨
      ∃ address result, S.listener address = some sent.1 ∧
        .sent address sent.2 result ∈ S.effectsOf k w event := by
  cases event with
  | thread j move =>
      cases present : w.threads[j]? with
      | none => cases move <;> simp [releasedBy, present] at member
      | some thread =>
          obtain ⟨x, other, activity⟩ := thread
          have unreplied : activity.reply = none := by
            cases activity with
            | replied reply => cases move <;> simp [releasedBy, present] at member
            | _ => rfl
          obtain ⟨rfl, -, -, asked⟩ := sole.thread_eq present unreplied
          simp only [releasedBy, present, Option.map_some] at member
          split at member
          · rename_i address message next running
            obtain rfl : activity = _ := Option.some_inj.mp running
            obtain ⟨-, listening, rfl⟩ := mem_escaping.mp member
            exact Or.inr ⟨address, _, listening,
              sent_mem_effectsOf.mpr ⟨x, other, next, present, Or.inl ⟨rfl, rfl⟩⟩⟩
          · rename_i failure escaped address message next running
            obtain rfl : activity = _ := Option.some_inj.mp running
            obtain ⟨-, listening, rfl⟩ := mem_escaping.mp member
            exact Or.inr ⟨address, _, listening, sent_mem_effectsOf.mpr
              ⟨x, other, next, present, Or.inr ⟨failure, escaped, rfl, rfl⟩⟩⟩
          · rename_i failure escaped address message next running
            obtain rfl : activity = _ := Option.some_inj.mp running
            obtain ⟨-, listening, rfl⟩ := mem_escaping.mp member
            refine Or.inl ⟨address, listening, List.mem_append_right _ ?_⟩
            simp [effectsOf_thread present, effectsOfMove]
          · rename_i failure escaped peer message next running
            obtain rfl : activity = _ := Option.some_inj.mp running
            split at member
            · obtain rfl := List.mem_singleton.mp member
              exact Or.inl (asked.mono (List.subset_append_left _ _))
            · cases member
          · cases member
  | _ => cases member

end Attempts

section Runs

variable [DecidableEq ι] {mayAnswer : α → μ → Except φ μ → Prop} {i : ι} {command : κ}
  {w first last : World ι κ ς σ α μ φ ρ δ}
  {trace : List (World ι κ ς σ α μ φ ρ δ × Event ι κ φ)}

/-- A command is started when nothing is pending, and no other command while it
runs. -/
structure RunsAlone (S : System ι κ ς σ α μ φ ρ δ) (w : World ι κ ς σ α μ φ ρ δ) (i : ι)
    (command : κ) (first : World ι κ ς σ α μ φ ρ δ)
    (trace : List (World ι κ ς σ α μ φ ρ δ × Event ι κ φ)) (last : World ι κ ς σ α μ φ ρ δ) :
    Prop where
  quiescent : w.Quiescent
  begins : S.Step w (.started i command) first
  run : Run S.Step first trace last
  quiet : ∀ entry ∈ trace, entry.2.Starts fun _ => False

namespace RunsAlone

theorem prefix_of {before after : List (World ι κ ς σ α μ φ ρ δ × Event ι κ φ)}
    {entry : World ι κ ς σ α μ φ ρ δ × Event ι κ φ}
    (alone : RunsAlone S w i command first (before ++ entry :: after) last) :
    RunsAlone S w i command first before entry.1 := by
  obtain ⟨next, beforeRun, -⟩ := alone.run.split
  exact ⟨alone.quiescent, alone.begins, beforeRun,
    fun other member => alone.quiet other (List.mem_append_left _ member)⟩

theorem sole (alone : RunsAlone S w i command first trace last)
    (failing : ∀ address message failure, mayAnswer address message (.error failure))
    (outward : Outward S mayAnswer i (S.handler i command) (w.memory i))
    (admitted : ∀ entry ∈ trace, Admitted S mayAnswer w.threads.length entry.1) :
    Sole S mayAnswer w.threads.length i command (w.memory i)
      (S.effects w.threads.length trace) last := by
  obtain ⟨quiescent, begins, run, quiet⟩ := alone
  induction run with
  | refl => exact .of_started quiescent begins
  | @tail trace middle last event run edge ih =>
      have earlier := ih (fun entry member => admitted entry (List.mem_append_left _ member))
        fun entry member => quiet entry (List.mem_append_left _ member)
      have latest : (middle, event) ∈ trace ++ [(middle, event)] :=
        List.mem_append_right _ (List.mem_singleton_self _)
      have next := earlier.step failing outward (admitted _ latest) (quiet _ latest) edge
      simpa [effects] using next

/-- What the thread has done, once it has replied, is what its program performs. -/
theorem performs (alone : RunsAlone S w i command first trace last)
    (failing : ∀ address message failure, mayAnswer address message (.error failure))
    (outward : Outward S mayAnswer i (S.handler i command) (w.memory i))
    (admitted : ∀ entry ∈ trace, Admitted S mayAnswer w.threads.length entry.1) {reply : ρ}
    (replied : last.threads[w.threads.length]? = some ⟨i, command, .replied reply⟩) :
    (S.handler i command).Performs S.execute mayAnswer (w.memory i)
      (S.effects w.threads.length trace) (last.memory i) reply := by
  obtain ⟨activity, present, -, continues⟩ := (alone.sole failing outward admitted).own
  rw [replied] at present
  obtain rfl : .replied reply = activity := by simpa using present
  simpa using continues [] _ _ ⟨rfl, rfl, rfl⟩

theorem sole_any (alone : RunsAlone S w i command first trace last)
    (outward : Outward S AnyAnswer i (S.handler i command) (w.memory i)) :
    Sole S AnyAnswer w.threads.length i command (w.memory i) (S.effects w.threads.length trace)
      last :=
  alone.sole (fun _ _ _ => trivial) outward fun entry _ => admitted_any entry.1

theorem replied (alone : RunsAlone S w i command first trace last)
    (outward : Outward S AnyAnswer i (S.handler i command) (w.memory i)) {reply : ρ}
    (replies : (last.threads[w.threads.length]?.bind fun thread => thread.activity.reply) =
      some reply) :
    last.threads[w.threads.length]? = some ⟨i, command, .replied reply⟩ := by
  obtain ⟨activity, present, -⟩ := (alone.sole_any outward).own
  rw [present, Option.bind_some] at replies
  cases activity with
  | replied given =>
      obtain rfl : given = reply := Option.some_inj.mp replies
      exact present
  | _ => cases replies

theorem performs_any (alone : RunsAlone S w i command first trace last)
    (outward : Outward S AnyAnswer i (S.handler i command) (w.memory i)) {reply : ρ}
    (replies : (last.threads[w.threads.length]?.bind fun thread => thread.activity.reply) =
      some reply) :
    (S.handler i command).Performs S.execute AnyAnswer (w.memory i)
      (S.effects w.threads.length trace) (last.memory i) reply :=
  alone.performs (fun _ _ _ => trivial) outward (fun entry _ => admitted_any entry.1)
    (alone.replied outward replies)

theorem memory_begins (alone : RunsAlone S w i command first trace last) :
    first.memory = w.memory ∧ first.inFlight = [] := by
  obtain ⟨quiescent, begins, -, -⟩ := alone
  cases begins
  exact ⟨rfl, quiescent.2⟩

theorem inFlight_released (alone : RunsAlone S w i command first trace last) {sent : ι × μ}
    (member : sent ∈ last.inFlight) : sent ∈ S.released trace := by
  have empty := alone.memory_begins.2
  obtain ⟨-, -, run, -⟩ := alone
  induction run with
  | refl => simp [empty] at member
  | @tail trace middle last event run edge ih =>
      rw [released, List.flatMap_append, List.mem_append]
      rcases inFlight_or_released edge member with before | now
      · exact Or.inl (ih before)
      · exact Or.inr (by simpa using now)

/-- A message that is released is handled in the end, if it is not lost. -/
theorem handled_of_released (alone : RunsAlone S w i command first trace last)
    (kept : ∀ entry ∈ trace, ∀ m, entry.2 ≠ .lost m) {sent : ι × μ}
    (member : sent ∈ S.released trace) : sent ∈ handled trace ∨ sent ∈ last.inFlight := by
  obtain ⟨-, -, run, -⟩ := alone
  induction run with
  | refl => cases member
  | @tail trace middle last event run edge ih =>
      rw [released, List.flatMap_append, List.mem_append] at member
      rw [handled, List.flatMap_append, List.mem_append]
      have notLost : ∀ m, event ≠ .lost m :=
        kept _ (List.mem_append_right _ (List.mem_singleton_self _))
      rcases member with before | now
      · rcases ih (fun entry isIn => kept entry (List.mem_append_left _ isIn)) before with
          done | flying
        · exact Or.inl (Or.inl done)
        · rcases inFlight_or_handled edge notLost flying with still | done
          · exact Or.inr still
          · exact Or.inl (Or.inr (by simpa using done))
      · exact Or.inr (inFlight_of_released edge (by simpa using now))

section Outward

variable (outward : Outward S AnyAnswer i (S.handler i command) (w.memory i))
include outward

theorem sole_at (alone : RunsAlone S w i command first trace last)
    {entry : World ι κ ς σ α μ φ ρ δ × Event ι κ φ} (isIn : entry ∈ trace) :
    ∃ past, past ⊆ S.effects w.threads.length trace ∧
      past ++ S.effectsOf w.threads.length entry.1 entry.2 ⊆ S.effects w.threads.length trace ∧
      Sole S AnyAnswer w.threads.length i command (w.memory i) past entry.1 := by
  obtain ⟨before, after, rfl⟩ := List.append_of_mem isIn
  refine ⟨S.effects w.threads.length before, ?_, ?_, alone.prefix_of.sole_any outward⟩
  · simp [effects]
  · intro effect member
    simp only [effects, List.flatMap_append, List.flatMap_cons, List.mem_append] at member ⊢
    exact member.imp_right Or.inl

/-- The memory of another process is what the messages it has handled make of it. -/
theorem memory_eq (alone : RunsAlone S w i command first trace last) {x : ι} (other : x ≠ i) :
    last.memory x = S.deliverAll w.memory (handled trace) x := by
  have same := alone.memory_begins.1
  obtain ⟨quiescent, begins, run, quiet⟩ := alone
  induction run with
  | refl => rw [same]; rfl
  | @tail trace middle last event run edge ih =>
      have before : RunsAlone S w i command first trace middle :=
        ⟨quiescent, begins, run, fun entry member => quiet entry (List.mem_append_left _ member)⟩
      have sole := before.sole_any outward
      calc
        last.memory x = S.deliverAll middle.memory (middle.handledBy event) x :=
          sole.memory_step edge other
        _ = S.deliverAll (S.deliverAll w.memory (handled trace)) (middle.handledBy event) x :=
          deliverAll_congr (ih before.quiet) _
        _ = S.deliverAll w.memory (handled (trace ++ [(middle, event)])) x := by
          simp [deliverAll, handled]

theorem handled_contacted (alone : RunsAlone S w i command first trace last) {sent : ι × μ}
    (member : sent ∈ handled trace) :
    S.Contacted (S.effects w.threads.length trace) sent := by
  obtain ⟨entry, isIn, handles⟩ := List.mem_flatMap.mp member
  obtain ⟨past, earlier, -, sole⟩ := alone.sole_at outward isIn
  rcases sole.handledBy_contacted handles with asked | flying
  · exact (asked.mono earlier).contacted
  · exact (sole.inFlight sent flying).mono earlier

theorem asked_or_released (alone : RunsAlone S w i command first trace last) {sent : ι × μ}
    (member : sent ∈ handled trace) :
    S.Asked (S.effects w.threads.length trace) sent ∨ sent ∈ S.released trace := by
  obtain ⟨⟨middle, event⟩, isIn, handles⟩ := List.mem_flatMap.mp member
  obtain ⟨past, earlier, -, sole⟩ := alone.sole_at outward isIn
  rcases sole.handledBy_contacted handles with asked | flying
  · exact Or.inl (asked.mono earlier)
  · obtain ⟨before, after, rfl⟩ := List.append_of_mem isIn
    refine Or.inr ?_
    rw [released, List.flatMap_append]
    exact List.mem_append_left _ (alone.prefix_of.inFlight_released flying)

theorem not_failsToSend_of_released (alone : RunsAlone S w i command first trace last)
    (once : ((S.effects w.threads.length trace).filterMap Effect.attempt).Nodup)
    {address : α} {sent : ι × μ}
    (distinct : ∀ address', S.listener address' = some sent.1 →
      (address', sent.2) ∈ (S.effects w.threads.length trace).filterMap Effect.attempt →
        address' = address)
    (notAsked : ¬ S.Asked (S.effects w.threads.length trace) sent)
    (isReleased : sent ∈ S.released trace) :
    ¬ ∃ entry ∈ trace, S.FailsToSend entry.1 entry.2 sent := by
  rintro ⟨failing, failingIn, fails⟩
  -- an attempt that a step makes is one for the address
  have isAttempt : ∀ {entry address' result}, entry ∈ trace →
      S.listener address' = some sent.1 →
      .sent address' sent.2 result ∈ S.effectsOf w.threads.length entry.1 entry.2 →
        (address, sent.2) ∈
          (S.effectsOf w.threads.length entry.1 entry.2).filterMap Effect.attempt := by
    intro entry address' result isIn listening member
    have ofTrace : (address', sent.2) ∈
        (S.effects w.threads.length trace).filterMap Effect.attempt :=
      List.mem_filterMap.mpr ⟨_, List.mem_flatMap.mpr ⟨entry, isIn, member⟩, rfl⟩
    rw [← distinct address' listening ofTrace]
    exact List.mem_filterMap.mpr ⟨_, member, rfl⟩
  obtain ⟨releasing, releasingIn, releases⟩ := List.mem_flatMap.mp isReleased
  obtain ⟨past, -, now, sole⟩ := alone.sole_at outward releasingIn
  obtain ⟨_, -, -, sole'⟩ := alone.sole_at outward failingIn
  obtain ⟨notReleased, _, _, listening, failed⟩ := attempt_of_failsToSend sole' fails
  rcases attempt_of_released sole releases with asked | ⟨_, _, listening', tried⟩
  · exact notAsked (asked.mono now)
  have differ : releasing ≠ failing := by
    rintro rfl
    exact notReleased releases
  rw [effects, List.filterMap_flatMap, List.nodup_flatMap] at once
  have symmetric : Std.Symm (Function.onFun List.Disjoint fun entry :
      World ι κ ς σ α μ φ ρ δ × Event ι κ φ =>
        (S.effectsOf w.threads.length entry.1 entry.2).filterMap Effect.attempt) :=
    ⟨fun _ _ apart _ second first => apart first second⟩
  exact once.2.forall releasingIn failingIn differ (isAttempt releasingIn listening' tried)
    (isAttempt failingIn listening failed)

omit [DecidableEq ι] outward in
theorem released_of_attempted {n : Nat} {address : α} {sent : ι × μ}
    (listening : S.listener address = some sent.1)
    (attempted : (address, sent.2) ∈ (S.effects n trace).filterMap Effect.attempt)
    (sends : ¬ ∃ entry ∈ trace, S.FailsToSend entry.1 entry.2 sent) :
    sent ∈ S.released trace := by
  obtain ⟨effect, isEffect, isSent⟩ := List.mem_filterMap.mp attempted
  obtain ⟨entry, isIn, member⟩ := List.mem_flatMap.mp isEffect
  cases effect with
  | sent address' message result =>
      obtain ⟨rfl, rfl⟩ : address' = address ∧ message = sent.2 := by
        simpa [Effect.attempt] using isSent
      have releases : sent ∈ S.releasedBy entry.1 entry.2 :=
        (released_or_failsToSend member listening).resolve_right
          fun fails => sends ⟨entry, isIn, fails⟩
      exact List.mem_flatMap.mpr ⟨entry, isIn, releases⟩
  | _ => cases isSent

/-- A message that the thread tries to send just once is handled in the end, unless
it fails to send it. -/
theorem handled_iff_sent (alone : RunsAlone S w i command first trace last)
    (kept : ∀ entry ∈ trace, ∀ m, entry.2 ≠ .lost m) (landed : last.inFlight = [])
    (once : ((S.effects w.threads.length trace).filterMap Effect.attempt).Nodup)
    {address : α} {sent : ι × μ} (listening : S.listener address = some sent.1)
    (attempted : (address, sent.2) ∈
      (S.effects w.threads.length trace).filterMap Effect.attempt)
    (distinct : ∀ address', S.listener address' = some sent.1 →
      (address', sent.2) ∈ (S.effects w.threads.length trace).filterMap Effect.attempt →
        address' = address)
    (notAsked : ¬ S.Asked (S.effects w.threads.length trace) sent) :
    sent ∈ handled trace ↔ ¬ ∃ entry ∈ trace, S.FailsToSend entry.1 entry.2 sent := by
  constructor
  · intro isHandled
    have isReleased := (alone.asked_or_released outward isHandled).resolve_left notAsked
    exact alone.not_failsToSend_of_released outward once distinct notAsked isReleased
  · intro sends
    have isReleased := released_of_attempted listening attempted sends
    refine (alone.handled_of_released kept isReleased).resolve_right fun flying => ?_
    simp [landed] at flying

end Outward

end RunsAlone

theorem exists_runsAlone (quiescent : w.Quiescent) (begins : S.Step w (.started i command) first)
    (events : List (Event ι κ φ)) (quiet : ∀ event ∈ events, event.Starts fun _ => False)
    (check : World ι κ ς σ α μ φ ρ δ → Bool)
    (passes : (follow S.step first events).any (fun followed => check followed.2) = true) :
    ∃ trace last, RunsAlone S w i command first trace last ∧ trace.map Prod.snd = events ∧
      check last = true := by
  obtain ⟨trace, last, run, rfl, checked⟩ := exists_run S first events _ passes
  exact ⟨trace, last, ⟨quiescent, begins, run,
    fun entry member => quiet entry.2 (List.mem_map_of_mem member)⟩, rfl, checked⟩

end Runs

end System

end LockedProcesses
