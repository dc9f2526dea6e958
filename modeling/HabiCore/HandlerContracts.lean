import HabiCore.LockedProcesses
import Mathlib.Order.Basic

/-!
# Contracts of command handlers

A contract says which critical sections and messages the threads of a system
use, in terms of knowledge about the memories that only grows.  A thread that
honours its contract now still honours it when more is known, so that one check
of each handler covers all interleavings.  The file also follows the messages a
thread is bound to send.
-/

namespace LockedProcesses

variable {ι κ ς σ α μ φ ρ δ : Type}

/-- The program sends the message to the address, whatever it finds and learns
on the way, unless an exchange fails. -/
def Program.Owes (address : α) (message : μ) : Program ς σ α μ φ ρ → Prop
  | .done _ => False
  | .locked _ next => ∀ found, (next found).Owes address message
  | .persist next => next.Owes address message
  | .exchange _ _ next => ∀ answer, (next answer).Owes address message
  | .send address' message' next =>
      (address' = address ∧ message' = message) ∨ (next (.ok ())).Owes address message

def Thread.Owes (address : α) (message : μ) (thread : Thread ι κ ς σ α μ φ ρ) : Prop :=
  match thread.activity with
  | .running program => program.Owes address message
  | .waiting _ _ next => ∀ answer, (next answer).Owes address message
  | .replied _ => False

def System.Owing (S : System ι κ ς σ α μ φ ρ δ) (threads : List (Thread ι κ ς σ α μ φ ρ))
    (peer : ι) (message : μ) : Prop :=
  ∃ thread ∈ threads, ∃ address, S.listener address = some peer ∧ thread.Owes address message

/-- The message is on its way to the peer, or some thread still has to send it. -/
def System.Outstanding (S : System ι κ ς σ α μ φ ρ δ) (w : World ι κ ς σ α μ φ ρ δ)
    (peer : ι) (message : μ) : Prop :=
  (peer, message) ∈ w.inFlight ∨ S.Owing w.threads peer message

/-- The obligations of threads and messages, relative to what is known.  The
relation `learned` holds once a section has run on the memory it found, and
`owed` are the messages that a section obliges its thread to send.  A reply may
only be given when what it says of the command is known. -/
structure Contract (K : Type) [Preorder K] (ι κ ς σ α μ ρ : Type) where
  memory : K → ι → σ → Prop
  message : K → μ → Prop
  request : K → ι → κ → μ → Prop
  answer : K → μ → μ → Prop
  body : K → ι → κ → ς → Prop
  learned : K → ι → ς → σ → Prop
  owed : ι → ς → σ → α → μ → Prop
  reply : K → ι → κ → ρ → Prop
  memory_mono : ∀ {k k' : K} {i : ι} {found : σ}, k ≤ k' → memory k i found → memory k' i found
  message_mono : ∀ {k k' : K} {message' : μ}, k ≤ k' → message k message' → message k' message'
  request_mono : ∀ {k k' : K} {i : ι} {command : κ} {message' : μ}, k ≤ k' →
    request k i command message' → request k' i command message'
  body_mono : ∀ {k k' : K} {i : ι} {command : κ} {body' : ς}, k ≤ k' →
    body k i command body' → body k' i command body'
  reply_mono : ∀ {k k' : K} {i : ι} {command : κ} {reply' : ρ}, k ≤ k' →
    reply k i command reply' → reply k' i command reply'

namespace Contract

variable {K : Type} [Preorder K] (C : Contract K ι κ ς σ α μ ρ)

/-- Whatever is learned on the way, the program that the process `i` runs for a
command keeps to the sections, messages and replies the contract allows. -/
def Honours (i : ι) (command : κ) : Program ς σ α μ φ ρ → K → Prop
  | .done reply, k => C.reply k i command reply
  | .locked body next, k => C.body k i command body ∧
      ∀ found k', k ≤ k' → C.memory k' i found → C.learned k' i body found →
        Honours i command (next found) k' ∧
          ∀ address message, C.owed i body found address message →
            (next found).Owes address message
  | .persist next, k => Honours i command next k
  | .exchange _ message next, k => C.request k i command message ∧
      ∀ k', k ≤ k' →
        (∀ reply, C.answer k' message reply → Honours i command (next (.ok reply)) k') ∧
        ∀ failure, Honours i command (next (.error failure)) k'
  | .send _ message next, k => C.message k message ∧ ∀ result, Honours i command (next result) k

def ThreadHonours (thread : Thread ι κ ς σ α μ φ ρ) (k : K) : Prop :=
  match thread.activity with
  | .running program => C.Honours thread.process thread.command program k
  | .waiting _ message next => C.request k thread.process thread.command message ∧
      ∀ k', k ≤ k' →
        (∀ reply, C.answer k' message reply →
          C.Honours thread.process thread.command (next (.ok reply)) k') ∧
        ∀ failure, C.Honours thread.process thread.command (next (.error failure)) k'
  | .replied reply => C.reply k thread.process thread.command reply

/-- All memories, threads and messages of a world keep to the contract. -/
structure Complies (k : K) (w : World ι κ ς σ α μ φ ρ δ) : Prop where
  memory : ∀ i, C.memory k i (w.memory i)
  threads : ∀ thread ∈ w.threads, C.ThreadHonours thread k
  inFlight : ∀ sent ∈ w.inFlight, C.message k sent.2

variable {C} {k k' : K} {w w' : World ι κ ς σ α μ φ ρ δ}

theorem Honours.mono {i : ι} {command : κ} {program : Program ς σ α μ φ ρ} (more : k ≤ k')
    (honours : C.Honours i command program k) : C.Honours i command program k' := by
  induction program generalizing k k' with
  | done reply => exact C.reply_mono more honours
  | locked body next ih =>
      exact ⟨C.body_mono more honours.1,
        fun found later further => honours.2 found later (more.trans further)⟩
  | persist next ih => exact ih more honours
  | exchange address message next ih =>
      exact ⟨C.request_mono more honours.1,
        fun later further => honours.2 later (more.trans further)⟩
  | send address message next ih =>
      exact ⟨C.message_mono more honours.1, fun result => ih result more (honours.2 result)⟩

theorem ThreadHonours.mono {thread : Thread ι κ ς σ α μ φ ρ} (more : k ≤ k')
    (honours : C.ThreadHonours thread k) : C.ThreadHonours thread k' := by
  obtain ⟨i, command, program | ⟨peer, message, next⟩ | reply⟩ := thread
  · exact Honours.mono more honours
  · exact ⟨C.request_mono more honours.1,
      fun later further => honours.2 later (more.trans further)⟩
  · exact C.reply_mono more honours

theorem Complies.thread (complies : C.Complies k w) {n : Nat} {thread : Thread ι κ ς σ α μ φ ρ}
    (present : w.threads[n]? = some thread) : C.ThreadHonours thread k :=
  complies.threads _ (List.mem_of_getElem? present)

theorem Complies.reply (complies : C.Complies k w) {thread : Thread ι κ ς σ α μ φ ρ} {reply : ρ}
    (member : thread ∈ w.threads) (replied : thread.activity.reply = some reply) :
    C.reply k thread.process thread.command reply := by
  have honours := complies.threads thread member
  unfold ThreadHonours at honours
  split at honours
  · simp_all [Activity.reply]
  · simp_all [Activity.reply]
  · simp_all [Activity.reply]

theorem Complies.body (complies : C.Complies k w) {n : Nat} {i : ι} {command : κ} {body : ς}
    {next : σ → Program ς σ α μ φ ρ}
    (present : w.threads[n]? = some ⟨i, command, .running (.locked body next)⟩) :
    C.body k i command body :=
  (complies.thread present).1

theorem Complies.handled (complies : C.Complies k w) {event : Event ι κ φ} {peer : ι}
    {message : μ} (handles : w.Handles event peer message) :
    C.message k message ∨ ∃ i command, C.request k i command message := by
  rcases handles with ⟨m, -, flying⟩ | ⟨n, move, i, command, next, -, present⟩
  · exact Or.inl (complies.inFlight _ (List.mem_of_getElem? flying))
  · exact Or.inr ⟨i, command, (complies.thread present).1⟩

variable {S : System ι κ ς σ α μ φ ρ δ} {event : Event ι κ φ}

theorem threads_set {thread : Thread ι κ ς σ α μ φ ρ} {n : Nat}
    (complies : C.Complies k w) (more : k ≤ k') (honours : C.ThreadHonours thread k') :
    ∀ other ∈ w.threads.set n thread, C.ThreadHonours other k' := by
  intro other member
  rcases List.mem_or_eq_of_mem_set member with old | rfl
  · exact (complies.threads other old).mono more
  · exact honours

theorem inFlight_append (complies : C.Complies k w) {extra : List (ι × μ)}
    (allowed : ∀ sent ∈ extra, C.message k sent.2) :
    ∀ sent ∈ w.inFlight ++ extra, C.message k sent.2 := by
  intro sent member
  rcases List.mem_append.mp member with old | new
  · exact complies.inFlight sent old
  · exact allowed sent new

theorem escaping_allowed {escaped : Bool} {address : α} {message : μ}
    (allowed : C.message k message) :
    ∀ sent ∈ S.escaping escaped address message, C.message k sent.2 := by
  intro sent member
  unfold System.escaping at member
  split at member
  · simp_all
  · simp at member

theorem complies_of_quiescent (quiescent : w.Quiescent)
    (memory : ∀ i, C.memory k i (w.memory i))
    (replies : ∀ thread ∈ w.threads, ∀ reply, C.reply k thread.process thread.command reply) :
    C.Complies k w := by
  refine ⟨memory, fun thread member => ?_, by simp [quiescent.2]⟩
  have replied := quiescent.1 thread member
  unfold ThreadHonours
  split
  · simp_all [Activity.reply]
  · simp_all [Activity.reply]
  · exact replies thread member _

variable [DecidableEq ι]

/-- How a system keeps to a contract, when the memories determine what is
known: its handlers honour the contract, and neither a section nor a message
that the contract allows makes anything known false. -/
structure Kept (C : Contract K ι κ ς σ α μ ρ) (S : System ι κ ς σ α μ φ ρ δ)
    (known : (ι → σ) → K) (commands : κ → Prop) : Prop where
  handler : ∀ i command k, commands command → C.Honours i command (S.handler i command) k
  execute : ∀ memory i command body, (∀ j, C.memory (known memory) j (memory j)) →
    C.body (known memory) i command body →
      known memory ≤ known (Function.update memory i (S.execute body (memory i))) ∧
      C.memory (known (Function.update memory i (S.execute body (memory i)))) i
        (S.execute body (memory i)) ∧
      C.learned (known (Function.update memory i (S.execute body (memory i)))) i body (memory i)
  respond : ∀ memory i message, (∀ j, C.memory (known memory) j (memory j)) →
    (C.message (known memory) message ∨
      ∃ j command, C.request (known memory) j command message) →
      known memory ≤ known (Function.update memory i (S.respond (memory i) message).2) ∧
      C.memory (known (Function.update memory i (S.respond (memory i) message).2)) i
        (S.respond (memory i) message).2 ∧
      ∀ reply, (S.respond (memory i) message).1 = some reply →
        C.answer (known (Function.update memory i (S.respond (memory i) message).2))
          message reply

theorem memory_update {i : ι} {found : σ} (complies : C.Complies k w) (more : k ≤ k')
    (admits : C.memory k' i found) :
    ∀ j, C.memory k' j (Function.update w.memory i found j) := by
  intro j
  by_cases same : j = i
  · subst j; simpa using admits
  · simpa [same] using C.memory_mono more (complies.memory j)

/-- A step of a system that keeps a contract leads from a world that complies
to one that complies.  Where exchanges may fail, requests must be allowed in
flight. -/
theorem Kept.step {known : (ι → σ) → K} {commands : κ → Prop}
    (kept : C.Kept S known commands) (complies : C.Complies (known w.memory) w)
    (allowed : event.Starts commands)
    (escape : event.Lossless ∨ ∀ k i command message, C.request k i command message →
      C.message k message)
    (edge : S.Step w event w') : C.Complies (known w'.memory) w' := by
  have respond := fun peer message => kept.respond w.memory peer message complies.memory
  have inFlight : ∀ {i command message}, ¬ event.Lossless →
      C.request (known w.memory) i command message → C.message (known w.memory) message :=
    fun lossy requested => (escape.resolve_left lossy) _ _ _ _ requested
  cases edge.transition with
  | started i command =>
      refine ⟨complies.memory, ?_, complies.inFlight⟩
      intro thread member
      rcases List.mem_append.mp member with old | new
      · exact complies.threads thread old
      · obtain rfl := List.mem_singleton.mp new
        exact kept.handler i command _ allowed
  | @locked n i command body next present =>
      have honours := complies.thread present
      obtain ⟨more, admits, learned⟩ :=
        kept.execute w.memory i command body complies.memory honours.1
      refine ⟨memory_update complies more admits, threads_set complies more ?_,
        fun sent member => C.message_mono more (complies.inFlight sent member)⟩
      exact (honours.2 _ _ more (C.memory_mono more (complies.memory i)) learned).1
  | persisted present =>
      have honours := complies.thread present
      exact ⟨complies.memory, threads_set complies le_rfl honours, complies.inFlight⟩
  | notPersisted present =>
      have honours := complies.thread present
      exact ⟨complies.memory, threads_set complies le_rfl honours, complies.inFlight⟩
  | requested present listening =>
      have honours := complies.thread present
      exact ⟨complies.memory, threads_set complies le_rfl honours, complies.inFlight⟩
  | @served n i peer command message next present =>
      have honours := complies.thread present
      obtain ⟨more, admits, answers⟩ := respond peer message (Or.inr ⟨_, _, honours.1⟩)
      refine ⟨memory_update complies more admits, threads_set complies more ?_,
        fun sent member => C.message_mono more (complies.inFlight sent member)⟩
      obtain ⟨onReply, onFailure⟩ := honours.2 _ more
      unfold ThreadHonours System.answered
      cases replied : (S.respond (w.memory peer) message).1 with
      | none => exact onFailure _
      | some reply => exact onReply reply (answers reply replied)
  | sent present listening =>
      have honours := complies.thread present
      exact ⟨complies.memory, threads_set complies le_rfl (honours.2 _),
        inFlight_append complies (by simpa using honours.1)⟩
  | replied present =>
      have honours := complies.thread present
      exact ⟨complies.memory, threads_set complies le_rfl honours, complies.inFlight⟩
  | exchangeFailed present =>
      have honours := complies.thread present
      exact ⟨complies.memory, threads_set complies le_rfl ((honours.2 _ le_rfl).2 _),
        inFlight_append complies (escaping_allowed (inFlight id honours.1))⟩
  | sendFailed present =>
      have honours := complies.thread present
      exact ⟨complies.memory, threads_set complies le_rfl (honours.2 _),
        inFlight_append complies (escaping_allowed honours.1)⟩
  | @waitFailed n i peer command message next failure escaped present =>
      have honours := complies.thread present
      refine ⟨complies.memory, threads_set complies le_rfl ((honours.2 _ le_rfl).2 _),
        inFlight_append complies ?_⟩
      intro sent member
      cases escaped with
      | false => simp at member
      | true =>
          obtain rfl : sent = (peer, message) := by simpa using member
          exact inFlight id honours.1
  | @replyLost n i peer command message next failure present =>
      have honours := complies.thread present
      obtain ⟨more, admits, -⟩ := respond peer message (Or.inr ⟨_, _, honours.1⟩)
      exact ⟨memory_update complies more admits,
        threads_set complies more ((honours.2 _ more).2 _),
        fun sent member => C.message_mono more (complies.inFlight sent member)⟩
  | @delivered m peer message present =>
      obtain ⟨more, admits, -⟩ :=
        respond peer message (Or.inl (complies.inFlight _ (List.mem_of_getElem? present)))
      exact ⟨memory_update complies more admits,
        fun thread member => (complies.threads thread member).mono more,
        fun sent member =>
          C.message_mono more (complies.inFlight sent (List.mem_of_mem_eraseIdx member))⟩
  | lost m =>
      exact ⟨complies.memory, complies.threads,
        fun sent member => complies.inFlight sent (List.mem_of_mem_eraseIdx member)⟩

theorem Kept.owes {known : (ι → σ) → K} {commands : κ → Prop}
    (kept : C.Kept S known commands) (complies : C.Complies (known w.memory) w)
    {n : Nat} {i : ι} {command : κ} {body : ς} {next : σ → Program ς σ α μ φ ρ}
    (present : w.threads[n]? = some ⟨i, command, .running (.locked body next)⟩)
    {address : α} {message : μ} (owed : C.owed i body (w.memory i) address message) :
    (next (w.memory i)).Owes address message := by
  have honours := complies.thread present
  obtain ⟨more, -, learned⟩ := kept.execute w.memory i command body complies.memory honours.1
  exact (honours.2 _ _ more (C.memory_mono more (complies.memory i)) learned).2 _ _ owed

end Contract

section Outstanding

variable {S : System ι κ ς σ α μ φ ρ δ} {w w' : World ι κ ς σ α μ φ ρ δ}
  {event : Event ι κ φ} {peer : ι} {message : μ}

theorem System.not_outstanding_of_quiescent (quiescent : w.Quiescent) :
    ¬ S.Outstanding w peer message := by
  rintro (flying | ⟨thread, member, address, -, owes⟩)
  · simp [quiescent.2] at flying
  · have replied := quiescent.1 thread member
    unfold Thread.Owes at owes
    split at owes
    · simp_all [Activity.reply]
    · simp_all [Activity.reply]
    · exact owes

theorem System.Step.owes [DecidableEq ι] (edge : S.Step w event w') (lossless : event.Lossless)
    {n : Nat} {thread : Thread ι κ ς σ α μ φ ρ} {address : α}
    (present : w.threads[n]? = some thread) (listening : S.listener address = some peer)
    (owes : thread.Owes address message) :
    (∃ thread', w'.threads[n]? = some thread' ∧ thread'.Owes address message) ∨
      (peer, message) ∈ w'.inFlight := by
  have ofSet : ∀ {k : Nat} {old new : Thread ι κ ς σ α μ φ ρ}, w.threads[k]? = some old →
      (old.Owes address message → new.Owes address message) →
      ∃ thread', (w.threads.set k new)[n]? = some thread' ∧
        thread'.Owes address message := by
    intro k old new moving keeps
    by_cases same : k = n
    · subst same
      obtain rfl := Option.some_inj.mp (present.symm.trans moving)
      exact ⟨new, List.getElem?_set_self (List.getElem?_eq_some_iff.mp moving).1, keeps owes⟩
    · exact ⟨thread, by rw [List.getElem?_set_ne same, present], owes⟩
  cases edge.transition with
  | started i command =>
      have inBounds : n < w.threads.length := (List.getElem?_eq_some_iff.mp present).1
      exact Or.inl ⟨thread, by rw [List.getElem?_append_left inBounds, present], owes⟩
  | locked moving => exact Or.inl (ofSet moving fun owes => owes _)
  | persisted moving => exact Or.inl (ofSet moving fun owes => owes)
  | notPersisted moving => exact Or.inl (ofSet moving fun owes => owes)
  | requested moving => exact Or.inl (ofSet moving fun owes => owes)
  | @served k i peer' command message' next moving =>
      refine Or.inl (ofSet moving fun owes => ?_)
      unfold Thread.Owes System.answered
      cases (S.respond (w.memory peer') message').1 with
      | none => exact owes _
      | some reply => exact owes _
  | @sent k i peer' command address' message' next moving listening' =>
      by_cases sends : peer' = peer ∧ message' = message
      · obtain ⟨rfl, rfl⟩ := sends
        exact Or.inr (by simp)
      · refine Or.inl (ofSet moving fun owes => ?_)
        rcases owes with ⟨rfl, rfl⟩ | later
        · rw [listening', Option.some_inj] at listening
          exact (sends ⟨listening, rfl⟩).elim
        · exact later
  | replied moving => exact Or.inl (ofSet moving fun owes => owes)
  | delivered => exact Or.inl ⟨thread, present, owes⟩
  | exchangeFailed | sendFailed | waitFailed | replyLost | lost => exact lossless.elim

theorem System.Owing.step [DecidableEq ι] (owing : S.Owing w.threads peer message)
    (edge : S.Step w event w') (lossless : event.Lossless) :
    S.Outstanding w' peer message := by
  obtain ⟨thread, member, address, listening, owes⟩ := owing
  obtain ⟨n, present⟩ := List.mem_iff_getElem?.mp member
  rcases edge.owes lossless present listening owes with ⟨thread', present', owes'⟩ | flying
  · exact Or.inr ⟨thread', List.mem_of_getElem? present', address, listening, owes'⟩
  · exact Or.inl flying

theorem System.Step.flying [DecidableEq ι] (edge : S.Step w event w')
    (lossless : event.Lossless) (flying : (peer, message) ∈ w.inFlight) :
    (peer, message) ∈ w'.inFlight ∨
      ∃ m, event = .delivered m ∧ w.inFlight[m]? = some (peer, message) := by
  cases edge.transition with
  | sent | exchangeFailed | sendFailed | waitFailed =>
      exact Or.inl (List.mem_append_left _ flying)
  | @delivered m peer' message' present =>
      obtain ⟨j, found⟩ := List.mem_iff_getElem?.mp flying
      by_cases same : j = m
      · subst j
        exact Or.inr ⟨m, rfl, found⟩
      · exact Or.inl (List.mem_eraseIdx_iff_getElem?.mpr ⟨j, same, found⟩)
  | lost => exact lossless.elim
  | _ => exact Or.inl flying

/-- A message stays outstanding until it is handled, if none is lost. -/
theorem System.Outstanding.step [DecidableEq ι] (outstanding : S.Outstanding w peer message)
    (edge : S.Step w event w') (lossless : event.Lossless) :
    S.Outstanding w' peer message ∨
      ∃ m, event = .delivered m ∧ w.inFlight[m]? = some (peer, message) := by
  rcases outstanding with flying | owing
  · rcases edge.flying lossless flying with still | isDelivered
    · exact Or.inl (Or.inl still)
    · exact Or.inr isDelivered
  · exact Or.inl (System.Owing.step owing edge lossless)

/-- In a lossless run a thread still has to send what it had to send, or the
message is in flight, or it has been handled. -/
theorem owed_run [DecidableEq ι] {first last : World ι κ ς σ α μ φ ρ δ}
    {trace : List (World ι κ ς σ α μ φ ρ δ × Event ι κ φ)}
    (run : LabelledRuns.Run S.Step first trace last)
    (lossless : ∀ entry ∈ trace, entry.2.Lossless) {n : Nat}
    {thread : Thread ι κ ς σ α μ φ ρ} {address : α}
    (present : first.threads[n]? = some thread) (listening : S.listener address = some peer)
    (owes : thread.Owes address message) :
    (∃ thread', last.threads[n]? = some thread' ∧ thread'.Owes address message) ∨
      (peer, message) ∈ last.inFlight ∨
      ∃ entry ∈ trace, ∃ m, entry.2 = .delivered m ∧
        entry.1.inFlight[m]? = some (peer, message) := by
  induction run with
  | refl => exact Or.inl ⟨thread, present, owes⟩
  | @tail trace middle last event run edge ih =>
      have isLossless : event.Lossless := lossless (middle, event) (by simp)
      rcases ih fun entry member => lossless entry (List.mem_append_left _ member) with
        ⟨thread', present', owes'⟩ | flying | ⟨entry, member, isDelivered⟩
      · exact (edge.owes isLossless present' listening owes').imp_right Or.inl
      · rcases edge.flying isLossless flying with still | ⟨m, isDelivered, found⟩
        · exact Or.inr (Or.inl still)
        · exact Or.inr (Or.inr ⟨(middle, event), by simp, m, isDelivered, found⟩)
      · exact Or.inr (Or.inr ⟨entry, List.mem_append_left _ member, isDelivered⟩)

end Outstanding

end LockedProcesses
