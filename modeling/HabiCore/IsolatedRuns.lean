import HabiCore.LockedProcesses

/-!
# Commands that run alone

A command runs alone if no other command is started before it has replied and
its messages have been handled.  Its requests are then served at once, and if
its one-way messages go to other processes and commute, it does not matter when
they are handled: the outcome is that of a sequential program.
-/

namespace LockedProcesses

open LabelledRuns

variable {ι κ ς σ α μ φ ρ δ : Type} [DecidableEq ι] (S : System ι κ ς σ α μ φ ρ δ)

/-- What a program leaves in the memories, the one-way messages it sends and
its reply. -/
structure Outcome (ι σ μ ρ : Type) where
  memory : ι → σ
  sent : List (ι × μ)
  reply : ρ

namespace System

def deliver (memory : ι → σ) (sent : ι × μ) : ι → σ :=
  Function.update memory sent.1 (S.respond (memory sent.1) sent.2).2

def deliverAll (memory : ι → σ) (sent : List (ι × μ)) : ι → σ :=
  sent.foldl S.deliver memory

/-- The outcome of a program that the process `i` runs alone, before its one-way
messages are handled; there is none if nobody listens on an address it uses. -/
def finish (i : ι) : Program ς σ α μ φ ρ → (ι → σ) → Option (Outcome ι σ μ ρ)
  | .done reply, memory => some ⟨memory, [], reply⟩
  | .locked body next, memory =>
      finish i (next (memory i)) (Function.update memory i (S.execute body (memory i)))
  | .persist next, memory => finish i next memory
  | .exchange address message next, memory =>
      (S.listener address).bind fun peer =>
        match S.respond (memory peer) message with
        | (some reply, left) => finish i (next (.ok reply)) (Function.update memory peer left)
        | (none, left) =>
            finish i (next (.error S.unanswered)) (Function.update memory peer left)
  | .send address message next, memory =>
      (S.listener address).bind fun peer =>
        (finish i (next (.ok ())) memory).map fun outcome =>
          { outcome with sent := (peer, message) :: outcome.sent }

/-- The program runs sections and sends one-way messages to other processes. -/
def Announces (i : ι) (oneWay : μ → Prop) : Program ς σ α μ φ ρ → Prop
  | .done _ => True
  | .locked _ next => ∀ found, Announces i oneWay (next found)
  | .persist next => Announces i oneWay next
  | .exchange .. => False
  | .send address message next =>
      (∀ peer, S.listener address = some peer → peer ≠ i) ∧ oneWay message ∧
        ∀ result, Announces i oneWay (next result)

def RequestsFirst (i : ι) (oneWay : μ → Prop) : Program ς σ α μ φ ρ → Prop
  | .done _ => True
  | .locked _ next => ∀ found, RequestsFirst i oneWay (next found)
  | .persist next => RequestsFirst i oneWay next
  | .exchange _ _ next => ∀ answer, RequestsFirst i oneWay (next answer)
  | .send address message next => S.Announces i oneWay (.send address message next)

def Commutes (oneWay : μ → Prop) : Prop :=
  ∀ found first second, oneWay first → oneWay second →
    (S.respond (S.respond found first).2 second).2 =
      (S.respond (S.respond found second).2 first).2

variable {S} {i : ι} {oneWay : μ → Prop}

theorem deliver_comm (commutes : S.Commutes oneWay) (memory : ι → σ) {first second : ι × μ}
    (firstOneWay : oneWay first.2) (secondOneWay : oneWay second.2) :
    S.deliver (S.deliver memory first) second = S.deliver (S.deliver memory second) first := by
  obtain ⟨x, firstMessage⟩ := first
  obtain ⟨y, secondMessage⟩ := second
  unfold deliver
  by_cases same : x = y
  · subst same
    simp [commutes _ _ _ firstOneWay secondOneWay]
  · simp [same, Ne.symm same, Function.update_comm same]

theorem deliverAll_perm (commutes : S.Commutes oneWay) {sent sent' : List (ι × μ)}
    (perm : sent.Perm sent') (allOneWay : ∀ message ∈ sent, oneWay message.2)
    (memory : ι → σ) : S.deliverAll memory sent = S.deliverAll memory sent' := by
  apply perm.foldl_eq'
  intro first firstIn second secondIn memory
  exact deliver_comm commutes memory (allOneWay first firstIn) (allOneWay second secondIn)

theorem deliverAll_congr {memory memory' : ι → σ} {x : ι} (same : memory x = memory' x)
    (sent : List (ι × μ)) : S.deliverAll memory sent x = S.deliverAll memory' sent x := by
  induction sent generalizing memory memory' with
  | nil => exact same
  | cons first rest ih =>
      apply ih
      unfold deliver
      by_cases isPeer : x = first.1
      · subst isPeer
        rw [Function.update_self, Function.update_self, same]
      · rw [Function.update_of_ne isPeer, Function.update_of_ne isPeer, same]

/-- A delivery to another process may wait until the program has finished. -/
theorem finish_deliver (program : Program ς σ α μ φ ρ) (announces : S.Announces i oneWay program)
    {sent : ι × μ} (other : sent.1 ≠ i) (memory : ι → σ) :
    S.finish i program (S.deliver memory sent) = (S.finish i program memory).map fun outcome =>
      { outcome with memory := S.deliver outcome.memory sent } := by
  induction program generalizing memory with
  | done reply => rfl
  | locked body next ih =>
      have found : S.deliver memory sent i = memory i := by
        rw [deliver, Function.update_of_ne (Ne.symm other)]
      have later : Function.update (S.deliver memory sent) i (S.execute body (memory i)) =
          S.deliver (Function.update memory i (S.execute body (memory i))) sent := by
        rw [deliver, deliver, Function.update_of_ne other, Function.update_comm other]
      simp only [finish, found, later]
      exact ih (memory i) (announces (memory i)) _
  | persist next ih => exact ih announces memory
  | exchange address message next ih => exact announces.elim
  | send address message next ih =>
      cases listening : S.listener address with
      | none => simp [finish, listening]
      | some peer =>
          simp only [finish, listening, Option.bind_some]
          rw [ih (.ok ()) (announces.2.2 _), Option.map_map, Option.map_map]
          rfl

omit [DecidableEq ι] in
theorem RequestsFirst.of_announces {program : Program ς σ α μ φ ρ}
    (announces : S.Announces i oneWay program) : S.RequestsFirst i oneWay program := by
  induction program with
  | done reply => trivial
  | locked body next ih => exact fun found => ih found (announces found)
  | persist next ih => exact ih announces
  | exchange address message next ih => exact announces.elim
  | send address message next ih => exact announces

theorem finish_exchange {address : α} {message : μ} {next : Except φ μ → Program ς σ α μ φ ρ}
    (memory : ι → σ) :
    S.finish i (.exchange address message next) memory = (S.listener address).bind fun peer =>
      S.finish i (S.answered next (S.respond (memory peer) message).1)
        (Function.update memory peer (S.respond (memory peer) message).2) := by
  simp only [finish]
  congr 1
  funext peer
  split
  all_goals
    rename_i responds
    simp [responds, answered]

variable (S) in
def finishActivity (i : ι) : Activity ι ς σ α μ φ ρ → (ι → σ) → Option (Outcome ι σ μ ρ)
  | .running program, memory => S.finish i program memory
  | .waiting peer message next, memory =>
      S.finish i (S.answered next (S.respond (memory peer) message).1)
        (Function.update memory peer (S.respond (memory peer) message).2)
  | .replied reply, memory => some ⟨memory, [], reply⟩

variable (S) in
def ActivityAnnounces (i : ι) (oneWay : μ → Prop) : Activity ι ς σ α μ φ ρ → Prop
  | .running program => S.Announces i oneWay program
  | .waiting .. => False
  | .replied _ => True

variable (S) in
def ActivityRequestsFirst (i : ι) (oneWay : μ → Prop) : Activity ι ς σ α μ φ ρ → Prop
  | .running program => S.RequestsFirst i oneWay program
  | .waiting _ _ next => ∀ answer, S.RequestsFirst i oneWay (next answer)
  | .replied _ => True

/-- The memories after all messages have been handled, and the reply. -/
def settle (S : System ι κ ς σ α μ φ ρ δ) (inFlight : List (ι × μ))
    (outcome : Outcome ι σ μ ρ) : (ι → σ) × ρ :=
  (S.deliverAll outcome.memory (inFlight ++ outcome.sent), outcome.reply)

/-- The thread `k` runs alone, and will end as expected. -/
structure Alone (S : System ι κ ς σ α μ φ ρ δ) (k : Nat) (i : ι) (command : κ)
    (oneWay : μ → Prop) (expected : Option ((ι → σ) × ρ)) (w : World ι κ ς σ α μ φ ρ δ) :
    Prop where
  others : ∀ j thread, j ≠ k → w.threads[j]? = some thread → thread.activity.reply.isSome
  inFlight : ∀ sent ∈ w.inFlight, sent.1 ≠ i ∧ oneWay sent.2
  own : ∃ activity, w.threads[k]? = some ⟨i, command, activity⟩ ∧
    S.ActivityRequestsFirst i oneWay activity ∧
    (w.inFlight = [] ∨ S.ActivityAnnounces i oneWay activity) ∧
    (S.finishActivity i activity w.memory).map (S.settle w.inFlight) = expected

end System

def Event.Isolated (event : Event ι κ φ) : Prop :=
  event.Lossless ∧ event.Starts fun _ => False

instance (event : Event ι κ φ) : Decidable event.Isolated :=
  inferInstanceAs (Decidable (_ ∧ _))

namespace System

variable {S} {i : ι} {oneWay : μ → Prop} {w w' : World ι κ ς σ α μ φ ρ δ}
  {event : Event ι κ φ} {k : Nat} {command : κ}
  {expected : Option ((ι → σ) × ρ)}

/-- The moves of the thread that runs alone. -/
theorem Alone.advance {move : Move φ} (alone : Alone S k i command oneWay expected w)
    (lossless : (Event.thread k move : Event ι κ φ).Lossless)
    (edge : S.Step w (.thread k move) w') : Alone S k i command oneWay expected w' := by
  obtain ⟨activity, present, requestsFirst, phase, ends⟩ := alone.own
  have inBounds : k < w.threads.length := (List.getElem?_eq_some_iff.mp present).1
  have others : ∀ activity' : Activity ι ς σ α μ φ ρ, ∀ j thread, j ≠ k →
      (w.threads.set k ⟨i, command, activity'⟩)[j]? = some thread →
        thread.activity.reply.isSome := by
    intro activity' j thread other found
    rw [List.getElem?_set_ne (Ne.symm other)] at found
    exact alone.others j thread other found
  have own : ∀ activity' : Activity ι ς σ α μ φ ρ,
      (w.threads.set k ⟨i, command, activity'⟩)[k]? = some ⟨i, command, activity'⟩ :=
    fun _ => List.getElem?_set_self inBounds
  cases activity with
  | running program =>
      cases program with
      | done reply =>
          obtain ⟨rfl, rfl⟩ := edge.of_done present
          exact ⟨others _, alone.inFlight, _, own _, trivial, Or.inr trivial, ends⟩
      | locked body next =>
          obtain ⟨rfl, rfl⟩ := edge.of_locked present
          exact ⟨others _, alone.inFlight, _, own _, requestsFirst _,
            phase.imp_right fun announces => announces _, ends⟩
      | persist next =>
          obtain ⟨-, saved, rfl⟩ := edge.of_persist present
          exact ⟨others _, alone.inFlight, _, own _, requestsFirst, phase, ends⟩
      | exchange address message next =>
          obtain ⟨rfl, peer, listening, rfl⟩ := edge.of_lossless_exchange present lossless
          refine ⟨others _, alone.inFlight, _, own _, requestsFirst, phase, ?_⟩
          rw [finishActivity, finish_exchange, listening, Option.bind_some] at ends
          exact ends
      | send address message next =>
          obtain ⟨rfl, peer, listening, rfl⟩ := edge.of_send present lossless
          obtain ⟨elsewhere, isOneWay, announces⟩ := requestsFirst
          refine ⟨others _, fun sent member => ?_, _, own _, .of_announces (announces _),
            Or.inr (announces _), ?_⟩
          · rcases List.mem_append.mp member with old | new
            · exact alone.inFlight sent old
            · obtain rfl := List.mem_singleton.mp new
              exact ⟨elsewhere peer listening, isOneWay⟩
          · rw [← ends]
            simp only [finishActivity, finish, listening, Option.bind_some, Option.map_map]
            congr 1
            funext outcome
            simp [settle]
  | waiting peer message next =>
      obtain ⟨rfl, rfl⟩ := edge.of_lossless_waiting present lossless
      have answered : S.RequestsFirst i oneWay
          (S.answered next (S.respond (w.memory peer) message).1) := by
        unfold System.answered
        split
        · exact requestsFirst _
        · exact requestsFirst _
      exact ⟨others _, alone.inFlight, _, own _, answered, Or.inl (phase.resolve_right id), ends⟩
  | replied reply => exact (edge.of_replied present).elim

theorem finishActivity_deliver {activity : Activity ι ς σ α μ φ ρ}
    (announces : S.ActivityAnnounces i oneWay activity) {sent : ι × μ} (other : sent.1 ≠ i)
    (memory : ι → σ) :
    S.finishActivity i activity (S.deliver memory sent) =
      (S.finishActivity i activity memory).map fun outcome =>
        { outcome with memory := S.deliver outcome.memory sent } := by
  cases activity with
  | running program => exact finish_deliver program announces other memory
  | waiting peer message next => exact announces.elim
  | replied reply => rfl

theorem Alone.step (alone : Alone S k i command oneWay expected w)
    (commutes : S.Commutes oneWay) (isolated : event.Isolated) (edge : S.Step w event w') :
    Alone S k i command oneWay expected w' := by
  cases event with
  | started j other => exact isolated.2.elim
  | lost m => exact isolated.1.elim
  | thread j move =>
      by_cases same : j = k
      · subst same
        exact alone.advance isolated.1 edge
      · obtain ⟨⟨x, other, activity⟩, present, -⟩ := Option.bind_eq_some_iff.mp edge
        have replied := alone.others j _ same present
        cases activity with
        | replied reply => exact (edge.of_replied present).elim
        | _ => simp [Activity.reply] at replied
  | delivered m =>
      obtain ⟨sent, flying, rfl⟩ := Option.map_eq_some_iff.mp edge
      obtain ⟨activity, present, requestsFirst, phase, ends⟩ := alone.own
      have isIn : sent ∈ w.inFlight := List.mem_of_getElem? flying
      have announces : S.ActivityAnnounces i oneWay activity :=
        phase.resolve_left (List.ne_nil_of_mem isIn)
      have perm : w.inFlight.Perm (sent :: w.inFlight.eraseIdx m) := by
        obtain ⟨inBounds, rfl⟩ := List.getElem?_eq_some_iff.mp flying
        have split : w.inFlight.take m ++ w.inFlight[m] :: w.inFlight.drop (m + 1) =
            w.inFlight := by
          rw [List.getElem_cons_drop, List.take_append_drop]
        rw [List.eraseIdx_eq_take_drop_succ]
        exact (List.Perm.of_eq split.symm).trans List.perm_middle
      refine ⟨alone.others, fun other member =>
        alone.inFlight other (List.mem_of_mem_eraseIdx member), activity, present, requestsFirst,
        Or.inr announces, ?_⟩
      rw [← ends]
      change (S.finishActivity i activity (S.deliver w.memory sent)).map _ = _
      rw [finishActivity_deliver announces (alone.inFlight sent isIn).1, Option.map_map]
      congr 1
      funext outcome
      have early := deliverAll_perm commutes perm
        (fun other member => (alone.inFlight other member).2) outcome.memory
      simp only [settle, Function.comp, deliverAll, List.foldl_append] at early ⊢
      rw [early, List.foldl_cons]

/-- A command that runs alone ends as its program would if it ran at once and
its messages were handled in the order in which it sends them. -/
theorem isolated_outcome {first last : World ι κ ς σ α μ φ ρ δ} (commutes : S.Commutes oneWay)
    (requestsFirst : S.RequestsFirst i oneWay (S.handler i command)) (quiescent : w.Quiescent)
    (begins : S.Step w (.started i command) first)
    (reaches : Reaches S.Step (fun _ event => event.Isolated) first last)
    (ends : last.Quiescent) :
    ∃ outcome, S.finish i (S.handler i command) w.memory = some outcome ∧
      last.memory = S.deliverAll outcome.memory outcome.sent ∧
      last.threads[w.threads.length]? = some ⟨i, command, .replied outcome.reply⟩ := by
  have initially : Alone S w.threads.length i command oneWay
      ((S.finish i (S.handler i command) w.memory).map (S.settle [])) first := by
    cases begins
    refine ⟨fun j thread other found => ?_, by simp [quiescent.2],
      .running (S.handler i command), by simp, requestsFirst, Or.inl quiescent.2,
      by simp [finishActivity, quiescent.2]⟩
    rw [List.getElem?_append] at found
    split at found
    · exact quiescent.1 thread (List.mem_of_getElem? found)
    · have bound := (List.getElem?_eq_some_iff.mp found).1
      simp only [List.length_singleton] at bound
      omega
  have alone := reaches.invariant (Alone S w.threads.length i command oneWay _) initially
    fun _ _ _ isolated alone edge => alone.step commutes isolated edge
  obtain ⟨activity, present, -, -, expected⟩ := alone.own
  have replied := ends.1 _ (List.mem_of_getElem? present)
  cases activity with
  | replied reply =>
      rw [finishActivity, ends.2] at expected
      obtain ⟨outcome, finishes, same⟩ := Option.map_eq_some_iff.mp expected.symm
      simp only [settle, List.nil_append, Prod.mk.injEq] at same
      refine ⟨outcome, finishes, ?_, ?_⟩
      · rw [same.1]
        rfl
      · rw [same.2]
        exact present
  | _ => simp [Activity.reply] at replied

end System

end LockedProcesses
