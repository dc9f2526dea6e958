import HabiCore.HandlerContracts

/-!
# Processes that write their messages down

What travels between two processes is a text.  A codec says how messages,
commands, replies and saved images are written and read, and a text may be
refused by its reader.  As long as every message is read as it was written,
every run is one of processes that exchange the messages themselves.
-/

namespace LockedProcesses

/-- The second list shows the entries of the first, in order, but for some
hidden ones. -/
inductive Shows {A B : Type*} (hidden : A → Prop) (related : A → B → Prop) :
    List A → List B → Prop
  | nil : Shows hidden related [] []
  | hide {a : A} {full : List A} {shown : List B} :
      hidden a → Shows hidden related full shown → Shows hidden related (a :: full) shown
  | view {a : A} {b : B} {full : List A} {shown : List B} :
      related a b → Shows hidden related full shown →
        Shows hidden related (a :: full) (b :: shown)

namespace Shows

variable {A B : Type*} {hidden : A → Prop} {related : A → B → Prop}
  {full : List A} {shown : List B}

theorem append_hidden (shows : Shows hidden related full shown) {a : A} (isHidden : hidden a) :
    Shows hidden related (full ++ [a]) shown := by
  induction shows with
  | nil => exact .hide isHidden .nil
  | hide first _ ih => exact .hide first ih
  | view first _ ih => exact .view first ih

theorem append_shown (shows : Shows hidden related full shown) {a : A} {b : B}
    (isRelated : related a b) : Shows hidden related (full ++ [a]) (shown ++ [b]) := by
  induction shows with
  | nil => exact .view isRelated .nil
  | hide first _ ih => exact .hide first ih
  | view first _ ih => exact .view first ih

theorem set (shows : Shows hidden related full shown) {k : Nat} {a : A}
    (present : full[k]? = some a) :
    (hidden a ∧ ∀ a', hidden a' → Shows hidden related (full.set k a') shown) ∨
    ∃ k' b, shown[k']? = some b ∧ related a b ∧
      ∀ a' b', related a' b' → Shows hidden related (full.set k a') (shown.set k' b') := by
  induction shows generalizing k with
  | nil => simp at present
  | @hide first full shown isHidden rest ih =>
      cases k with
      | zero =>
          obtain rfl : first = a := by simpa using present
          exact Or.inl ⟨isHidden, fun a' isHidden' => .hide isHidden' rest⟩
      | succ k =>
          rcases ih (by simpa using present) with ⟨isHidden', replaced⟩ |
            ⟨k', b, found, isRelated, replaced⟩
          · exact Or.inl ⟨isHidden', fun a' other => .hide isHidden (replaced a' other)⟩
          · exact Or.inr ⟨k', b, found, isRelated, fun a' b' other =>
              .hide isHidden (replaced a' b' other)⟩
  | @view first last full shown isRelated rest ih =>
      cases k with
      | zero =>
          obtain rfl : first = a := by simpa using present
          exact Or.inr ⟨0, last, rfl, isRelated, fun a' b' other => .view other rest⟩
      | succ k =>
          rcases ih (by simpa using present) with ⟨isHidden', replaced⟩ |
            ⟨k', b, found, isRelated', replaced⟩
          · exact Or.inl ⟨isHidden', fun a' other => .view isRelated (replaced a' other)⟩
          · exact Or.inr ⟨k' + 1, b, by simpa using found, isRelated', fun a' b' other =>
              .view isRelated (replaced a' b' other)⟩

theorem mono {related' : A → B → Prop} (shows : Shows hidden related full shown)
    (weaker : ∀ a b, related a b → related' a b) : Shows hidden related' full shown := by
  induction shows with
  | nil => exact .nil
  | hide isHidden _ ih => exact .hide isHidden ih
  | view isRelated _ ih => exact .view (weaker _ _ isRelated) ih

theorem filterMap (shows : Shows hidden related full shown) {f : A → Option A} {g : B → Option B}
    (staysHidden : ∀ a a', hidden a → f a = some a' → hidden a')
    (together : ∀ a b, related a b → (f a = none ∧ g b = none) ∨
      ∃ a' b', f a = some a' ∧ g b = some b' ∧ related a' b') :
    Shows hidden related (full.filterMap f) (shown.filterMap g) := by
  induction shows with
  | nil => exact .nil
  | @hide a full shown isHidden _ ih =>
      rw [List.filterMap_cons]
      split
      · exact ih
      · rename_i a' kept
        exact .hide (staysHidden a a' isHidden kept) ih
  | @view a b full shown isRelated _ ih =>
      rcases together a b isRelated with ⟨noneA, noneB⟩ | ⟨a', b', someA, someB, isRelated'⟩
      · rw [List.filterMap_cons_none noneA, List.filterMap_cons_none noneB]
        exact ih
      · rw [List.filterMap_cons_some someA, List.filterMap_cons_some someB]
        exact .view isRelated' ih

theorem mem_shown (shows : Shows hidden related full shown) {b : B} (member : b ∈ shown) :
    ∃ a ∈ full, related a b := by
  induction shows with
  | nil => simp at member
  | hide _ _ ih =>
      obtain ⟨a, isIn, isRelated⟩ := ih member
      exact ⟨a, List.mem_cons_of_mem _ isIn, isRelated⟩
  | @view a b' full shown isRelated _ ih =>
      rcases List.mem_cons.mp member with rfl | later
      · exact ⟨a, List.mem_cons_self, isRelated⟩
      · obtain ⟨a', isIn, isRelated'⟩ := ih later
        exact ⟨a', List.mem_cons_of_mem _ isIn, isRelated'⟩

theorem mem_full (shows : Shows hidden related full shown) {a : A} (member : a ∈ full) :
    hidden a ∨ ∃ b ∈ shown, related a b := by
  induction shows with
  | nil => simp at member
  | hide isHidden _ ih =>
      rcases List.mem_cons.mp member with rfl | later
      · exact Or.inl isHidden
      · exact ih later
  | @view first b full shown isRelated _ ih =>
      rcases List.mem_cons.mp member with rfl | later
      · exact Or.inr ⟨b, List.mem_cons_self, isRelated⟩
      · rcases ih later with isHidden | ⟨b', isIn, isRelated'⟩
        · exact Or.inl isHidden
        · exact Or.inr ⟨b', List.mem_cons_of_mem _ isIn, isRelated'⟩

end Shows

/-- How the typed values of a system are written and read.  A command that is
refused is answered at once, a message that is refused is ignored, and a reply
that is refused is a failure of its own. -/
structure Codec (κ μ φ ρ δ κ' μ' φ' ρ' δ' : Type) where
  readCommand : κ' → Except ρ' κ
  write : μ → μ'
  readMessage : μ' → Option μ
  readReply : μ' → Except φ μ
  failure : φ' → φ
  closed : φ'
  writeReply : ρ → ρ'
  writeImage : δ → δ'

variable {ι ς σ α κ μ φ ρ δ κ' μ' φ' ρ' δ' : Type}

section Translation

variable (c : Codec κ μ φ ρ δ κ' μ' φ' ρ' δ')

namespace Codec

def answer : Except φ' μ' → Except φ μ
  | .ok text => c.readReply text
  | .error failure => .error (c.failure failure)

def program : Program ς σ α μ φ ρ → Program ς σ α μ' φ' ρ'
  | .done reply => .done (c.writeReply reply)
  | .locked body next => .locked body fun found => program (next found)
  | .persist next => .persist (program next)
  | .exchange address message next =>
      .exchange address (c.write message) fun text => program (next (c.answer text))
  | .send address message next =>
      .send address (c.write message) fun result => program (next (result.mapError c.failure))

def activity : Activity ι ς σ α μ φ ρ → Activity ι ς σ α μ' φ' ρ'
  | .running program => .running (c.program program)
  | .waiting peer message next =>
      .waiting peer (c.write message) fun text => c.program (next (c.answer text))
  | .replied reply => .replied (c.writeReply reply)

def sent (message : ι × μ) : ι × μ' :=
  (message.1, c.write message.2)

def move : Move φ' → Move φ
  | .locked => .locked
  | .persisted => .persisted
  | .notPersisted => .notPersisted
  | .requested => .requested
  | .served => .served
  | .sent => .sent
  | .replied => .replied
  | .failed failure escaped => .failed (c.failure failure) escaped
  | .replyLost failure => .replyLost (c.failure failure)

def Refused (thread : Thread ι κ' ς σ α μ' φ' ρ') : Prop :=
  ∃ refusal, c.readCommand thread.command = .error refusal ∧
    (thread.activity = .running (.done refusal) ∨ thread.activity = .replied refusal)

/-- The first thread does in writing what the second does. -/
def Follows (thread' : Thread ι κ' ς σ α μ' φ' ρ') (thread : Thread ι κ ς σ α μ φ ρ) : Prop :=
  c.readCommand thread'.command = .ok thread.command ∧ thread'.process = thread.process ∧
    thread'.activity = c.activity thread.activity

/-- The first world is the second one in writing, with some refused commands. -/
structure Writes (w' : World ι κ' ς σ α μ' φ' ρ' δ') (w : World ι κ ς σ α μ φ ρ δ) : Prop where
  memory : w'.memory = w.memory
  saved : ∀ i, w'.saved i = (w.saved i).map c.writeImage
  threads : Shows c.Refused c.Follows w'.threads w.threads
  inFlight : w'.inFlight = w.inFlight.map c.sent

/-- The same event, but for the numbers of threads. -/
def SameEvent : Event ι κ' φ' → Event ι κ φ → Prop
  | .started i text, .started j command => i = j ∧ c.readCommand text = .ok command
  | .thread _ move', .thread _ move => c.move move' = move
  | .delivered m, .delivered n | .lost m, .lost n => m = n
  | _, _ => False

/-- The event only concerns a command that is refused. -/
def RefusedEvent (w' : World ι κ' ς σ α μ' φ' ρ' δ') : Event ι κ' φ' → Prop
  | .started _ text => ∃ refusal, c.readCommand text = .error refusal
  | .thread k move => move = .replied ∧ ∃ thread, w'.threads[k]? = some thread ∧ c.Refused thread
  | _ => False

end Codec

/-- The system whose processes write their messages down. -/
def System.written (S : System ι κ ς σ α μ φ ρ δ) : System ι κ' ς σ α μ' φ' ρ' δ' where
  handler i text :=
    match c.readCommand text with
    | .ok command => c.program (S.handler i command)
    | .error refusal => .done refusal
  execute := S.execute
  respond found text :=
    match c.readMessage text with
    | some message =>
        let outcome := S.respond found message
        (outcome.1.map c.write, outcome.2)
    | none => (none, found)
  listener := S.listener
  unanswered := c.closed
  image found := c.writeImage (S.image found)

end Translation

theorem System.Transition.step [DecidableEq ι] {S : System ι κ ς σ α μ φ ρ δ}
    {w next : World ι κ ς σ α μ φ ρ δ} {event : Event ι κ φ}
    (transition : S.Transition w event next) : S.Step w event next := by
  cases transition with
  | started | lost => rfl
  | locked present | persisted present | notPersisted present | served present
  | replied present | exchangeFailed present | sendFailed present | waitFailed present
  | replyLost present =>
      simp [System.Step, System.step, System.advance, World.resume, present]
  | requested present listening | sent present listening =>
      simp [System.Step, System.step, System.advance, World.resume, present, listening]
  | delivered present => simp [System.Step, System.step, present]

namespace Codec

variable {c : Codec κ μ φ ρ δ κ' μ' φ' ρ' δ'}

section Inversion

variable {a : Activity ι ς σ α μ φ ρ} {address : α} {text : μ'}

theorem activity_eq_locked {body : ς} {next' : σ → Program ς σ α μ' φ' ρ'} :
    c.activity a = .running (.locked body next') ↔
      ∃ next, a = .running (.locked body next) ∧ (fun found => c.program (next found)) = next' := by
  rcases a with (_ | _ | _ | _ | _) | _ | _ <;> simp [activity, program, and_comm]

theorem activity_eq_persist {next' : Program ς σ α μ' φ' ρ'} :
    c.activity a = .running (.persist next') ↔
      ∃ next, a = .running (.persist next) ∧ c.program next = next' := by
  rcases a with (_ | _ | _ | _ | _) | _ | _ <;> simp [activity, program]

theorem activity_eq_done {reply' : ρ'} :
    c.activity a = .running (.done reply') ↔
      ∃ reply, a = .running (.done reply) ∧ c.writeReply reply = reply' := by
  rcases a with (_ | _ | _ | _ | _) | _ | _ <;> simp [activity, program]

theorem activity_eq_exchange {next' : Except φ' μ' → Program ς σ α μ' φ' ρ'} :
    c.activity a = .running (.exchange address text next') ↔
      ∃ message next, a = .running (.exchange address message next) ∧ c.write message = text ∧
        (fun answer => c.program (next (c.answer answer))) = next' := by
  rcases a with (_ | _ | _ | _ | _) | _ | _ <;> simp [activity, program]

theorem activity_eq_send {next' : Except φ' Unit → Program ς σ α μ' φ' ρ'} :
    c.activity a = .running (.send address text next') ↔
      ∃ message next, a = .running (.send address message next) ∧ c.write message = text ∧
        (fun result => c.program (next (result.mapError c.failure))) = next' := by
  rcases a with (_ | _ | _ | _ | _) | _ | _ <;> simp [activity, program]

theorem activity_eq_waiting {peer : ι} {next' : Except φ' μ' → Program ς σ α μ' φ' ρ'} :
    c.activity a = .waiting peer text next' ↔
      ∃ message next, a = .waiting peer message next ∧ c.write message = text ∧
        (fun answer => c.program (next (c.answer answer))) = next' := by
  rcases a with (_ | _ | _ | _ | _) | _ | _ <;> simp [activity, program]

theorem activity_reply {reply' : ρ'} :
    (c.activity a).reply = some reply' ↔
      ∃ reply, a = .replied reply ∧ c.writeReply reply = reply' := by
  rcases a with (_ | _ | _ | _ | _) | _ | _ <;> simp [activity, Activity.reply]

end Inversion

/-- The messages that may be handled in a world, and the replies to them, are
read as they are written. -/
structure Legible (c : Codec κ μ φ ρ δ κ' μ' φ' ρ' δ') (S : System ι κ ς σ α μ φ ρ δ)
    (w : World ι κ ς σ α μ φ ρ δ) : Prop where
  message : ∀ event peer message, w.Handles event peer message →
    c.readMessage (c.write message) = some message
  reply : ∀ event peer message reply, w.Handles event peer message →
    (S.respond (w.memory peer) message).1 = some reply →
      c.readReply (c.write reply) = .ok reply

variable {S : System ι κ ς σ α μ φ ρ δ} {w : World ι κ ς σ α μ φ ρ δ}
  {w' next' : World ι κ' ς σ α μ' φ' ρ' δ'} {event' : Event ι κ' φ'}

theorem Writes.follows (writes : c.Writes w' w) {k : Nat} {i : ι} {text : κ'}
    {activity' : Activity ι ς σ α μ' φ' ρ'} (present : w'.threads[k]? = some ⟨i, text, activity'⟩)
    (busy : (∀ reply, activity' ≠ .running (.done reply)) ∧ ∀ reply, activity' ≠ .replied reply) :
    ∃ k₀ command a, w.threads[k₀]? = some ⟨i, command, a⟩ ∧ c.activity a = activity' ∧
      ∀ b, Shows c.Refused c.Follows (w'.threads.set k ⟨i, text, c.activity b⟩)
        (w.threads.set k₀ ⟨i, command, b⟩) := by
  rcases writes.threads.set present with ⟨⟨refusal, -, done | replied⟩, -⟩ |
    ⟨k₀, ⟨j, command, a⟩, found, ⟨read, same, isActivity⟩, replaced⟩
  · exact (busy.1 _ done).elim
  · exact (busy.2 _ replied).elim
  · obtain rfl : i = j := same
    exact ⟨k₀, command, a, found, isActivity.symm, fun b => replaced _ _ ⟨read, rfl, rfl⟩⟩

theorem written_answered (closed : c.failure c.closed = S.unanswered)
    (next : Except φ μ → Program ς σ α μ φ ρ) {answer : Option μ}
    (legible : ∀ reply, answer = some reply → c.readReply (c.write reply) = .ok reply) :
    (S.written c).answered (fun text => c.program (next (c.answer text))) (answer.map c.write) =
      c.program (S.answered next answer) := by
  cases answer with
  | none => simp [System.answered, System.written, Codec.answer, closed]
  | some reply => simp [System.answered, Codec.answer, legible reply rfl]

theorem written_escaping (escaped : Bool) (address : α) (message : μ) :
    (S.written c).escaping escaped address (c.write message) =
      (S.escaping escaped address message).map c.sent := by
  unfold System.escaping
  cases escaped with
  | false => rfl
  | true => cases listening : S.listener address <;> simp [System.written, listening, sent]

theorem eraseIdx_map_sent (inFlight : List (ι × μ)) (m : Nat) :
    (inFlight.map c.sent).eraseIdx m = (inFlight.eraseIdx m).map c.sent := by
  simp [List.eraseIdx_eq_take_drop_succ]

/-- A step in writing is a step, or it concerns a refused command. -/
theorem Writes.step [DecidableEq ι] (writes : c.Writes w' w) (legible : c.Legible S w)
    (closed : c.failure c.closed = S.unanswered) (edge : (S.written c).Step w' event' next') :
    (c.RefusedEvent w' event' ∧ c.Writes next' w) ∨
    ∃ event next, S.Step w event next ∧ c.SameEvent event' event ∧ c.Writes next' next := by
  obtain ⟨memory, saved, threads, inFlight⟩ := writes
  have writes : c.Writes w' w := ⟨memory, saved, threads, inFlight⟩
  cases edge.transition with
  | started i text =>
      cases read : c.readCommand text with
      | error refusal =>
          refine Or.inl ⟨⟨refusal, read⟩, memory, saved, threads.append_hidden ?_, inFlight⟩
          exact ⟨refusal, read, Or.inl (by simp [System.written, read])⟩
      | ok command =>
          refine Or.inr ⟨.started i command, _, rfl, ⟨rfl, read⟩, memory, saved, ?_, inFlight⟩
          refine threads.append_shown ⟨read, rfl, ?_⟩
          simp [System.written, read, activity]
  | @locked k i text body after present =>
      obtain ⟨k₀, command, a, found, isActivity, replaced⟩ := writes.follows present (by simp)
      obtain ⟨onward, rfl, rfl⟩ := activity_eq_locked.mp isActivity
      refine Or.inr ⟨.thread k₀ .locked, _, (System.Transition.locked found).step, rfl, ?_, saved,
        ?_, inFlight⟩
      · simp [System.written, memory]
      · rw [memory]
        exact replaced (.running (onward (w.memory i)))
  | @persisted k i text after present =>
      obtain ⟨k₀, command, a, found, isActivity, replaced⟩ := writes.follows present (by simp)
      obtain ⟨onward, rfl, rfl⟩ := activity_eq_persist.mp isActivity
      refine Or.inr ⟨.thread k₀ .persisted, _, (System.Transition.persisted found).step, rfl,
        memory, fun j => ?_, replaced (.running onward), inFlight⟩
      by_cases same : j = i
      · subst same
        simp [System.written, memory]
      · simp [same, saved j]
  | @notPersisted k i text after present =>
      obtain ⟨k₀, command, a, found, isActivity, replaced⟩ := writes.follows present (by simp)
      obtain ⟨onward, rfl, rfl⟩ := activity_eq_persist.mp isActivity
      exact Or.inr ⟨.thread k₀ .notPersisted, _, (System.Transition.notPersisted found).step, rfl,
        memory, saved, replaced (.running onward), inFlight⟩
  | @requested k i peer text address message after present listening =>
      obtain ⟨k₀, command, a, found, isActivity, replaced⟩ := writes.follows present (by simp)
      obtain ⟨request, onward, rfl, rfl, rfl⟩ := activity_eq_exchange.mp isActivity
      have listening : S.listener address = some peer := listening
      refine Or.inr ⟨.thread k₀ .requested, _, (System.Transition.requested found listening).step,
        rfl, memory, saved, replaced (.waiting peer request onward), inFlight⟩
  | @served k i peer text message after present =>
      obtain ⟨k₀, command, a, found, isActivity, replaced⟩ := writes.follows present (by simp)
      obtain ⟨request, onward, rfl, rfl, rfl⟩ := activity_eq_waiting.mp isActivity
      have handles : w.Handles (.thread k₀ .served : Event ι κ φ) peer request :=
        Or.inr ⟨_, _, _, _, _, rfl, found⟩
      have read := legible.message _ _ _ handles
      refine Or.inr ⟨.thread k₀ .served, _, (System.Transition.served found).step, rfl, ?_, saved,
        ?_, inFlight⟩
      · simp [System.written, memory, read]
      · have goesOn := written_answered closed onward
          fun reply => legible.reply _ _ _ reply handles
        have answered := replaced
          (.running (S.answered onward (S.respond (w.memory peer) request).1))
        rw [activity, ← goesOn] at answered
        simpa [System.written, read, memory, World.resume] using answered
  | @sent k i peer text address message after present listening =>
      obtain ⟨k₀, command, a, found, isActivity, replaced⟩ := writes.follows present (by simp)
      obtain ⟨notice, onward, rfl, rfl, rfl⟩ := activity_eq_send.mp isActivity
      have listening : S.listener address = some peer := listening
      refine Or.inr ⟨.thread k₀ .sent, _, (System.Transition.sent found listening).step,
        rfl, memory, saved, replaced (.running (onward (.ok ()))), ?_⟩
      simp [inFlight, sent]
  | @replied k i text reply present =>
      rcases threads.set present with ⟨⟨refusal, read, isDone⟩, hidden⟩ |
        ⟨k₀, ⟨j, command, a⟩, found, ⟨read, same, isActivity⟩, replaced⟩
      · refine Or.inl ⟨⟨rfl, _, present, refusal, read, isDone⟩, memory, saved, ?_, inFlight⟩
        obtain rfl : reply = refusal := by simpa using isDone
        exact hidden _ ⟨reply, read, Or.inr rfl⟩
      · obtain rfl : i = j := same
        obtain ⟨given, rfl, rfl⟩ := activity_eq_done.mp isActivity.symm
        exact Or.inr ⟨.thread k₀ .replied, _, (System.Transition.replied found).step, rfl,
          memory, saved, replaced _ ⟨i, command, .replied given⟩ ⟨read, rfl, rfl⟩, inFlight⟩
  | @exchangeFailed k i text address message after failure escaped present =>
      obtain ⟨k₀, command, a, found, isActivity, replaced⟩ := writes.follows present (by simp)
      obtain ⟨request, onward, rfl, rfl, rfl⟩ := activity_eq_exchange.mp isActivity
      refine Or.inr ⟨.thread k₀ (.failed (c.failure failure) escaped), _,
        (System.Transition.exchangeFailed found).step, rfl, memory, saved,
        replaced (.running (onward (.error (c.failure failure)))), ?_⟩
      simp [inFlight, written_escaping]
  | @sendFailed k i text address message after failure escaped present =>
      obtain ⟨k₀, command, a, found, isActivity, replaced⟩ := writes.follows present (by simp)
      obtain ⟨notice, onward, rfl, rfl, rfl⟩ := activity_eq_send.mp isActivity
      refine Or.inr ⟨.thread k₀ (.failed (c.failure failure) escaped), _,
        (System.Transition.sendFailed found).step, rfl, memory, saved,
        replaced (.running (onward (.error (c.failure failure)))), ?_⟩
      simp [inFlight, written_escaping]
  | @waitFailed k i peer text message after failure escaped present =>
      obtain ⟨k₀, command, a, found, isActivity, replaced⟩ := writes.follows present (by simp)
      obtain ⟨request, onward, rfl, rfl, rfl⟩ := activity_eq_waiting.mp isActivity
      refine Or.inr ⟨.thread k₀ (.failed (c.failure failure) escaped), _,
        (System.Transition.waitFailed found).step, rfl, memory, saved,
        replaced (.running (onward (.error (c.failure failure)))), ?_⟩
      cases escaped <;> simp [inFlight, sent]
  | @replyLost k i peer text message after failure present =>
      obtain ⟨k₀, command, a, found, isActivity, replaced⟩ := writes.follows present (by simp)
      obtain ⟨request, onward, rfl, rfl, rfl⟩ := activity_eq_waiting.mp isActivity
      have handles : w.Handles (.thread k₀ (.replyLost (c.failure failure)) : Event ι κ φ) peer
          request := Or.inr ⟨_, _, _, _, _, rfl, found⟩
      have read := legible.message _ _ _ handles
      refine Or.inr ⟨.thread k₀ (.replyLost (c.failure failure)), _,
        (System.Transition.replyLost found).step, rfl, ?_, saved,
        replaced (.running (onward (.error (c.failure failure)))), inFlight⟩
      simp [System.written, memory, read]
  | @delivered m peer text present =>
      rw [inFlight, List.getElem?_map, Option.map_eq_some_iff] at present
      obtain ⟨⟨peer', message⟩, found, same⟩ := present
      obtain ⟨rfl, rfl⟩ : peer' = peer ∧ c.write message = text := by simpa [sent] using same
      have handles : w.Handles (.delivered m : Event ι κ φ) peer' message := Or.inl ⟨m, rfl, found⟩
      have read := legible.message _ _ _ handles
      refine Or.inr ⟨.delivered m, _, (System.Transition.delivered found).step, rfl, ?_,
        saved, threads, ?_⟩
      · simp [System.written, memory, read]
      · rw [inFlight, eraseIdx_map_sent]
  | lost m =>
      exact Or.inr ⟨.lost m, _, rfl, rfl, memory, saved, threads,
        by rw [inFlight, eraseIdx_map_sent]⟩

theorem SameEvent.starts {event : Event ι κ φ} {commands : κ → Prop}
    (same : c.SameEvent event' event)
    (starts : event'.Starts fun text => ∀ command, c.readCommand text = .ok command →
      commands command) :
    event.Starts commands := by
  cases event with
  | started i command =>
      cases event' with
      | started j text => exact starts command same.2
      | _ => exact same.elim
  | _ => trivial

/-- What a contract allows to be sent is read as it is written. -/
structure Faithful {K : Type} [Preorder K] (c : Codec κ μ φ ρ δ κ' μ' φ' ρ' δ')
    (C : Contract K ι κ ς σ α μ ρ) : Prop where
  message : ∀ k message, C.message k message → c.readMessage (c.write message) = some message
  request : ∀ k i command message, C.request k i command message → C.message k message
  answer : ∀ k message reply, C.answer k message reply → c.readReply (c.write reply) = .ok reply

variable {K : Type} [Preorder K] {C : Contract K ι κ ς σ α μ ρ}

theorem Faithful.handled (faithful : c.Faithful C) {k : K} (complies : C.Complies k w)
    {event : Event ι κ φ} {peer : ι} {message : μ} (handles : w.Handles event peer message) :
    C.message k message := by
  rcases complies.handled handles with allowed | ⟨i, command, requested⟩
  · exact allowed
  · exact faithful.request _ _ _ _ requested

variable [DecidableEq ι] {known : (ι → σ) → K} {commands : κ → Prop}

theorem Faithful.legible (faithful : c.Faithful C) (kept : C.Kept S known commands)
    (complies : C.Complies (known w.memory) w) : c.Legible S w where
  message _ _ _ handles := faithful.message _ _ (faithful.handled complies handles)
  reply _ peer message reply handles replied := by
    obtain ⟨-, -, answers⟩ := kept.respond w.memory peer message complies.memory
      (Or.inl (faithful.handled complies handles))
    exact faithful.answer _ _ _ (answers reply replied)

/-- A run in writing is a run, but for the events that only concern refused
commands.  It is enough that the system keeps a contract whose messages are
read as they are written. -/
theorem Faithful.run (faithful : c.Faithful C) (kept : C.Kept S known commands)
    (closed : c.failure c.closed = S.unanswered) {start : World ι κ ς σ α μ φ ρ δ}
    {start' last' : World ι κ' ς σ α μ' φ' ρ' δ'}
    {trace' : List (World ι κ' ς σ α μ' φ' ρ' δ' × Event ι κ' φ')}
    (writes : c.Writes start' start) (complies : C.Complies (known start.memory) start)
    (run : LabelledRuns.Run (S.written c).Step start' trace' last')
    (starts : ∀ entry ∈ trace', entry.2.Starts fun text =>
      ∀ command, c.readCommand text = .ok command → commands command) :
    ∃ trace last, LabelledRuns.Run S.Step start trace last ∧ c.Writes last' last ∧
      C.Complies (known last.memory) last ∧
      Shows (fun entry' => c.RefusedEvent entry'.1 entry'.2)
        (fun entry' entry => c.Writes entry'.1 entry.1 ∧ c.SameEvent entry'.2 entry.2 ∧
          C.Complies (known entry.1.memory) entry.1)
        trace' trace := by
  induction run with
  | refl => exact ⟨[], start, .refl, writes, complies, .nil⟩
  | @tail trace' middle' last' event' run edge ih =>
      obtain ⟨trace, middle, run, writesMiddle, compliesMiddle, shows⟩ :=
        ih fun entry member => starts entry (List.mem_append_left _ member)
      have legible := faithful.legible kept compliesMiddle
      rcases writesMiddle.step legible closed edge with ⟨refused, writesLast⟩ |
        ⟨event, last, step, same, writesLast⟩
      · exact ⟨trace, middle, run, writesLast, compliesMiddle, shows.append_hidden refused⟩
      · have allowed := same.starts (starts (middle', event') (by simp))
        exact ⟨_, last, run.tail step, writesLast,
          kept.step compliesMiddle allowed (Or.inr faithful.request) step,
          shows.append_shown ⟨writesMiddle, same, compliesMiddle⟩⟩

end Codec

end LockedProcesses
