import HabiCore.AdminClient
import HabiCore.WrittenRuns

/-!
# What is observed of a deployment over text

The memories, the state files, the texts in flight and the lines with which
commands have been answered are the same for a deployment over text as for one
whose nodes exchange messages: neither shows anything that the other does not.
-/

namespace HabiCore

open LockedProcesses LabelledRuns WireFormat SocketLines

namespace AdminMessage

/-- The command names nothing that breaks a line and does not seed the bearer of the
empty name. -/
def Typable (msg : AdminMessage) : Prop :=
  (∀ s ∈ msg.scalars, OneLine s) ∧ msg ≠ .seed ""

instance : DecidablePred Typable :=
  fun _ => inferInstanceAs (Decidable (_ ∧ _))

variable {msg : AdminMessage}

theorem Typable.upToBreak (typable : msg.Typable) : msg.upToBreak = msg := by
  cases msg <;>
    simp_all [Typable, AdminMessage.upToBreak, AdminMessage.scalars, firstLine_of_oneLine]

theorem typable_of_namesBearer {input : AdminLine} (names : Deployment.NamesBearer input)
    {command : Command} (read : readCommand input = .ok command) : command.message.Typable := by
  refine ⟨oneLine_of_readCommand read, fun seedsEmpty => ?_⟩
  exact (Deployment.bearer_of_namesBearer names read seedsEmpty).2 rfl

theorem Typable.seeds {command : Command} (typable : command.message.Typable) :
    Deployment.readable.Seeds command := by
  intro bearer seeds
  obtain ⟨oneLine, named⟩ := typable
  rw [seeds] at oneLine named
  exact ⟨oneLine bearer (by simp [AdminMessage.scalars]), fun blank => named (blank ▸ rfl)⟩

theorem Typable.exists_line {command : Command} (typable : command.message.Typable) :
    ∃ input, codec.readCommand input = .ok command := by
  have read := readCommand_encode command.message command.order
  rw [typable.upToBreak] at read
  exact ⟨_, read⟩

end AdminMessage

/-- A failure of a socket, the peer having written no malformed reply. -/
def ExchangeFailure.OfSocket (failure : ExchangeFailure) : Prop :=
  ∀ e, failure ≠ .badReply e

theorem ExchangeFailure.ofSocket_iff {failure : ExchangeFailure} :
    failure.OfSocket ↔ ∃ failure', codec.failure failure' = failure := by
  constructor
  · intro ofSocket
    cases failure with
    | connect e => exact ⟨.connect e, rfl⟩
    | send e => exact ⟨.send e, rfl⟩
    | read e => exact ⟨.read e, rfl⟩
    | closed => exact ⟨.closed, rfl⟩
    | badReply e => exact (ofSocket e rfl).elim
  · rintro ⟨failure', rfl⟩ e isBad
    cases failure' <;> cases isBad

namespace Deployment

variable {ι : Type}

def Expressible : Event ι → Prop
  | .started _ command => command.message.Typable
  | .thread _ (.failed reason _) | .thread _ (.replyLost reason) => reason.OfSocket
  | _ => True

/-- What can be seen of a deployment from outside its threads. -/
structure Observation (ι : Type) where
  memory : ι → NodeShared
  files : ι → Option String
  inFlight : List (ι × String)
  /-- The lines with which commands have been answered. -/
  answers : Set (ι × Command × String)

def observe (w : World ι) : Observation ι where
  memory := w.memory
  files i := (w.saved i).map Persistence.saveNodeState
  inFlight := w.inFlight.map fun sent => (sent.1, writeLine sent.2.encode)
  answers := {answer | ∃ reply, ⟨answer.1, answer.2.1, .replied reply⟩ ∈ w.threads ∧
    writeLine reply.encode = answer.2.2}

def observeText (w' : TextWorld ι) : Observation ι where
  memory := w'.memory
  files := w'.saved
  inFlight := w'.inFlight
  answers := {answer | ∃ thread ∈ w'.threads, thread.process = answer.1 ∧
    codec.readCommand thread.command = .ok answer.2.1 ∧
    thread.activity.reply = some (some answer.2.2)}

theorem namesBearer_of_seeds {input : AdminLine} {command : Command}
    (seeds : readable.Seeds command) (read : readCommand input = .ok command) :
    NamesBearer input := by
  intro seedsEmpty
  rw [decode_of_readCommand read] at seedsEmpty
  exact (seeds "" (Except.ok.inj seedsEmpty)).2 rfl

variable {w : World ι} {w' : TextWorld ι}

theorem observeText_eq (writes : codec.Writes w' w) : observeText w' = observe w := by
  have answers : (observeText w').answers = (observe w).answers := by
    ext ⟨i, command, text⟩
    constructor
    · rintro ⟨thread, member, rfl, read, replied⟩
      rcases writes.threads.mem_full member with ⟨refusal, refused, -⟩ |
        ⟨⟨j, command', activity⟩, member', read', same, isActivity⟩
      · rw [read] at refused
        cases refused
      · obtain rfl : thread.process = j := same
        obtain rfl : command = command' := Except.ok.inj (read.symm.trans read')
        rw [isActivity] at replied
        obtain ⟨reply, rfl, isText⟩ := Codec.activity_reply.mp replied
        exact ⟨reply, member', Option.some.inj isText⟩
    · rintro ⟨reply, member, rfl⟩
      obtain ⟨thread, member', read, same, isActivity⟩ := writes.threads.mem_shown member
      refine ⟨thread, member', same, read, ?_⟩
      rw [isActivity]
      rfl
  have files : w'.saved = fun i => (w.saved i).map Persistence.saveNodeState :=
    funext writes.saved
  have inFlight : w'.inFlight = w.inFlight.map fun sent => (sent.1, writeLine sent.2.encode) :=
    writes.inFlight
  simp only [observeText, observe, writes.memory, files, inFlight] at answers ⊢
  rw [answers]

theorem Expressible.writable {event : Event ι} (expressible : Expressible event) :
    codec.Writable event := by
  cases event with
  | started i command => exact AdminMessage.Typable.exists_line expressible
  | thread k move =>
      cases move with
      | failed | replyLost => exact ExchangeFailure.ofSocket_iff.mp expressible
      | _ => trivial
  | _ => trivial

theorem Expressible.of_sameEvent {event : Event ι} {event' : TextEvent ι}
    (names : event'.Starts NamesBearer) (same : codec.SameEvent event' event) :
    Expressible event := by
  cases event with
  | started i command =>
      cases event' with
      | started j input => exact AdminMessage.typable_of_namesBearer names same.2
      | _ => exact same.elim
  | thread k move =>
      cases event' with
      | thread k' move' =>
          obtain rfl : codec.move move' = move := same
          cases move' with
          | failed failure | replyLost failure =>
              exact ExchangeFailure.ofSocket_iff.mpr ⟨failure, rfl⟩
          | _ => trivial
      | _ => exact same.elim
  | _ => trivial

theorem Expressible.starts {event : Event ι} (expressible : Expressible event) :
    event.Starts readable.Seeds := by
  cases event with
  | started i command => exact AdminMessage.Typable.seeds expressible
  | _ => trivial

theorem starts_of_sameEvent {event : Event ι} {event' : TextEvent ι}
    (starts : event.Starts readable.Seeds) (same : codec.SameEvent event' event) :
    event'.Starts NamesBearer := by
  cases event' with
  | started i input =>
      cases event with
      | started j command => exact namesBearer_of_seeds starts same.2
      | _ => exact same.elim
  | _ => trivial

variable [DecidableEq ι] {D : Deployment ι} {memory : ι → NodeShared}

/-- A run of the deployment can be taken over text. -/
theorem exists_text_run (contains : ∀ i, readable.InNode (memory i).node)
    {trace : List (World ι × Event ι)} {last : World ι}
    (run : Run D.system.Step (idle memory) trace last)
    (expressible : ∀ entry ∈ trace, Expressible entry.2) :
    ∃ trace' last', Run D.textSystem.Step (textIdle memory) trace' last' ∧
      (∀ entry ∈ trace', entry.2.Starts NamesBearer) ∧ codec.Writes last' last := by
  have complies : (readable.contract False ι).Complies () (idle memory) :=
    Contract.complies_of_quiescent (idle_idle memory).quiescent
      (fun i => ⟨contains i, False.elim⟩) (by simp [idle])
  obtain ⟨trace', last', run', writes, -, together⟩ :=
    readable_fits.faithful.written_run (readable.kept False D) rfl (textIdle_writes memory)
      complies run fun entry member =>
        ⟨(expressible entry member).starts, (expressible entry member).writable⟩
  have names : ∀ entry ∈ trace', entry.2.Starts NamesBearer :=
    ((List.forall₂_and_left _ _).mp (together.imp fun _ _ related =>
      ⟨starts_of_sameEvent related.2.2 related.2.1, related.1⟩)).1
  exact ⟨trace', last', run', names, writes⟩

/-- A deployment over text shows exactly what one whose nodes exchange messages can
show when its commands can be typed and its failures are those of sockets. -/
theorem same_observations (contains : ∀ i, readable.InNode (memory i).node)
    (seen : Observation ι) :
    (∃ trace' last', Run D.textSystem.Step (textIdle memory) trace' last' ∧
      (∀ entry ∈ trace', entry.2.Starts NamesBearer) ∧ observeText last' = seen) ↔
    ∃ trace last, Run D.system.Step (idle memory) trace last ∧
      (∀ entry ∈ trace, Expressible entry.2) ∧ observe last = seen := by
  constructor
  · rintro ⟨trace', last', run, names, rfl⟩
    obtain ⟨trace, last, follows, ⟨writes, -⟩, shows⟩ := follows_run_idle contains run names
    refine ⟨trace, last, follows, fun entry member => ?_, (observeText_eq writes).symm⟩
    obtain ⟨entry', member', -, same⟩ := shows.mem_shown member
    exact .of_sameEvent (names entry' member') same
  · rintro ⟨trace, last, run, expressible, rfl⟩
    obtain ⟨trace', last', run', names, writes⟩ := exists_text_run contains run expressible
    exact ⟨trace', last', run', names, observeText_eq writes⟩

/-- The notice of a spend, on its way to a linked node. -/
theorem same_observations_notice :
    ∃ trace' last', Run (cluster ["N1", "N2"]).textSystem.Step
        (textIdle fun i => .new (["N1", "N2"].get i)) trace' last' ∧
      last'.inFlight.map Prod.snd = ["SPENT_NOTIFY|N1|b1\n"] ∧
      last'.saved 0 = some "NODE_ID|N1\nSPENT|b1\n" := by
  have typable : AdminMessage.Typable (.seed "b1") ∧ AdminMessage.Typable (.linkUp "N2") ∧
      AdminMessage.Typable (.spendAt "b1") := by decide +kernel
  obtain ⟨trace, last, run, labels, seen⟩ := System.exists_run
    (cluster ["N1", "N2"]).system (idle fun i => .new (["N1", "N2"].get i))
    [.started 0 ⟨.seed "b1", .sorted⟩, .thread 0 .locked, .thread 0 .persisted,
      .started 0 ⟨.linkUp "N2", .sorted⟩, .thread 1 .locked, .thread 1 .requested,
      .thread 1 .served, .thread 1 .locked, .thread 1 .persisted,
      .started 0 ⟨.spendAt "b1", .sorted⟩, .thread 2 .locked, .thread 2 .persisted,
      .thread 2 .sent, .thread 2 .replied]
    (fun followed => decide ((observe followed.2).inFlight.map Prod.snd =
        ["SPENT_NOTIFY|N1|b1\n"] ∧
      (observe followed.2).files 0 = some "NODE_ID|N1\nSPENT|b1\n")) (by decide +kernel)
  have expressible : ∀ event ∈ trace.map Prod.snd, Expressible event := by
    rw [labels]
    simp [Expressible, typable]
  have oneLine : ∀ i, OneLine (["N1", "N2"].get i) := by decide +kernel
  obtain ⟨trace', last', run', -, same⟩ :=
    (same_observations (fun i => Contents.inNode_new (oneLine i)) (observe last)).mpr
      ⟨trace, last, run, fun entry member => expressible _ (List.mem_map_of_mem member), rfl⟩
  have seen := of_decide_eq_true seen
  rw [← same] at seen
  exact ⟨trace', last', run', seen⟩

end Deployment

end HabiCore
