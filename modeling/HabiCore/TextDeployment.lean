import HabiCore.NodeContents
import HabiCore.SavedImages
import HabiCore.SocketLines

/-!
# Deployments over text

The nodes of a deployment as they run: lines come in on their listeners, and
lines and state files go out.  Whatever is typed at them and whatever is lost on
the way, they run as the deployment whose nodes exchange messages, if no name
breaks a line and no bearer is called by the empty string.
-/

namespace HabiCore.Deployment

open LockedProcesses LabelledRuns WireFormat SocketLines

variable {ι : Type}

/-- The joint state of a deployment over text; a state file holds its contents. -/
abbrev TextWorld (ι : Type) :=
  LockedProcesses.World ι AdminLine CriticalSection NodeShared String String SocketFailure
    (Option String) String

abbrev TextEvent (ι : Type) := LockedProcesses.Event ι AdminLine SocketFailure

/-- The nodes with their sockets and files.  A thread of a node is one connection
to its admin listener. -/
def textSystem (D : Deployment ι) :
    System ι AdminLine CriticalSection NodeShared String String SocketFailure (Option String)
      String :=
  D.system.written codec

/-- Node ids fit on a line, and so do bearers, none of which is the empty string. -/
def readable : Contents where
  nodeId := OneLine
  held b := OneLine b ∧ b ≠ ""
  spent b := OneLine b ∧ b ≠ ""
  spent_of_held _ := id

structure Fits (c : Contents) : Prop where
  nodeId : ∀ s, c.nodeId s → OneLine s
  bearer : ∀ b, c.spent b → OneLine b ∧ b ≠ ""

theorem readable_fits : Fits readable :=
  ⟨fun _ => id, fun _ => id⟩

variable {c : Contents} {reports : Prop}

theorem Fits.readable (fits : Fits c) {msg : PeerMessage} (allowed : c.InMessage msg) :
    msg.Readable := by
  have held : ∀ b, c.held b → OneLine b ∧ b ≠ "" := fun b isHeld =>
    fits.bearer b (c.spent_of_held b isHeld)
  cases msg with
  | linkUpHello sender ledger spent | linkUpAck sender ledger spent
  | statusReply sender ledger spent =>
      obtain ⟨named, isHeld, isSpent⟩ := allowed
      refine ⟨List.forall_mem_singleton.mpr (fits.nodeId _ named), ?_⟩
      simpa [PeerMessage.lists] using And.intro (fun b member => held b (isHeld b member))
        fun b member => fits.bearer b (isSpent b member)
  | propagateReply =>
      obtain ⟨named, isHeld⟩ := allowed
      exact ⟨List.forall_mem_singleton.mpr (fits.nodeId _ named),
        List.forall_mem_singleton.mpr fun b member => held b (isHeld b member)⟩
  | spentNotify =>
      obtain ⟨named, isSpent⟩ := allowed
      exact ⟨by simpa [PeerMessage.scalars] using
        And.intro (fits.nodeId _ named) (fits.bearer _ isSpent).1, by simp [PeerMessage.lists]⟩
  | linkDown | propagateRequest | statusRequest =>
      exact ⟨List.forall_mem_singleton.mpr (fits.nodeId _ allowed), by simp [PeerMessage.lists]⟩

theorem Fits.faithful (fits : Fits c) : codec.Faithful (c.contract reports ι) where
  message _ _ allowed := by
    simp only [codec]
    exact (fits.readable allowed).readMessage
  request _ _ _ _ := id
  answer _ _ _ allowed := by
    simp only [codec]
    exact (fits.readable allowed).readReply

/-- The line does not seed the bearer of the empty name. -/
def NamesBearer (input : AdminLine) : Prop :=
  AdminMessage.decode (readOneLine input.text) ≠ .ok (.seed "")

instance : DecidablePred NamesBearer :=
  fun _ => inferInstanceAs (Decidable (¬ _ = _))

theorem bearer_of_namesBearer {input : AdminLine} (names : NamesBearer input)
    {command : Command} (read : readCommand input = .ok command) {bearer : String}
    (seeds : command.message = .seed bearer) : OneLine bearer ∧ bearer ≠ "" := by
  have oneLine := oneLine_of_readCommand read
  rw [seeds] at oneLine
  refine ⟨oneLine bearer (by simp [AdminMessage.scalars]), ?_⟩
  rintro rfl
  apply names
  rw [decode_of_readCommand read, seeds]

variable [DecidableEq ι] {D : Deployment ι} {start last : World ι} {start' last' : TextWorld ι}
  {trace' : List (TextWorld ι × TextEvent ι)}

def Carries (c : Contents) (reports : Prop) (w' : TextWorld ι) (w : World ι) : Prop :=
  codec.Writes w' w ∧ (c.contract reports ι).Complies () w

/-- A run over text follows a run of the deployment. -/
theorem Fits.follows_run (fits : Fits c) (reports : Prop)
    (initially : codec.Writes start' start) (quiescent : start.Quiescent)
    (unanswered : start.threads = [])
    (contains : ∀ i, c.InNode (start.memory i).node ∧ (reports → c.InLinks (start.memory i)))
    (run : Run D.textSystem.Step start' trace' last')
    (seeds : ∀ entry ∈ trace', entry.2.Starts fun input =>
      ∀ command, readCommand input = .ok command → c.Seeds command) :
    ∃ trace last, Run D.system.Step start trace last ∧ Carries c reports last' last ∧
      Shows (fun entry' => codec.RefusedEvent entry'.1 entry'.2)
        (fun entry' entry => Carries c reports entry'.1 entry.1 ∧
          codec.SameEvent entry'.2 entry.2)
        trace' trace := by
  have complies : (c.contract reports ι).Complies () start :=
    Contract.complies_of_quiescent quiescent contains (by simp [unanswered])
  obtain ⟨trace, last, follows, writes, compliesLast, shows⟩ :=
    fits.faithful.run (c.kept reports D) rfl initially complies run seeds
  refine ⟨trace, last, follows, ⟨writes, compliesLast⟩, shows.mono fun _ _ related => ?_⟩
  exact ⟨⟨related.1, related.2.2⟩, related.2.1⟩

def textIdle (memory : ι → NodeShared) : TextWorld ι where
  memory := memory
  saved _ := none
  threads := []
  inFlight := []

omit [DecidableEq ι] in
theorem textIdle_writes (memory : ι → NodeShared) :
    codec.Writes (textIdle memory) (idle memory) where
  memory := rfl
  saved _ := rfl
  threads := .nil
  inFlight := rfl

theorem follows_run_idle {memory : ι → NodeShared}
    (contains : ∀ i, readable.InNode (memory i).node)
    (run : Run D.textSystem.Step (textIdle memory) trace' last')
    (names : ∀ entry ∈ trace', entry.2.Starts NamesBearer) :
    ∃ trace last, Run D.system.Step (idle memory) trace last ∧
      Carries readable False last' last ∧
      Shows (fun entry' => codec.RefusedEvent entry'.1 entry'.2)
        (fun entry' entry => Carries readable False entry'.1 entry.1 ∧
          codec.SameEvent entry'.2 entry.2)
        trace' trace :=
  readable_fits.follows_run False (textIdle_writes memory) (idle_idle memory).quiescent rfl
    (fun i => ⟨contains i, False.elim⟩) run fun entry member =>
      (names entry member).mono fun _ named _ read _ => bearer_of_namesBearer named read

/-- The deployment over text refines the deployment.  A run over text, whatever
lines are typed and whatever is lost, follows step by step a run in which the
nodes exchange messages; only connections on which the administrator is refused
have no counterpart.  No text in flight is dropped as malformed. -/
theorem text_refines_messages {memory : ι → NodeShared}
    (contains : ∀ i, readable.InNode (memory i).node)
    (run : Run D.textSystem.Step (textIdle memory) trace' last')
    (names : ∀ entry ∈ trace', entry.2.Starts NamesBearer) :
    (∃ trace last, Run D.system.Step (idle memory) trace last ∧ codec.Writes last' last ∧
      Shows (fun entry' => codec.RefusedEvent entry'.1 entry'.2)
        (fun entry' entry => codec.Writes entry'.1 entry.1 ∧ codec.SameEvent entry'.2 entry.2)
        trace' trace) ∧
    ∀ sent ∈ last'.inFlight, ∃ msg, sent.2 = writeLine msg.encode ∧
      readMessage sent.2 = some msg := by
  obtain ⟨trace, last, follows, ⟨writes, complies⟩, shows⟩ := follows_run_idle contains run names
  refine ⟨⟨trace, last, follows, writes, shows.mono fun _ _ related => ?_⟩, ?_⟩
  · exact ⟨related.1.1, related.2⟩
  · intro sent member
    rw [writes.inFlight] at member
    obtain ⟨⟨peer, msg⟩, isSent, rfl⟩ := List.mem_map.mp member
    exact ⟨msg, rfl, (readable_fits.readable (complies.inFlight _ isSent)).readMessage⟩

/-- A seed, a line that is refused and a link-up. -/
theorem text_refines_messages_cluster :
    ∃ trace' last', Run (cluster ["N1", "N2"]).textSystem.Step
        (textIdle fun i => .new (["N1", "N2"].get i)) trace' last' ∧
      "b1" ∈ (last'.memory 1).node.ledger ∧
      ∃ trace last, Run (cluster ["N1", "N2"]).system.Step
        (idle fun i => .new (["N1", "N2"].get i)) trace last ∧ codec.Writes last' last := by
  obtain ⟨trace', last', run, labels, held⟩ := System.exists_run
    (cluster ["N1", "N2"]).textSystem (textIdle fun i => .new (["N1", "N2"].get i))
    [.started 0 ⟨"ADMIN_SEED|b1\n", .sorted⟩, .thread 0 .locked, .thread 0 .persisted,
      .started 0 ⟨"ADMIN_SEED\n", .sorted⟩, .thread 1 .replied,
      .started 0 ⟨"ADMIN_LINK_UP|N2", .sorted⟩, .thread 2 .locked, .thread 2 .requested,
      .thread 2 .served, .thread 2 .locked]
    (fun followed => decide ("b1" ∈ (followed.2.memory 1).node.ledger)) (by decide +kernel)
  have names : ∀ event ∈ trace'.map Prod.snd, event.Starts NamesBearer := by
    rw [labels]
    decide +kernel
  have oneLine : ∀ i, OneLine (["N1", "N2"].get i) := by decide +kernel
  have refined := text_refines_messages (fun i => Contents.inNode_new (oneLine i)) run
    fun entry member => names _ (List.mem_map_of_mem member)
  obtain ⟨trace, last, follows, writes, -⟩ := refined.1
  exact ⟨trace', last', run, by simpa using held, trace, last, follows, writes⟩

/-- What has been saved is an earlier state of the node, and spends that it
records have not been forgotten since. -/
theorem saved_earlier {trace : List (World ι × Event ι)} {i : ι}
    (unsaved : start.saved i = none) (run : Run D.system.Step start trace last) {node : Node}
    (saved : last.saved i = some node) :
    ∃ entry ∈ trace, node = (entry.1.memory i).node ∧
      node.spent ⊆ (last.memory i).node.spent := by
  induction run generalizing node with
  | refl => simp [unsaved] at saved
  | @tail trace middle last event run edge ih =>
      have grows : (middle.memory i).node.spent ⊆ (last.memory i).node.spent :=
        fun b isSpent => (mem_spent_step edge).mpr (Or.inl isSpent)
      rcases edge.file_at (fun _ => node) i with ⟨-, same⟩ | ⟨-, -, written⟩
      · obtain ⟨entry, member, rfl, kept⟩ := ih (same ▸ saved)
        exact ⟨entry, List.mem_append_left _ member, rfl, kept.trans grows⟩
      · obtain rfl : node = (middle.memory i).node := by
          simpa [World.file, saved, system] using written
        exact ⟨(middle, event), by simp, rfl, grows⟩

/-- A state file that a node has written is always loaded.  What is loaded is a
state that the node was in, with the names as they are read, and records no
spend that the running node does not record. -/
theorem state_files_load {memory : ι → NodeShared}
    (contains : ∀ i, readable.InNode (memory i).node)
    (run : Run D.textSystem.Step (textIdle memory) trace' last')
    (names : ∀ entry ∈ trace', entry.2.Starts NamesBearer) {i : ι} {content : String}
    (written : last'.saved i = some content) (path : String) :
    ∃ entry ∈ trace', (entry.1.memory i).node.spent ⊆ (last'.memory i).node.spent ∧
      Persistence.loadNodeState path (some content) =
        .ok (some ⟨Persistence.readName (entry.1.memory i).node.nodeId,
          (entry.1.memory i).node.ledger.image Persistence.readName,
          (entry.1.memory i).node.spent.image Persistence.readName⟩) := by
  obtain ⟨trace, last, follows, ⟨writes, -⟩, shows⟩ :=
    follows_run_idle contains run names
  obtain ⟨node, saved, rfl⟩ : ∃ node, last.saved i = some node ∧
      Persistence.saveNodeState node = content := by
    have image := writes.saved i
    rw [written] at image
    exact Option.map_eq_some_iff.mp image.symm
  obtain ⟨entry, member, rfl, grows⟩ := saved_earlier rfl follows saved
  obtain ⟨entry', member', ⟨earlier, complies⟩, -⟩ := shows.mem_shown member
  have contains : readable.InNode (entry.1.memory i).node := (complies.memory i).1
  refine ⟨entry', member', ?_, ?_⟩
  · rw [earlier.memory, writes.memory]
    exact grows
  · rw [earlier.memory]
    apply Persistence.loadNodeState_saveNodeState
    exact Node.forall_mem_names.mpr ⟨contains.1, fun b isHeld => (contains.2.1 b isHeld).1,
      fun b isSpent => (contains.2.2 b isSpent).1⟩

/-- The file of a node that has been given a bearer. -/
theorem state_files_load_seeded :
    ∃ trace' last', Run (cluster ["N1", "N2"]).textSystem.Step
        (textIdle fun i => .new (["N1", "N2"].get i)) trace' last' ∧
      ∃ entry ∈ trace', (entry.1.memory 0).node.spent ⊆ (last'.memory 0).node.spent ∧
        Persistence.loadNodeState "N1.state" (some "NODE_ID|N1\nLEDGER|b1\n") =
          .ok (some ⟨Persistence.readName (entry.1.memory 0).node.nodeId,
            (entry.1.memory 0).node.ledger.image Persistence.readName,
            (entry.1.memory 0).node.spent.image Persistence.readName⟩) := by
  obtain ⟨trace', last', run, labels, saved⟩ := System.exists_run
    (cluster ["N1", "N2"]).textSystem (textIdle fun i => .new (["N1", "N2"].get i))
    [.started 0 ⟨"ADMIN_SEED|b1\n", .sorted⟩, .thread 0 .locked, .thread 0 .persisted]
    (fun followed => decide (followed.2.saved 0 = some "NODE_ID|N1\nLEDGER|b1\n"))
    (by decide +kernel)
  have names : ∀ event ∈ trace'.map Prod.snd, event.Starts NamesBearer := by
    rw [labels]
    decide +kernel
  have oneLine : ∀ i, OneLine (["N1", "N2"].get i) := by decide +kernel
  refine ⟨trace', last', run, ?_⟩
  exact state_files_load (fun i => Contents.inNode_new (oneLine i)) run
    (fun entry member => names _ (List.mem_map_of_mem member)) (by simpa using saved) "N1.state"

end HabiCore.Deployment
