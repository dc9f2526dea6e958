import HabiCore.RestartedDeployments
import HabiCore.TextDeployment

/-!
# Restarts from state files

A deployment over text whose nodes may be killed at any time and then start as
`main` does, with what they read of their state files.  As long as no name ends
in a carriage return, it runs as the deployment whose nodes get back the state
that they have saved.
-/

namespace HabiCore

open LockedProcesses LabelledRuns WireFormat SocketLines

namespace Deployment

variable {ι : Type}

abbrev TextRestartEvent (ι : Type) := LockedProcesses.RestartEvent ι AdminLine SocketFailure

/-- A step of the deployment over text, or a restart of a node. -/
def TextRestartStep [DecidableEq ι] (D : Deployment ι) (nodeId path : ι → String)
    (w : TextWorld ι) (event : TextRestartEvent ι) (w' : TextWorld ι) : Prop :=
  D.textSystem.RestartStep (fun i => HabiNode.startState (nodeId i) (path i)) w event w'

def startedFrom (nodeId path : ι → String) (files : ι → Option String) : TextWorld ι where
  memory i := HabiNode.startState (nodeId i) (path i) (files i)
  saved := files
  threads := []
  inFlight := []

def restoredFrom (nodeId : ι → String) (saved : ι → Option Node) : World ι where
  memory i := restore nodeId i (saved i)
  saved := saved
  threads := []
  inFlight := []

/-- Names that are read from a state file as they have been written, bearers not
being empty. -/
def durable : Contents where
  nodeId s := OneLine s ∧ ¬ Persistence.EndsInReturn s
  held b := (OneLine b ∧ b ≠ "") ∧ ¬ Persistence.EndsInReturn b
  spent b := (OneLine b ∧ b ≠ "") ∧ ¬ Persistence.EndsInReturn b
  spent_of_held _ := id

theorem durable_fits : Fits durable :=
  ⟨fun _ => And.left, fun _ => And.left⟩

theorem durable_names {node : Node} (lasts : durable.InNode node) :
    ∀ name ∈ node.names, OneLine name ∧ ¬ Persistence.EndsInReturn name :=
  Node.forall_mem_names.mpr ⟨lasts.1,
    fun b isHeld => ⟨(lasts.2.1 b isHeld).1.1, (lasts.2.1 b isHeld).2⟩,
    fun b isSpent => ⟨(lasts.2.2 b isSpent).1.1, (lasts.2.2 b isSpent).2⟩⟩

theorem startState_durable {nodeId : ι → String} {saved : Option Node} (i : ι) (path : String)
    (lasts : ∀ node, saved = some node → durable.InNode node) :
    HabiNode.startState (nodeId i) path (saved.map Persistence.saveNodeState) =
      restore nodeId i saved :=
  startState_saved i path fun node isSaved => durable_names (lasts node isSaved)

def seededBy (input : AdminLine) : Option String :=
  match AdminMessage.decode (readOneLine input.text) with
  | .ok (.seed bearer) => some bearer
  | _ => none

theorem seededBy_of_readCommand {input : AdminLine} {command : Command}
    (read : readCommand input = .ok command) {bearer : String}
    (seeds : command.message = .seed bearer) : seededBy input = some bearer := by
  rw [seededBy, decode_of_readCommand read, seeds]

/-- The line seeds neither the bearer of the empty name nor one whose name ends in a
carriage return. -/
def NamesLastingBearer (input : AdminLine) : Prop :=
  ∀ bearer ∈ seededBy input, bearer ≠ "" ∧ ¬ Persistence.EndsInReturn bearer

instance : DecidablePred NamesLastingBearer :=
  fun _ => inferInstanceAs (Decidable (∀ _ ∈ seededBy _, _))

theorem durable_of_namesLastingBearer {input : AdminLine} (names : NamesLastingBearer input)
    {command : Command} (read : readCommand input = .ok command) : durable.Seeds command := by
  intro bearer seeds
  have oneLine := oneLine_of_readCommand read
  have lasting := names bearer (seededBy_of_readCommand read seeds)
  rw [seeds] at oneLine
  exact ⟨⟨oneLine bearer (by simp [AdminMessage.scalars]), lasting.1⟩, lasting.2⟩

variable [DecidableEq ι] {D : Deployment ι} {nodeId path : ι → String}
  {saved : ι → Option Node} {last' : TextWorld ι}
  {trace' : List (TextWorld ι × TextRestartEvent ι)} {b : String}

omit [DecidableEq ι] in
theorem startedFrom_writes
    (lasts : ∀ i node, saved i = some node → durable.InNode node) :
    codec.Writes (startedFrom nodeId path fun i => (saved i).map Persistence.saveNodeState)
      (restoredFrom nodeId saved) where
  memory := funext fun i => startState_durable i (path i) (lasts i)
  saved _ := rfl
  threads := .nil
  inFlight := rfl

theorem follows_restartRun (named : ∀ i, durable.nodeId (nodeId i))
    (lasts : ∀ i node, saved i = some node → durable.InNode node)
    (run : Run (D.TextRestartStep nodeId path)
      (startedFrom nodeId path fun i => (saved i).map Persistence.saveNodeState) trace' last')
    (names : ∀ entry ∈ trace', entry.2.Starts NamesLastingBearer) :
    ∃ trace last, Run (D.RestartStep nodeId) (restoredFrom nodeId saved) trace last ∧
      (codec.Writes last' last ∧ ∀ i node, last.saved i = some node → durable.InNode node) ∧
      Shows (fun entry' => codec.RefusedRestartEvent entry'.1 entry'.2)
        (fun entry' entry => codec.Writes entry'.1 entry.1 ∧
          codec.SameRestartEvent entry'.2 entry.2)
        trace' trace := by
  have kept := keptAcross (D := D) durable False named
  have quiescent : (restoredFrom nodeId saved).Quiescent := ⟨by simp [restoredFrom], rfl⟩
  have initially := compliesAcross_of_quiescent (c := durable) quiescent
    (fun i => (kept.restore i (saved i) (lasts i)).1) lasts
  obtain ⟨trace, last, follows, writes, across, shows⟩ :=
    durable_fits.faithful.restartRun kept rfl
      (fun i saved lasts => startState_durable i (path i) lasts)
      (startedFrom_writes lasts) initially run fun entry member =>
        (names entry member).mono fun _ lasting _ read => durable_of_namesLastingBearer lasting read
  exact ⟨trace, last, follows, ⟨writes, across.saved⟩, shows⟩

/-- The deployment over text with restarts refines the deployment with restarts.
Whatever lines are typed, whatever is lost and whenever nodes are killed, a run of
nodes that start from their state files follows step by step a run of nodes that
get back what they have saved. -/
theorem text_restarts_refine (named : ∀ i, durable.nodeId (nodeId i))
    (lasts : ∀ i node, saved i = some node → durable.InNode node)
    (run : Run (D.TextRestartStep nodeId path)
      (startedFrom nodeId path fun i => (saved i).map Persistence.saveNodeState) trace' last')
    (names : ∀ entry ∈ trace', entry.2.Starts NamesLastingBearer) :
    ∃ trace last, Run (D.RestartStep nodeId) (restoredFrom nodeId saved) trace last ∧
      codec.Writes last' last ∧
      Shows (fun entry' => codec.RefusedRestartEvent entry'.1 entry'.2)
        (fun entry' entry => codec.Writes entry'.1 entry.1 ∧
          codec.SameRestartEvent entry'.2 entry.2)
        trace' trace := by
  obtain ⟨trace, last, follows, ⟨writes, -⟩, shows⟩ := follows_restartRun named lasts run names
  exact ⟨trace, last, follows, writes, shows⟩

def savedPair (i : Fin ["N1", "N2"].length) : Option Node :=
  if i.val = 0 then none else some ⟨"N2", {"b1"}, ∅⟩

def startedPair : TextWorld (Fin ["N1", "N2"].length) :=
  startedFrom ["N1", "N2"].get pairPath fun i => (savedPair i).map Persistence.saveNodeState

theorem pair_named (i : Fin ["N1", "N2"].length) : durable.nodeId (["N1", "N2"].get i) := by
  have fits : ∀ i, OneLine (["N1", "N2"].get i) ∧
    ¬ Persistence.EndsInReturn (["N1", "N2"].get i) := by decide +kernel
  exact fits i

theorem savedPair_durable (i : Fin ["N1", "N2"].length) (node : Node)
    (isSaved : savedPair i = some node) : durable.InNode node := by
  unfold savedPair at isSaved
  split at isSaved
  · cases isSaved
  · obtain rfl := Option.some_inj.mp isSaved
    have fits : (OneLine "N2" ∧ ¬ Persistence.EndsInReturn "N2") ∧ OneLine "b1" ∧
      ¬ Persistence.EndsInReturn "b1" := by decide +kernel
    simpa [Contents.InNode, durable] using fits

theorem startedPair_run :
    ∃ trace' last', Run ((cluster ["N1", "N2"]).TextRestartStep ["N1", "N2"].get pairPath)
        startedPair trace' last' ∧
      (∀ entry ∈ trace', entry.2.Starts NamesLastingBearer) ∧
      "b1" ∈ (last'.memory 0).node.ledger ∧ "b2" ∈ (last'.memory 0).node.ledger := by
  obtain ⟨trace', last', run, labels, held⟩ := System.exists_restartRun
    (cluster ["N1", "N2"]).textSystem
    (fun i => HabiNode.startState (["N1", "N2"].get i) (pairPath i)) startedPair
    [.step (.started 0 ⟨"ADMIN_SEED|b2\n", .sorted⟩), .step (.thread 0 .locked),
      .step (.thread 0 .persisted), .restarted 0 .closed,
      .step (.started 0 ⟨"ADMIN_LINK_UP|N2\n", .sorted⟩), .step (.thread 0 .locked),
      .step (.thread 0 .requested), .step (.thread 0 .served), .step (.thread 0 .locked)]
    (fun last' => decide ("b1" ∈ (last'.memory 0).node.ledger ∧
      "b2" ∈ (last'.memory 0).node.ledger)) (by decide +kernel)
  have names : ∀ event ∈ trace'.map Prod.snd, event.Starts NamesLastingBearer := by
    rw [labels]
    decide +kernel
  exact ⟨trace', last', run, fun entry member => names _ (List.mem_map_of_mem member),
    by simpa using held⟩

/-- A run of the pair in which one node is restarted. -/
theorem text_restarts_refine_startedPair :
    ∃ trace' last', Run ((cluster ["N1", "N2"]).TextRestartStep ["N1", "N2"].get pairPath)
        startedPair trace' last' ∧ "b2" ∈ (last'.memory 0).node.ledger ∧
      ∃ trace last, Run ((cluster ["N1", "N2"]).RestartStep ["N1", "N2"].get)
        (restoredFrom ["N1", "N2"].get savedPair) trace last ∧ codec.Writes last' last := by
  obtain ⟨trace', last', run, names, -, held⟩ := startedPair_run
  obtain ⟨trace, last, follows, writes, -⟩ :=
    text_restarts_refine pair_named savedPair_durable run names
  exact ⟨trace', last', run, held, trace, last, follows, writes⟩

/-- The bearers that nodes record, or would record once they are restarted. -/
def TextRecorded (nodeId path : ι → String) (w : TextWorld ι) (b : String) : Prop :=
  ∃ i, ∃ shared ∈ [w.memory i, HabiNode.startState (nodeId i) (path i) (w.saved i)],
    b ∈ shared.node.ledger ∨ b ∈ shared.node.spent

def TypedIn (b : String) (trace' : List (TextWorld ι × TextRestartEvent ι)) : Prop :=
  ∃ entry ∈ trace', ∃ i input, entry.2 = .step (.started i input) ∧ seededBy input = some b

omit [DecidableEq ι] in
theorem recorded_restoredFrom (recorded : Recorded (restoredFrom nodeId saved) b) :
    ∃ i, b ∈ (restore nodeId i (saved i)).node.ledger ∨
      b ∈ (restore nodeId i (saved i)).node.spent := by
  obtain ⟨i, inMemory | ⟨node, isSaved, inFile⟩⟩ := recorded
  · exact ⟨i, inMemory⟩
  · have isSaved : saved i = some node := isSaved
    exact ⟨i, by simpa [isSaved, restore, HabiNode.restoreState] using inFile⟩

omit [DecidableEq ι] in
theorem recorded_of_textRecorded {last : World ι} (writes : codec.Writes last' last)
    (lasts : ∀ i node, last.saved i = some node → durable.InNode node)
    (recorded : TextRecorded nodeId path last' b) : Recorded last b := by
  obtain ⟨i, shared, isShared, isRecorded⟩ := recorded
  rw [writes.saved i, writes.memory] at isShared
  simp only [List.mem_cons, List.not_mem_nil, or_false] at isShared
  rcases isShared with rfl | rfl
  · exact ⟨i, Or.inl isRecorded⟩
  · have started : HabiNode.startState (nodeId i) (path i)
        ((last.saved i).map Persistence.saveNodeState) = restore nodeId i (last.saved i) :=
      startState_durable i (path i) (lasts i)
    have isRecorded : b ∈ (restore nodeId i (last.saved i)).node.ledger ∨
        b ∈ (restore nodeId i (last.saved i)).node.spent := started ▸ isRecorded
    cases isSaved : last.saved i with
    | none =>
        simp [isSaved, restore, HabiNode.restoreState, NodeShared.new, Node.new] at isRecorded
    | some node =>
        rw [isSaved] at isRecorded
        exact ⟨i, Or.inr ⟨node, isSaved, isRecorded⟩⟩

omit [DecidableEq ι] in
theorem typedIn_of_seededIn {trace : List (World ι × RestartEvent ι)}
    (shows : Shows (fun entry' => codec.RefusedRestartEvent entry'.1 entry'.2)
      (fun entry' entry => codec.Writes entry'.1 entry.1 ∧
        codec.SameRestartEvent entry'.2 entry.2)
      trace' trace) (seeded : SeededIn b trace) : TypedIn b trace' := by
  obtain ⟨⟨w, event⟩, member, i, command, rfl, isSeed⟩ := seeded
  obtain ⟨⟨w', event'⟩, member', -, same⟩ := shows.mem_shown member
  cases event' with
  | restarted => exact same.elim
  | step event' =>
      cases event' with
      | started i' input =>
          have read : readCommand input = .ok command := same.2
          exact ⟨_, member', i', input, rfl, seededBy_of_readCommand read isSeed⟩
      | _ => exact same.elim

/-- Every bearer that a node records, or would record if it were killed and started
again from its file, was recorded so at the start or has been typed at a node. -/
theorem text_bearers_were_typed (named : ∀ i, durable.nodeId (nodeId i))
    (lasts : ∀ i node, saved i = some node → durable.InNode node)
    (run : Run (D.TextRestartStep nodeId path)
      (startedFrom nodeId path fun i => (saved i).map Persistence.saveNodeState) trace' last')
    (names : ∀ entry ∈ trace', entry.2.Starts NamesLastingBearer)
    (recorded : TextRecorded nodeId path last' b) :
    (∃ i, b ∈ (restore nodeId i (saved i)).node.ledger ∨
      b ∈ (restore nodeId i (saved i)).node.spent) ∨ TypedIn b trace' := by
  obtain ⟨trace, last, follows, ⟨writes, lasting⟩, shows⟩ :=
    follows_restartRun named lasts run names
  have quiescent : (restoredFrom nodeId saved).Quiescent := ⟨by simp [restoredFrom], rfl⟩
  rcases (recorded_or_seeded quiescent follows).1 (recorded_of_textRecorded writes lasting recorded)
    with atStart | seeded
  · exact Or.inl (recorded_restoredFrom atStart)
  · exact Or.inr (typedIn_of_seededIn shows seeded)

/-- The bearer that is typed in the run of the pair. -/
theorem text_bearers_were_typed_startedPair :
    ∃ trace' last', Run ((cluster ["N1", "N2"]).TextRestartStep ["N1", "N2"].get pairPath)
        startedPair trace' last' ∧ TextRecorded ["N1", "N2"].get pairPath last' "b2" ∧
      ((∃ i, "b2" ∈ (restore ["N1", "N2"].get i (savedPair i)).node.ledger ∨
        "b2" ∈ (restore ["N1", "N2"].get i (savedPair i)).node.spent) ∨ TypedIn "b2" trace') := by
  obtain ⟨trace', last', run, names, -, held⟩ := startedPair_run
  have recorded : TextRecorded ["N1", "N2"].get pairPath last' "b2" :=
    ⟨0, _, by simp, Or.inl held⟩
  exact ⟨trace', last', run, recorded,
    text_bearers_were_typed pair_named savedPair_durable run names recorded⟩

end Deployment

end HabiCore
