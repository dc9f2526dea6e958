import HabiCore.ExtinctBearers
import HabiCore.Persistence
import HabiCore.SystemRestarts

/-!
# Deployments whose nodes restart

Every node of a deployment may be killed at any time and comes back with what
its state file holds.  No restart brings a bearer into being; but a bearer that
all nodes have dropped comes back exactly if some state file still lists it.
Both hold of names that a state file gives back as they have been written.
-/

namespace HabiCore

open LockedProcesses LabelledRuns

/-- What `main` starts with when its state file has the given content. -/
def HabiNode.startState (nodeId path : String) (content : Option String) : NodeShared :=
  match Persistence.loadNodeState path content with
  | .ok (some node) => ⟨node, ∅⟩
  | .ok none => NodeShared.new nodeId
  | .error _ => NodeShared.new nodeId

namespace Persistence

/-- The name is read from a state file as it has been written. -/
def Lasts (name : String) : Prop :=
  '\n' ∉ name.toList ∧ ¬ EndsInReturn name

instance : DecidablePred EndsInReturn :=
  fun _ => inferInstanceAs (Decidable (_ = _))

instance : DecidablePred Lasts :=
  fun _ => inferInstanceAs (Decidable (_ ∧ _))

end Persistence

namespace Deployment

variable {ι : Type}

abbrev RestartEvent (ι : Type) := LockedProcesses.RestartEvent ι Command ExchangeFailure

def restore (nodeId : ι → String) (i : ι) (saved : Option Node) : NodeShared :=
  HabiNode.restoreState (nodeId i) saved

def reload (nodeId path : ι → String) (i : ι) (saved : Option Node) : NodeShared :=
  HabiNode.startState (nodeId i) (path i) (saved.map Persistence.saveNodeState)

/-- A step of the deployment, or a node that is killed and starts from its file. -/
def StartStep [DecidableEq ι] (D : Deployment ι) (nodeId path : ι → String) (w : World ι)
    (event : RestartEvent ι) (w' : World ι) : Prop :=
  D.system.RestartStep (reload nodeId path) w event w'

/-- The same, but every node gets back the state that it has saved. -/
def RestartStep [DecidableEq ι] (D : Deployment ι) (nodeId : ι → String) (w : World ι)
    (event : RestartEvent ι) (w' : World ι) : Prop :=
  D.system.RestartStep (restore nodeId) w event w'

/-- The bearers in ledgers, spent sets and state files. -/
def Recorded (w : World ι) (b : String) : Prop :=
  ∃ i, (b ∈ (w.memory i).node.ledger ∨ b ∈ (w.memory i).node.spent) ∨
    ∃ node, w.saved i = some node ∧ (b ∈ node.ledger ∨ b ∈ node.spent)

def SeededIn (b : String) (trace : List (World ι × RestartEvent ι)) : Prop :=
  ∃ entry ∈ trace, ∃ i command, entry.2 = .step (.started i command) ∧ command.message = .seed b

/-- The bearers that a message names. -/
def mentioned : PeerMessage → List String
  | .linkUpHello _ ledger spent | .linkUpAck _ ledger spent | .statusReply _ ledger spent =>
      ledger ++ spent
  | .propagateReply _ bearers => bearers
  | .spentNotify _ bearer => [bearer]
  | .linkDown _ | .propagateRequest _ | .statusRequest _ => []

variable {D : Deployment ι} {nodeId path : ι → String} {start last : World ι} {b : String}
  {trace : List (World ι × RestartEvent ι)}

/-- What nodes contain, their state files contain, and restarted nodes contain. -/
theorem keptAcross [DecidableEq ι] (c : Contents) (reports : Prop)
    (named : ∀ i, c.nodeId (nodeId i)) :
    (c.contract reports ι).KeptAcross D.system (restore nodeId) c.Seeds fun _ => c.InNode where
  kept := c.kept reports D
  escape _ _ _ := id
  save _ _ admits := admits.1
  restore i saved contains := by
    refine ⟨?_, fun _ peer linked => ?_⟩
    · cases saved with
      | none => exact Contents.inNode_new (named i)
      | some node => exact contains node rfl
    · cases saved <;> simp [restore, HabiNode.restoreState, NodeShared.isLinked,
        NodeShared.new] at linked

theorem compliesAcross_of_quiescent {c : Contents} (quiescent : start.Quiescent)
    (contains : ∀ i, c.InNode (start.memory i).node)
    (saved : ∀ i node, start.saved i = some node → c.InNode node) :
    (c.contract False ι).CompliesAcross (fun _ => c.InNode) start where
  complies := Contract.complies_of_quiescent quiescent (fun i => ⟨contains i, False.elim⟩)
    fun _ _ _ => False.elim
  saved := saved

/-- A node starts from the file that it has written with the state it has saved. -/
theorem startState_saved {saved : Option Node} (i : ι) (path : String)
    (lasts : ∀ node, saved = some node → ∀ name ∈ node.names, Persistence.Lasts name) :
    HabiNode.startState (nodeId i) path (saved.map Persistence.saveNodeState) =
      restore nodeId i saved := by
  cases saved with
  | none => rfl
  | some node =>
      have names := lasts node rfl
      have sameId : Persistence.readName node.nodeId = node.nodeId :=
        Persistence.readName_eq_self_iff.mpr (names _ (by simp [Node.names])).2
      have sameLedger : node.ledger.image Persistence.readName = node.ledger :=
        Persistence.image_readName_eq_self_iff.mpr fun name isHeld =>
          (names name (by simp [Node.names, isHeld])).2
      have sameSpent : node.spent.image Persistence.readName = node.spent :=
        Persistence.image_readName_eq_self_iff.mpr fun name isSpent =>
          (names name (by simp [Node.names, isSpent])).2
      have loaded := Persistence.loadNodeState_saveNodeState path fun name isName =>
        (names name isName).1
      rw [sameId, sameLedger, sameSpent] at loaded
      simp only [HabiNode.startState, Option.map_some, loaded]
      rfl

/-- All names last. -/
def lasting : Contents where
  nodeId := Persistence.Lasts
  held := Persistence.Lasts
  spent := Persistence.Lasts
  spent_of_held _ := id

theorem lasting_names {node : Node} (lasts : lasting.InNode node) :
    ∀ name ∈ node.names, Persistence.Lasts name :=
  Node.forall_mem_names.mpr lasts

/-- The ids of the nodes and what they record and have saved are names that last. -/
structure Lasting (nodeId : ι → String) (w : World ι) : Prop where
  named : ∀ i, Persistence.Lasts (nodeId i)
  memory : ∀ i, lasting.InNode (w.memory i).node
  saved : ∀ i node, w.saved i = some node → lasting.InNode node

instance (command : Command) : Decidable (lasting.Seeds command) :=
  match command with
  | ⟨.seed bearer, _⟩ => decidable_of_iff (Persistence.Lasts bearer)
      ⟨fun lasts _ same => AdminMessage.seed.inj same ▸ lasts, fun seeds => seeds bearer rfl⟩
  | ⟨.linkUp _, _⟩ | ⟨.linkDown _, _⟩ | ⟨.propagate _, _⟩ | ⟨.spendAt _, _⟩
  | ⟨.conversionDay, _⟩ | ⟨.status, _⟩ => isTrue fun _ same => nomatch same

/-- Nodes that start from their files get back what they have saved, as long as all
names last. -/
theorem Lasting.restoreRun [DecidableEq ι] (lasts : Lasting nodeId start)
    (quiescent : start.Quiescent) (run : Run (D.StartStep nodeId path) start trace last)
    (seeds : ∀ entry ∈ trace, entry.2.Starts lasting.Seeds) :
    Run (D.RestartStep nodeId) start trace last :=
  (compliesAcross_of_quiescent quiescent lasts.memory lasts.saved).restoreRun
    (keptAcross lasting False lasts.named)
    (fun i _ saved => startState_saved i (path i) fun node isSaved =>
      lasting_names (saved node isSaved)) run seeds

theorem Lasting.run [DecidableEq ι] (lasts : Lasting nodeId start)
    (quiescent : start.Quiescent) (run : Run (D.StartStep nodeId path) start trace last)
    (seeds : ∀ entry ∈ trace, entry.2.Starts lasting.Seeds) : Lasting nodeId last := by
  have across := (compliesAcross_of_quiescent quiescent lasts.memory lasts.saved).run
    (keptAcross lasting False lasts.named) (lasts.restoreRun quiescent run seeds) seeds
  exact ⟨lasts.named, fun i => (across.complies.memory i).1, across.saved⟩

/-- Ledgers and spent sets contain such bearers only. -/
def bearersIn (allowed : String → Prop) : Contents where
  nodeId _ := True
  held := allowed
  spent := allowed
  spent_of_held _ := id

theorem mentioned_allowed {allowed : String → Prop} {msg : PeerMessage}
    (contains : (bearersIn allowed).InMessage msg) : ∀ b ∈ mentioned msg, allowed b := by
  cases msg with
  | linkUpHello | linkUpAck | statusReply =>
      intro b member
      exact (List.mem_append.mp member).elim (contains.2.1 b) (contains.2.2 b)
  | propagateReply => exact contains.2
  | spentNotify => exact fun b member => List.mem_singleton.mp member ▸ contains.2
  | linkDown | propagateRequest | statusRequest => simp [mentioned]

def known (start : World ι) (trace : List (World ι × RestartEvent ι)) : Contents :=
  bearersIn fun b => Recorded start b ∨ SeededIn b trace

variable [DecidableEq ι]

theorem recorded_or_seeded (quiescent : start.Quiescent)
    (run : Run (D.RestartStep nodeId) start trace last) :
    (Recorded last b → Recorded start b ∨ SeededIn b trace) ∧
    ∀ event peer msg, last.Handles event peer msg → b ∈ mentioned msg →
      Recorded start b ∨ SeededIn b trace := by
  have initially : ((known start trace).contract False ι).CompliesAcross
      (fun _ => (known start trace).InNode) start := by
    refine compliesAcross_of_quiescent quiescent (fun i => ⟨trivial, ?_, ?_⟩)
      fun i node isSaved => ⟨trivial, ?_, ?_⟩
    · exact fun b isHeld => Or.inl ⟨i, Or.inl (Or.inl isHeld)⟩
    · exact fun b isSpent => Or.inl ⟨i, Or.inl (Or.inr isSpent)⟩
    · exact fun b isHeld => Or.inl ⟨i, Or.inr ⟨node, isSaved, Or.inl isHeld⟩⟩
    · exact fun b isSpent => Or.inl ⟨i, Or.inr ⟨node, isSaved, Or.inr isSpent⟩⟩
  have seeds : ∀ entry ∈ trace, entry.2.Starts (known start trace).Seeds := by
    rintro ⟨w, event⟩ member
    cases event with
    | restarted => trivial
    | step event =>
        cases event with
        | started i command =>
            intro b isSeed
            exact Or.inr ⟨_, member, i, command, rfl, isSeed⟩
        | _ => trivial
  have across := initially.run (keptAcross (known start trace) False fun _ => trivial) run seeds
  constructor
  · rintro ⟨i, (isHeld | isSpent) | ⟨node, isSaved, isHeld | isSpent⟩⟩
    · exact (across.complies.memory i).1.2.1 b isHeld
    · exact (across.complies.memory i).1.2.2 b isSpent
    · exact (across.saved i node isSaved).2.1 b isHeld
    · exact (across.saved i node isSaved).2.2 b isSpent
  · intro event peer msg handles
    have contains : (known start trace).InMessage msg := by
      rcases across.complies.handled handles with sent | ⟨_, _, requested⟩
      · exact sent
      · exact requested
    exact mentioned_allowed contains b

/-- No interleaving of commands, messages, failures and restarts brings a bearer
into being, if all names last.  What a node or a state file records, and what a
message names that may be handled, has been recorded at the start or is seeded in
the run. -/
theorem bearers_only_from_seeds (lasts : Lasting nodeId start) (quiescent : start.Quiescent)
    (run : Run (D.StartStep nodeId path) start trace last)
    (seeds : ∀ entry ∈ trace, entry.2.Starts lasting.Seeds) :
    (Recorded last b → Recorded start b ∨ SeededIn b trace) ∧
    ∀ event peer msg, last.Handles event peer msg → b ∈ mentioned msg →
      Recorded start b ∨ SeededIn b trace :=
  recorded_or_seeded quiescent (lasts.restoreRun quiescent run seeds)

def newPair : World (Fin ["N1", "N2"].length) :=
  idle fun i => .new (["N1", "N2"].get i)

def pairPath (i : Fin ["N1", "N2"].length) : String :=
  ["N1", "N2"].get i ++ ".state"

theorem newPair_lasting : Lasting ["N1", "N2"].get newPair := by
  have named : ∀ i, Persistence.Lasts (["N1", "N2"].get i) := by decide +kernel
  exact ⟨named, fun i => Contents.inNode_new (named i), by simp [newPair, idle]⟩

/-- A bearer is seeded at `N2`, which is restarted; `N1` gets it from there. -/
theorem bearers_only_from_seeds_newPair :
    ∃ trace last, Run ((cluster ["N1", "N2"]).StartStep ["N1", "N2"].get pairPath) newPair
        trace last ∧
      Recorded last "b1" ∧ (Recorded newPair "b1" ∨ SeededIn "b1" trace) := by
  obtain ⟨trace, last, run, labels, isHeld⟩ := System.exists_restartRun
    (cluster ["N1", "N2"]).system (reload ["N1", "N2"].get pairPath) newPair
    [.step (.started 1 (AdminMessage.seed "b1").command), .step (.thread 0 .locked),
      .step (.thread 0 .persisted), .restarted 1 .closed,
      .step (.started 0 (AdminMessage.linkUp "N2").command), .step (.thread 0 .locked),
      .step (.thread 0 .requested), .step (.thread 0 .served), .step (.thread 0 .locked)]
    (fun last => decide ("b1" ∈ (last.memory 0).node.ledger)) (by decide +kernel)
  have recorded : Recorded last "b1" := ⟨0, Or.inl (Or.inl (by simpa using isHeld))⟩
  have seeds : ∀ event ∈ trace.map Prod.snd, event.Starts lasting.Seeds := by
    rw [labels]
    decide +kernel
  exact ⟨trace, last, run, recorded,
    (bearers_only_from_seeds newPair_lasting (idle_idle _).quiescent run
      fun entry member => seeds _ (List.mem_map_of_mem member)).1 recorded⟩

def UnseededAcross (b : String) (event : RestartEvent ι) : Prop :=
  event.Starts fun command => command.message ≠ .seed b

omit [DecidableEq ι] in
theorem UnseededAcross.seeds {event : RestartEvent ι} (unseeded : UnseededAcross b event) :
    event.Starts (without b).Seeds := by
  refine unseeded.mono fun command noSeed bearer seeds => ?_
  rintro rfl
  exact noSeed seeds

theorem saved_of_resurrection (quiescent : start.Quiescent)
    (extinct : ∀ i, b ∉ (start.memory i).node.ledger)
    (run : Run (D.RestartStep nodeId) start trace last)
    (unseeded : ∀ entry ∈ trace, UnseededAcross b entry.2) {i : ι}
    (isHeld : b ∈ (last.memory i).node.ledger) :
    ∃ i node, start.saved i = some node ∧ b ∈ node.ledger := by
  by_contra unsaved
  have initially : (((without b).contract False ι).CompliesAcross
      (fun _ => (without b).InNode) start) := by
    refine compliesAcross_of_quiescent quiescent (fun i => inNode_without.mpr (extinct i)) ?_
    exact fun i node isSaved =>
      inNode_without.mpr fun listed => unsaved ⟨i, node, isSaved, listed⟩
  have across := initially.run (keptAcross (without b) False fun _ => trivial) run
    fun entry member => (unseeded entry member).seeds
  exact inNode_without.mp (across.complies.memory i).1 isHeld

/-- A bearer that no node holds when nothing is pending comes back, in some run that
does not seed it, exactly if a state file still lists it.  All names last. -/
theorem resurrection_iff_saved (lasts : Lasting nodeId start) (quiescent : start.Quiescent)
    (extinct : ∀ i, b ∉ (start.memory i).node.ledger) :
    (∃ trace last, Run (D.StartStep nodeId path) start trace last ∧
      (∀ entry ∈ trace, entry.2.Starts lasting.Seeds ∧ UnseededAcross b entry.2) ∧
      ∃ i, b ∈ (last.memory i).node.ledger) ↔
    ∃ i node, start.saved i = some node ∧ b ∈ node.ledger := by
  constructor
  · rintro ⟨trace, last, run, within, i, isHeld⟩
    have seeds := fun entry member => (within entry member).1
    exact saved_of_resurrection quiescent extinct (lasts.restoreRun quiescent run seeds)
      (fun entry member => (within entry member).2) isHeld
  · rintro ⟨i, node, isSaved, listed⟩
    have edge : D.StartStep nodeId path start (.restarted i .closed)
        (start.restarted i .closed (reload nodeId path i (start.saved i))) := rfl
    have reloaded : reload nodeId path i (start.saved i) = ⟨node, ∅⟩ := by
      rw [reload, startState_saved i (path i) fun node isSaved =>
        lasting_names (lasts.saved i node isSaved), isSaved]
      rfl
    refine ⟨_, _, Run.refl.tail edge, ?_, i, ?_⟩
    · simp [UnseededAcross, LockedProcesses.RestartEvent.Starts]
    · simpa [World.restarted, reloaded] using listed

/-- `N2` has saved a bearer which it drops when `N1` spends it.  Once it is restarted
it holds the bearer again. -/
theorem resurrection_iff_saved_newPair :
    ∃ before w, Run ((cluster ["N1", "N2"]).StartStep ["N1", "N2"].get pairPath) newPair
        before w ∧
      "b1" ∈ (w.memory 0).node.spent ∧
      ∃ trace last, Run ((cluster ["N1", "N2"]).StartStep ["N1", "N2"].get pairPath) w trace last ∧
        (∀ entry ∈ trace, entry.2.Starts lasting.Seeds ∧ UnseededAcross "b1" entry.2) ∧
        ∃ i, "b1" ∈ (last.memory i).node.ledger := by
  obtain ⟨before, w, run, labels, dropped⟩ := System.exists_restartRun
    (cluster ["N1", "N2"]).system (reload ["N1", "N2"].get pairPath) newPair
    [.step (.started 1 (AdminMessage.seed "b1").command), .step (.thread 0 .locked),
      .step (.thread 0 .persisted), .step (.thread 0 .replied),
      .step (.started 0 (AdminMessage.linkUp "N2").command), .step (.thread 1 .locked),
      .step (.thread 1 .requested), .step (.thread 1 .served), .step (.thread 1 .locked),
      .step (.thread 1 .persisted), .step (.thread 1 .replied),
      .step (.started 0 (AdminMessage.spendAt "b1").command), .step (.thread 2 .locked),
      .step (.thread 2 .persisted), .step (.thread 2 .sent), .step (.thread 2 .replied),
      .step (.delivered 0)]
    (fun w => decide (w.Quiescent ∧ (∀ i, "b1" ∉ (w.memory i).node.ledger) ∧
      "b1" ∈ (w.memory 0).node.spent ∧ (w.saved 1).any fun node => "b1" ∈ node.ledger))
    (by decide +kernel)
  obtain ⟨quiescent, extinct, isSpent, isListed⟩ := of_decide_eq_true dropped
  obtain ⟨node, isSaved, listed⟩ := (Option.any_eq_true _ _).mp isListed
  have seeds : ∀ event ∈ before.map Prod.snd, event.Starts lasting.Seeds := by
    rw [labels]
    decide +kernel
  have lasts : Lasting ["N1", "N2"].get w := newPair_lasting.run (idle_idle _).quiescent run
    fun entry member => seeds _ (List.mem_map_of_mem member)
  exact ⟨before, w, run, isSpent, (resurrection_iff_saved lasts quiescent extinct).mpr
    ⟨1, node, isSaved, by simpa using listed⟩⟩

end Deployment

end HabiCore
