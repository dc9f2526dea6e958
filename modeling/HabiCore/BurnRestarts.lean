import HabiCore.HandlerConduct
import HabiCore.SavedImages

/-!
# Burns and restarts

A node that is killed comes back with what its state file holds.  Its own
commands write the file after every change, but the handler of peer messages
never does, so that a bearer revoked by a notification is back after a restart
unless the file has been written since.
-/

namespace HabiCore

open LabelledRuns LockedProcesses

/-- The message leaves the ledger and the spent set of its receiver alone: it
revokes nothing the node holds, and a Hello neither offers a new bearer nor
reports one of the node's bearers as spent. -/
def PeerMessage.ChangesNothing (node : Node) : PeerMessage → Prop
  | .linkUpHello _ ledger spent =>
      (∀ b ∈ ledger, b ∈ node.ledger ∨ b ∈ node.spent ∨ b ∈ spent) ∧
        ∀ b ∈ node.ledger, b ∉ node.spent ∧ b ∉ spent
  | .spentNotify _ bearer => bearer ∉ node.ledger
  | _ => True

section Ledgers

variable {found : NodeShared}

theorem respond_node_eq_iff {msg : PeerMessage} :
    (handlePeerConnection found msg).2.node = found.node ↔ msg.ChangesNothing found.node := by
  have ofLedger : ∀ ledger : Finset String,
      ({ found.node with ledger := ledger } : Node) = found.node ↔
        ledger = found.node.ledger := by
    intro ledger
    constructor
    · exact fun same => congrArg Node.ledger same
    · rintro rfl
      rfl
  cases msg with
  | linkUpHello sender ledger spent =>
      simp only [handlePeerConnection_linkUpHello, NodeShared.applyLinkUp_node, ofLedger,
        NodeShared.computeLinkUpMerge_eq, PeerMessage.ChangesNothing, Finset.ext_iff,
        Finset.mem_sdiff, Finset.mem_union, List.mem_toFinset]
      constructor
      · intro same
        refine ⟨fun b offered => ?_, fun b own => not_or.mp ((same b).mpr own).2⟩
        by_contra missing
        obtain ⟨notHeld, unspent⟩ := not_or.mp missing
        exact notHeld ((same b).mp ⟨Or.inr offered, unspent⟩)
      · rintro ⟨offers, keeps⟩ b
        constructor
        · rintro ⟨own | offered, unspent⟩
          · exact own
          · exact (offers b offered).resolve_right unspent
        · exact fun own => ⟨Or.inl own, not_or.mpr (keeps b own)⟩
  | spentNotify sender bearer =>
      simp only [handlePeerConnection_spentNotify, NodeShared.applySpentNotify_node, ofLedger,
        Finset.erase_eq_self, PeerMessage.ChangesNothing]
  | propagateRequest sender =>
      simp [handlePeerConnection_propagateRequest, PeerMessage.ChangesNothing]
  | linkUpAck | linkDown | propagateReply | statusRequest | statusReply =>
      simp [PeerMessage.ChangesNothing]

end Ledgers

namespace Deployment

variable {ι : Type}

def blankNode (nodeId : ι → String) (x : ι) : Node :=
  Node.new (nodeId x)

/-- The memories after some nodes have been killed and restarted. -/
def afterRestart (nodeId : ι → String) (killed : ι → Bool) (w : World ι) (x : ι) : NodeShared :=
  if killed x then HabiNode.restoreState (nodeId x) (w.saved x) else w.memory x

/-- A restart of the node yields the ledger and the spent set it has in memory. -/
def RestartKeeps (nodeId : ι → String) (w : World ι) (x : ι) : Prop :=
  (HabiNode.restoreState (nodeId x) (w.saved x)).node = (w.memory x).node

/-- A section or a message may add the bearer to the ledger of the node. -/
def BringsBack (step : World ι × Event ι) (x : ι) (b : String) : Prop :=
  (∃ k command body next, step.2 = .thread k .locked ∧
    step.1.threads[k]? = some ⟨x, command, .running (.locked body next)⟩ ∧
    b ∈ body.brings (step.1.memory x)) ∨
  ∃ msg, step.1.received step.2 = some (x, msg) ∧ b ∈ msg.brings (step.1.memory x)

/-- The node `x` handles a notification of the bearer by `c`. -/
def Notified (nodeId : ι → String) (c x : ι) (b : String) (step : World ι × Event ι) : Prop :=
  step.1.received step.2 = some (x, .spentNotify (nodeId c) b)

/-- A Conversion Day of the node `c` has burned the bearers, as the steps
`after` followed, and has replied Ok; all its notifications have been handled. -/
structure Concluded (nodeId : ι → String) (trace : List (World ι × Event ι)) (last : World ι)
    (c : ι) (burned : List String) (after : List (World ι × Event ι)) : Prop where
  burns : ∃ before w n command next, trace = before ++ (w, .thread n .locked) :: after ∧
    w.threads[n]? = some ⟨c, command, .running (.locked (.burn burned) next)⟩ ∧
    last.threads[n]? = some ⟨c, command, .replied .ok⟩
  handled : ∀ x, x ≠ c → ∀ b ∈ burned, ∃ step ∈ after, Notified nodeId c x b step

/-- Nothing brings a burned bearer back to the node `c`, nor to another node
that has been notified of it. -/
structure StaysBurned (nodeId : ι → String) (c : ι) (burned : List String)
    (after : List (World ι × Event ι)) : Prop where
  own : ∀ b ∈ burned, ∀ step ∈ after, ¬ BringsBack step c b
  others : ∀ x, x ≠ c → ∀ b ∈ burned, ∀ step later, step :: later <:+ after →
    Notified nodeId c x b step → ∀ other ∈ later, ¬ BringsBack other x b

/-- When a node is notified of a burned bearer, its state file does not hold it
in the ledger, or is written later. -/
def WrittenOut (nodeId : ι → String) (c : ι) (burned : List String)
    (after : List (World ι × Event ι)) : Prop :=
  ∀ x, x ≠ c → ∀ b ∈ burned, ∀ step later, step :: later <:+ after →
    Notified nodeId c x b step → b ∉ (step.1.file (blankNode nodeId) x).ledger ∨
      ∃ other ∈ later, other.1.saver other.2 = some x

/-- The messages handled in a step change nothing, and no change of their
receivers is unsaved. -/
def Careful (D : Deployment ι) (nodeId : ι → String) (step : World ι × Event ι) : Prop :=
  ∀ x msg, step.1.received step.2 = some (x, msg) →
    msg.ChangesNothing (step.1.memory x).node ∧
      (step.1.SavePending x → step.1.Synced D.system (blankNode nodeId) x)

section Steps

variable [DecidableEq ι] {D : Deployment ι} {nodeId : ι → String} {w w' : World ι}
  {event : Event ι} {x : ι} {b : String}

omit [DecidableEq ι] in
theorem restoreState_node :
    (HabiNode.restoreState (nodeId x) (w.saved x)).node = w.file (blankNode nodeId) x := by
  unfold World.file
  cases w.saved x <;> rfl

theorem not_held_step (edge : D.system.Step w event w')
    (stays : ¬ BringsBack (w, event) x b) (notHeld : b ∉ (w.memory x).node.ledger) :
    b ∉ (w'.memory x).node.ledger := by
  intro isHeld
  rcases edge.memory_at x with ⟨-, same⟩ | ⟨j, msg, isReceived, -, changed⟩ |
    ⟨k, command, body, next, rfl, -, present, -, changed⟩
  · rw [same] at isHeld
    exact notHeld isHeld
  · by_cases isOwn : x = j
    · subst isOwn
      rw [changed, Function.update_self] at isHeld
      rcases mem_ledger_of_respond isHeld with own | isBrought
      · exact notHeld own
      · exact stays (Or.inr ⟨msg, isReceived, isBrought⟩)
    · rw [changed, Function.update_of_ne isOwn] at isHeld
      exact notHeld isHeld
  · rw [changed] at isHeld
    rcases mem_ledger_of_execute isHeld with own | isBrought
    · exact notHeld own
    · exact stays (Or.inl ⟨k, command, body, next, rfl, present, isBrought⟩)

/-- While nothing brings a bearer back, the state file is free of it if it has
been so before or has been written. -/
theorem not_held_run {trace : List (World ι × Event ι)} {first last : World ι}
    (run : Run D.system.Step first trace last)
    (stays : ∀ step ∈ trace, ¬ BringsBack step x b)
    (notHeld : b ∉ (first.memory x).node.ledger) :
    b ∉ (last.memory x).node.ledger ∧
      (b ∉ (last.file (blankNode nodeId) x).ledger ↔
        b ∉ (first.file (blankNode nodeId) x).ledger ∨
          ∃ step ∈ trace, step.1.saver step.2 = some x) :=
  file_of_run (fun node => b ∉ node.ledger) run
    (fun step member _ edge => not_held_step edge (stays step member)) notHeld

theorem notified_step {c : ι} (edge : D.system.Step w event w')
    (notified : Notified nodeId c x b (w, event)) :
    b ∉ (w'.memory x).node.ledger ∧ w'.saved = w.saved := by
  rcases edge.memory_at x with ⟨none, -⟩ | ⟨j, msg, isReceived, sameFile, changed⟩ |
    ⟨k, command, body, next, rfl, -, -, -, -⟩
  · rw [Notified, none] at notified
    cases notified
  · obtain ⟨rfl, rfl⟩ : j = x ∧ msg = .spentNotify (nodeId c) b := by
      simpa [Notified, isReceived] using notified
    refine ⟨?_, sameFile⟩
    rw [changed, Function.update_self]
    simp
  · simp [Notified, World.received] at notified

/-- A message that a node handles with its file up to date is safe from a restart
exactly if it changes nothing. -/
theorem restartKeeps_of_received {msg : PeerMessage} (edge : D.system.Step w event w')
    (received : w.received event = some (x, msg))
    (synced : w.Synced D.system (blankNode nodeId) x) :
    RestartKeeps nodeId w' x ↔ msg.ChangesNothing (w.memory x).node := by
  have handled : w'.saved = w.saved ∧
      w'.memory x = (handlePeerConnection (w.memory x) msg).2 := by
    rcases edge.memory_at x with ⟨none, -⟩ | ⟨j, other, isReceived, sameFile, changed⟩ |
      ⟨k, command, body, next, rfl, -, -, -, -⟩
    · rw [none] at received
      cases received
    · obtain ⟨rfl, rfl⟩ : j = x ∧ other = msg := by simpa [received] using isReceived.symm
      exact ⟨sameFile, by rw [changed, Function.update_self, system_respond]⟩
    · simp [World.received] at received
  have fileNode : w.file (blankNode nodeId) x = (w.memory x).node := synced
  have sameFile : w'.file (blankNode nodeId) x = w.file (blankNode nodeId) x := by
    unfold World.file
    rw [handled.1]
  rw [← respond_node_eq_iff, RestartKeeps, restoreState_node, sameFile, fileNode, handled.2]
  exact eq_comm

/-- A step that handles messages with care leaves every file up to date or about
to be written. -/
theorem synced_step (edge : D.system.Step w event w')
    (named : ∀ i, (w.memory i).node.nodeId = nodeId i)
    (keeps : w.Keeps fun i => nodeConduct (D.peers i) (nodeId i))
    (saves : event.saves) (careful : Careful D nodeId (w, event))
    (before : w.Synced D.system (blankNode nodeId) x ∨ w.SavePending x) :
    w'.Synced D.system (blankNode nodeId) x ∨ w'.SavePending x := by
  apply edge.synced_or_savePending saves _ _ before
  · intro k command body next present
    have kept : SavesChange body (w.memory x) (next (w.memory x)) :=
      (keeps.thread present (w.memory x) (named x)).1.1
    exact kept.symm
  · intro msg received
    exact respond_node_eq_iff.mpr (careful x msg received).1

theorem burn_step {n : Nat} {c : ι} {command : Command} {burned : List String}
    {next : NodeShared → Handler} (keeps : w.Keeps fun i => nodeConduct (D.peers i) (nodeId i))
    (named : ∀ i, (w.memory i).node.nodeId = nodeId i)
    (present : w.threads[n]? = some ⟨c, command, .running (.locked (.burn burned) next)⟩)
    (edge : D.system.Step w (.thread n .locked) w') :
    (∀ b ∈ burned, b ∉ (w'.memory c).node.ledger) ∧
      w'.threads[n]? = some ⟨c, command, .running (.persist
        (HabiNode.broadcast (HabiNode.burnNotices (D.peers c) (nodeId c) burned)))⟩ := by
  have announces : AnnouncesBurn (D.peers c) (nodeId c) (.burn burned) (next (w.memory c)) :=
    (keeps.thread present (w.memory c) (named c)).1.2.1
  obtain ⟨-, rfl⟩ := edge.of_locked present
  refine ⟨fun b isBurned => ?_, ?_⟩
  · simp [CriticalSection.execute, foldl_applySpentNotify, isBurned]
  · rw [announces burned rfl]
    exact List.getElem?_set_self (List.getElem?_eq_some_iff.mp present).1

end Steps

section Runs

variable [DecidableEq ι] {D : Deployment ι} {nodeId : ι → String} {start last : World ι}
  {trace after : List (World ι × Event ι)} {c x : ι} {burned : List String} {b : String}

theorem Concluded.own (concluded : Concluded nodeId trace last c burned after)
    (named : ∀ i, (start.memory i).node.nodeId = nodeId i) (idle : start.Idle)
    (run : Run D.system.Step start trace last)
    (saves : ∀ step ∈ trace, step.2.saves)
    (stays : ∀ step ∈ after, ¬ BringsBack step c b) (isBurned : b ∈ burned) :
    b ∉ (last.memory c).node.ledger ∧ b ∉ (last.file (blankNode nodeId) c).ledger := by
  obtain ⟨before, w, n, command, next, rfl, present, replied⟩ := concluded.burns
  obtain ⟨w', upToHere, edge, onwards⟩ := run.split
  obtain ⟨namedHere, keeps⟩ := conduct_of_run upToHere idle named
  obtain ⟨burns, pending⟩ := burn_step keeps namedHere present edge
  have savesLater : ∀ step ∈ after, step.2.saves :=
    fun step member => saves step
      (List.mem_append_right _ (List.mem_cons_of_mem _ member))
  have written : ∃ step ∈ after, step.1.saver step.2 = some c := by
    rcases saved_of_run onwards savesLater pending with waiting | written
    · rw [replied] at waiting
      cases waiting
    · exact written
  obtain ⟨inMemory, inFile⟩ := not_held_run onwards stays (burns b isBurned)
  exact ⟨inMemory, inFile.mpr (Or.inr written)⟩

/-- In a lossless run all other nodes have handled the notifications of a burn
once its command has replied and none of them is in flight. -/
theorem concluded_of_lossless (configured : Configured D nodeId)
    (named : ∀ i, (start.memory i).node.nodeId = nodeId i) (idle : start.Idle)
    {before : List (World ι × Event ι)} {w : World ι} {n : Nat} {command : Command}
    {next : NodeShared → Handler}
    (run : Run D.system.Step start (before ++ (w, .thread n .locked) :: after) last)
    (lossless : ∀ step ∈ after, step.2.Lossless)
    (present : w.threads[n]? = some ⟨c, command, .running (.locked (.burn burned) next)⟩)
    (replied : last.threads[n]? = some ⟨c, command, .replied .ok⟩)
    (arrived : ∀ x, ∀ b ∈ burned, (x, .spentNotify (nodeId c) b) ∉ last.inFlight) :
    Concluded nodeId (before ++ (w, .thread n .locked) :: after) last c burned after := by
  refine ⟨⟨before, w, n, command, next, rfl, present, replied⟩, fun x other b isBurned => ?_⟩
  obtain ⟨w', upToHere, edge, onwards⟩ := run.split
  obtain ⟨namedHere, keeps⟩ := conduct_of_run upToHere idle named
  obtain ⟨-, pending⟩ := burn_step keeps namedHere present edge
  obtain ⟨addr, found, listening⟩ := configured.lookup other
  have owes : (HabiNode.broadcast (HabiNode.burnNotices (D.peers c) (nodeId c) burned)).Owes
      addr (.spentNotify (nodeId c) b) :=
    owes_broadcast (HabiNode.mem_burnNotices.mpr ⟨nodeId x, addr, b, found, isBurned, rfl⟩)
  rcases owed_run onwards lossless pending listening owes with
    ⟨thread, stillThere, stillOwes⟩ | flying | ⟨step, member, m, delivers, sent⟩
  · obtain rfl := Option.some_inj.mp (replied.symm.trans stillThere)
    exact stillOwes.elim
  · exact (arrived x b isBurned flying).elim
  · exact ⟨step, member, by simp [Notified, World.received, delivers, sent]⟩

theorem notified_run {step : World ι × Event ι} {later : List (World ι × Event ι)}
    (run : Run D.system.Step start trace last) (isSuffix : step :: later <:+ trace)
    (notified : Notified nodeId c x b step)
    (stays : ∀ other ∈ later, ¬ BringsBack other x b) :
    b ∉ (last.memory x).node.ledger ∧
      (b ∉ (last.file (blankNode nodeId) x).ledger ↔
        b ∉ (step.1.file (blankNode nodeId) x).ledger ∨
          ∃ other ∈ later, other.1.saver other.2 = some x) := by
  obtain ⟨earlier, rfl⟩ := isSuffix
  obtain ⟨w', -, edge, onwards⟩ := run.split
  obtain ⟨notHeld, sameFile⟩ := notified_step edge notified
  have same : w'.file (blankNode nodeId) x = step.1.file (blankNode nodeId) x := by
    unfold World.file
    rw [sameFile]
  rw [← same]
  exact not_held_run onwards stays notHeld

theorem Concluded.survives_iff (concluded : Concluded nodeId trace last c burned after)
    (named : ∀ i, (start.memory i).node.nodeId = nodeId i) (idle : start.Idle)
    (run : Run D.system.Step start trace last)
    (saves : ∀ step ∈ trace, step.2.saves)
    (stays : StaysBurned nodeId c burned after) :
    (∀ killed x, ∀ b ∈ burned, b ∉ (afterRestart nodeId killed last x).node.ledger) ↔
      WrittenOut nodeId c burned after := by
  have isSuffix : after <:+ trace := by
    obtain ⟨before, w, n, command, next, rfl, -, -⟩ := concluded.burns
    exact ⟨before ++ [(w, .thread n .locked)], by simp⟩
  constructor
  · intro survives x other b isBurned step later cut notified
    have file := (notified_run run (cut.trans isSuffix) notified
      (stays.others x other b isBurned step later cut notified)).2
    apply file.mp
    have restarted := survives (fun _ => true) x b isBurned
    rwa [afterRestart, if_pos rfl, restoreState_node] at restarted
  · intro written killed x b isBurned
    have free : b ∉ (last.memory x).node.ledger ∧
        b ∉ (last.file (blankNode nodeId) x).ledger := by
      by_cases isOwn : x = c
      · subst isOwn
        exact concluded.own named idle run saves (stays.own b isBurned) isBurned
      · obtain ⟨step, member, notified⟩ := concluded.handled x isOwn b isBurned
        obtain ⟨earlier, later, cut⟩ := List.mem_iff_append.mp member
        have cut : step :: later <:+ after := ⟨earlier, cut.symm⟩
        obtain ⟨inMemory, inFile⟩ := notified_run run (cut.trans isSuffix) notified
          (stays.others x isOwn b isBurned step later cut notified)
        exact ⟨inMemory, inFile.mpr (written x isOwn b isBurned step later cut notified)⟩
    unfold afterRestart
    split
    · rw [restoreState_node]
      exact free.2
    · exact free.1

theorem synced_of_run (named : ∀ i, (start.memory i).node.nodeId = nodeId i)
    (idle : start.Idle) (synced : ∀ i, start.Synced D.system (blankNode nodeId) i)
    (run : Run D.system.Step start trace last)
    (saves : ∀ step ∈ trace, step.2.saves)
    (careful : ∀ step ∈ trace, Careful D nodeId step) (x : ι) :
    last.Synced D.system (blankNode nodeId) x ∨ last.SavePending x := by
  induction run with
  | refl => exact Or.inl (synced x)
  | @tail trace middle last event run edge ih =>
      have before := ih (fun step member => saves step (List.mem_append_left _ member))
        fun step member => careful step (List.mem_append_left _ member)
      obtain ⟨namedHere, keeps⟩ := conduct_of_run run idle named
      exact synced_step edge namedHere keeps (saves (middle, event) (by simp))
        (careful (middle, event) (by simp)) before

/-- What restarts keep, in every run in which each write of a state file
succeeds.  A burn that has been concluded survives the restart of any nodes
exactly if it has been written out, provided nothing brings its bearers back.
A restart after a peer message yields the data in memory if the messages are
handled with care, and a further message that finds no change unsaved is safe
exactly if it changes nothing. -/
theorem restarts_keep_iff (named : ∀ i, (start.memory i).node.nodeId = nodeId i)
    (idle : start.Idle) (synced : ∀ i, start.Synced D.system (blankNode nodeId) i)
    (run : Run D.system.Step start trace last)
    (saves : ∀ step ∈ trace, step.2.saves) :
    (∀ c burned after, Concluded nodeId trace last c burned after →
      StaysBurned nodeId c burned after →
      ((∀ killed x, ∀ b ∈ burned, b ∉ (afterRestart nodeId killed last x).node.ledger) ↔
        WrittenOut nodeId c burned after)) ∧
    ((∀ step ∈ trace, Careful D nodeId step) →
      (∀ step ∈ trace, ∀ next, D.system.Step step.1 step.2 next → ∀ x msg,
        step.1.received step.2 = some (x, msg) → RestartKeeps nodeId next x) ∧
      ∀ event next, D.system.Step last event next → ∀ x msg,
        last.received event = some (x, msg) → ¬ last.SavePending x →
          (RestartKeeps nodeId next x ↔ msg.ChangesNothing (last.memory x).node)) := by
  refine ⟨fun c burned after concluded stays =>
    concluded.survives_iff named idle run saves stays, fun careful => ⟨?_, ?_⟩⟩
  · intro step member next edge x msg received
    obtain ⟨changesNothing, saved⟩ := careful step member x msg received
    obtain ⟨before, after, rfl⟩ := List.mem_iff_append.mp member
    obtain ⟨-, upToHere, -, -⟩ := run.split
    have upToDate : step.1.Synced D.system (blankNode nodeId) x := by
      rcases synced_of_run named idle synced upToHere
        (fun other isEarlier => saves other (List.mem_append_left _ isEarlier))
        (fun other isEarlier => careful other (List.mem_append_left _ isEarlier)) x with
        upToDate | pending
      · exact upToDate
      · exact saved pending
    exact (restartKeeps_of_received edge received upToDate).mpr changesNothing
  · intro event next edge x msg received noSave
    have upToDate := (synced_of_run named idle synced run saves careful x).resolve_right noSave
    exact restartKeeps_of_received edge received upToDate

end Runs

instance (nodeId : ι → String) [DecidableEq ι] (c x : ι) (b : String)
    (step : World ι × Event ι) : Decidable (Notified nodeId c x b step) :=
  inferInstanceAs (Decidable (_ = _))

/-- Two nodes with one bearer that have just been started from their files. -/
def restartedHolders : World (Fin ["N1", "N2"].length) :=
  let memory := unlinkedNode ["N1", "N2"] fun _ => {"b1"}
  { idle memory with saved := fun x => some (memory x).node }

def played (w : World (Fin ["N1", "N2"].length)) (events : List (Event (Fin ["N1", "N2"].length))) :
    List (World (Fin ["N1", "N2"].length) × Event (Fin ["N1", "N2"].length)) ×
      World (Fin ["N1", "N2"].length) :=
  (follow (cluster ["N1", "N2"]).system.step w events).getD ([], w)

theorem eq_some_getD {α : Type} {found : Option α} {fallback : α} (isSome : found.isSome) :
    found = some (found.getD fallback) :=
  (Option.getD_of_ne_none (Option.isSome_iff_ne_none.mp isSome) fallback).symm

def beforeBurn (c : Fin ["N1", "N2"].length) :=
  played restartedHolders
    [.started c (AdminMessage.spendAt "b1").command, .thread 0 .locked, .thread 0 .persisted,
      .thread 0 .replied, .started c AdminMessage.conversionDay.command, .thread 1 .locked,
      .thread 1 .requested, .thread 1 .served]

def afterBurn (c : Fin ["N1", "N2"].length) :=
  ((cluster ["N1", "N2"]).system.step (beforeBurn c).2 (.thread 1 .locked)).getD (beforeBurn c).2

/-- It replies, the other node handles the notification, and more may follow. -/
def afterNotice (c : Fin ["N1", "N2"].length) (more : List (Event (Fin ["N1", "N2"].length))) :=
  played (afterBurn c)
    ([.thread 1 .persisted, .thread 1 .sent, .thread 1 .replied, .delivered 0] ++ more)

theorem concluded_afterNotice (more : List (Event (Fin ["N1", "N2"].length)))
    (possible : (follow (cluster ["N1", "N2"]).system.step (afterBurn 0)
      ([.thread 1 .persisted, .thread 1 .sent, .thread 1 .replied, .delivered 0] ++
        more)).isSome)
    (replied : (afterNotice 0 more).2.threads[1]? =
      some ⟨0, AdminMessage.conversionDay.command, .replied .ok⟩)
    (lossless : ∀ step ∈ (afterNotice 0 more).1, step.2.Lossless)
    (arrived : ∀ x, ∀ b ∈ ["b1"],
      (x, .spentNotify (["N1", "N2"].get 0) b) ∉ (afterNotice 0 more).2.inFlight) :
    Run (cluster ["N1", "N2"]).system.Step restartedHolders
        ((beforeBurn 0).1 ++ ((beforeBurn 0).2, .thread 1 .locked) :: (afterNotice 0 more).1)
        (afterNotice 0 more).2 ∧
      Concluded ["N1", "N2"].get
        ((beforeBurn 0).1 ++ ((beforeBurn 0).2, .thread 1 .locked) :: (afterNotice 0 more).1)
        (afterNotice 0 more).2 0 ["b1"] (afterNotice 0 more).1 := by
  have upToHere : Run (cluster ["N1", "N2"]).system.Step restartedHolders (beforeBurn 0).1
      (beforeBurn 0).2 := (run_of_follow (eq_some_getD (by decide))).1
  have edge : (cluster ["N1", "N2"]).system.Step (beforeBurn 0).2 (.thread 1 .locked)
      (afterBurn 0) := eq_some_getD (by decide)
  have onwards : Run (cluster ["N1", "N2"]).system.Step (afterBurn 0) (afterNotice 0 more).1
      (afterNotice 0 more).2 := (run_of_follow (eq_some_getD possible)).1
  have run : Run (cluster ["N1", "N2"]).system.Step restartedHolders
      ((beforeBurn 0).1 ++ ((beforeBurn 0).2, .thread 1 .locked) :: (afterNotice 0 more).1)
      (afterNotice 0 more).2 := by
    rw [List.append_cons]
    exact (upToHere.tail edge).trans onwards
  exact ⟨run, concluded_of_lossless (cluster_configured (by decide)) (fun _ => rfl) ⟨rfl, rfl⟩
    run lossless rfl replied arrived⟩

/-- `N2` holds the bearer that has been burned everywhere when it is killed and
restarted. -/
theorem burn_lost_on_restart :
    ¬ ∀ trace (last : World (Fin ["N1", "N2"].length)),
        Run (cluster ["N1", "N2"]).system.Step restartedHolders trace last →
        (∀ step ∈ trace, step.2.Lossless ∧ step.2.saves) → last.Quiescent →
        ∀ c burned after, Concluded ["N1", "N2"].get trace last c burned after →
          ∀ killed x, ∀ b ∈ burned,
            b ∉ (afterRestart ["N1", "N2"].get killed last x).node.ledger := by
  intro survives
  obtain ⟨run, concluded⟩ := concluded_afterNotice [] (by decide) rfl (by decide) (by decide)
  have gone := survives _ _ run (by decide) (by decide) 0 ["b1"] (afterNotice 0 []).1 concluded
    (fun _ => true) 1 "b1" (by simp)
  revert gone
  decide

def brought (step : World ι × Event ι) : Option (ι × Finset String) :=
  match step.2 with
  | .thread k .locked =>
      match step.1.threads[k]? with
      | some ⟨x, _, .running (.locked body _)⟩ => some (x, body.brings (step.1.memory x))
      | _ => none
  | event => (step.1.received event).map fun handled =>
      (handled.1, handled.2.brings (step.1.memory handled.1))

theorem brought_of_bringsBack {step : World ι × Event ι} {x : ι} {b : String}
    (bringsBack : BringsBack step x b) :
    ∃ bearers, brought step = some (x, bearers) ∧ b ∈ bearers := by
  obtain ⟨w, event⟩ := step
  rcases bringsBack with ⟨k, command, body, next, rfl, present, isBrought⟩ |
    ⟨msg, received, isBrought⟩
  · exact ⟨body.brings (w.memory x), by simp [brought, present], isBrought⟩
  · refine ⟨msg.brings (w.memory x), ?_, isBrought⟩
    unfold brought
    split
    · rename_i isLocked
      rw [isLocked] at received
      simp [World.received] at received
    · rw [received]
      rfl

def seeding (x : Fin ["N1", "N2"].length) : List (Event (Fin ["N1", "N2"].length)) :=
  [.started x (AdminMessage.seed "b2").command, .thread 2 .locked, .thread 2 .persisted,
    .thread 2 .replied]

/-- `N2` has another bearer seeded, and thereby writes its state file, before it
is killed. -/
theorem restarts_keep_iff_savedLater :
    ∃ trace, ∃ last : World (Fin ["N1", "N2"].length), ∃ after,
      Run (cluster ["N1", "N2"]).system.Step restartedHolders trace last ∧
      Concluded ["N1", "N2"].get trace last 0 ["b1"] after ∧
      ∀ killed x, "b1" ∉ (afterRestart ["N1", "N2"].get killed last x).node.ledger := by
  obtain ⟨run, concluded⟩ :=
    concluded_afterNotice (seeding 1) (by decide) rfl (by decide) (by decide)
  have stays : ∀ step ∈ (afterNotice 0 (seeding 1)).1, ∀ x, ¬ BringsBack step x "b1" := by
    have brings : ∀ step ∈ (afterNotice 0 (seeding 1)).1,
        (brought step).all (fun added => "b1" ∉ added.2) = true := by decide
    intro step member x bringsBack
    obtain ⟨bearers, isBrought, isAdded⟩ := brought_of_bringsBack bringsBack
    have absent := brings step member
    simp [isBrought, isAdded] at absent
  have staysBurned : StaysBurned ["N1", "N2"].get 0 ["b1"] (afterNotice 0 (seeding 1)).1 := by
    refine ⟨fun b isBurned step member => ?_,
      fun x _ b isBurned step later cut _ other isLater => ?_⟩
    · obtain rfl := List.mem_singleton.mp isBurned
      exact stays step member 0
    · obtain rfl := List.mem_singleton.mp isBurned
      exact stays other (cut.mem (List.mem_cons_of_mem _ isLater)) x
  have written : WrittenOut ["N1", "N2"].get 0 ["b1"] (afterNotice 0 (seeding 1)).1 := by
    have saved : ∀ suffix ∈ (afterNotice 0 (seeding 1)).1.tails, ∀ x,
        (suffix.head?.all fun step => !decide (Notified ["N1", "N2"].get 0 x "b1" step)) = true ∨
          ∃ other ∈ suffix.tail, other.1.saver other.2 = some x := by decide
    intro x _ b isBurned step later cut notified
    obtain rfl := List.mem_singleton.mp isBurned
    rcases saved (step :: later) ((List.mem_tails _ _).mpr cut) x with silent | saved
    · simp [notified] at silent
    · exact Or.inr saved
  have synced : ∀ i, restartedHolders.Synced (cluster ["N1", "N2"]).system
      (blankNode ["N1", "N2"].get) i := fun _ => rfl
  have keeps := restarts_keep_iff (fun _ => rfl) ⟨rfl, rfl⟩ synced run (by decide)
  exact ⟨_, _, _, run, concluded, fun killed x => (keeps.1 0 ["b1"] _ concluded staysBurned).mpr
    written killed x "b1" (by simp)⟩

end Deployment

end HabiCore
