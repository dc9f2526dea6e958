import HabiCore.Deployment
import HabiCore.IsolatedRuns
import HabiCore.PerLinkSpecification

/-!
# Sequential runs of a deployment

In a sequential run each command is executed alone.  The outcome of a command
is then an action of the per-link specification on the ledgers, spent sets and
links of the nodes, a settlement of all nodes, or nothing.
-/

namespace HabiCore.Deployment

open LockedProcesses LabelledRuns PerLinkSymmetric

variable {ι : Type} {D : Deployment ι} {nodeId : ι → String}

def OneWay : PeerMessage → Prop
  | .linkDown _ | .spentNotify .. => True
  | _ => False

theorem commutes_oneWay (D : Deployment ι) : D.system.Commutes OneWay := by
  intro found first second firstOneWay secondOneWay
  cases first with
  | linkDown sender =>
      cases second with
      | linkDown sender' =>
          by_cases same : sender = sender'
          · rw [same]
          · simp [NodeShared.applyLinkDown, NodeShared.setLink, Finmap.insert_insert_of_ne _ same]
      | spentNotify sender' bearer => rfl
      | _ => exact secondOneWay.elim
  | spentNotify sender bearer =>
      cases second with
      | linkDown sender' => rfl
      | spentNotify sender' bearer' =>
          simp [NodeShared.applySpentNotify, NodeShared.setLedger, Finset.erase_right_comm]
      | _ => exact secondOneWay.elim
  | _ => exact firstOneWay.elim

section RequestsFirst

variable {i : ι} (configured : Configured D nodeId)
include configured

theorem announces_broadcast {notices : List (String × PeerMessage)}
    (allowed : ∀ notice ∈ notices, OneWay notice.2 ∧
      ∃ id, (D.peers i).lookup id = some notice.1) :
    D.system.Announces i OneWay (HabiNode.broadcast notices) := by
  induction notices with
  | nil => trivial
  | cons notice rest ih =>
      obtain ⟨isOneWay, id, found⟩ := allowed notice List.mem_cons_self
      refine ⟨fun peer listening => (configured.of_listener found listening).1, isOneWay,
        fun _ => ih fun other member => allowed other (List.mem_cons_of_mem _ member)⟩

theorem announces_spendNotices (selfId bearer : String) (connected : List String) :
    D.system.Announces i OneWay
      (HabiNode.broadcast (HabiNode.spendNotices (D.peers i) selfId bearer connected)) := by
  apply announces_broadcast configured
  intro notice member
  obtain ⟨id, addr, b, found, -, rfl⟩ := HabiNode.mem_spendNotices.mp member
  exact ⟨trivial, id, found⟩

theorem announces_burnNotices (selfId : String) (burned : List String) :
    D.system.Announces i OneWay
      (HabiNode.broadcast (HabiNode.burnNotices (D.peers i) selfId burned)) := by
  apply announces_broadcast configured
  intro notice member
  obtain ⟨id, addr, b, found, -, rfl⟩ := HabiNode.mem_burnNotices.mp member
  exact ⟨trivial, id, found⟩

omit configured in
theorem requestsFirst_withPeerAddr {peer : String} {next : String → Handler}
    (later : ∀ addr, (D.peers i).lookup peer = some addr →
      D.system.RequestsFirst i OneWay (next addr)) :
    D.system.RequestsFirst i OneWay (HabiNode.withPeerAddr (D.peers i) peer next) := by
  unfold HabiNode.withPeerAddr
  split
  · exact later _ (by assumption)
  · trivial

omit configured in
theorem requestsFirst_finishExchange (peer : String) (expected : PeerMessage → Bool)
    (body : PeerMessage → CriticalSection)
    (apply : NodeShared → PeerMessage → Except StateError Unit × NodeShared)
    (answer : Except String PeerMessage) :
    D.system.RequestsFirst i OneWay
      (HabiNode.finishExchange peer expected body apply answer) := by
  cases answer with
  | error e => trivial
  | ok reply =>
      simp only [HabiNode.finishExchange]
      cases expected reply with
      | true =>
          intro shared
          dsimp only
          split <;> trivial
      | false => trivial

theorem requestsFirst_linkDown (peer : String) :
    D.system.RequestsFirst i OneWay (HabiNode.linkDown (D.peers i) peer) := by
  refine requestsFirst_withPeerAddr fun addr found shared => ?_
  refine ⟨fun receiver listening => (configured.of_listener found listening).1, trivial,
    fun result => ?_⟩
  cases result with
  | error failure => trivial
  | ok _ => exact fun _ => trivial

theorem requestsFirst_spendAt (bearer : String) :
    D.system.RequestsFirst i OneWay (HabiNode.spendAt (D.peers i) bearer) := by
  intro found
  unfold HabiNode.finishSpend
  split
  · trivial
  · exact System.RequestsFirst.of_announces (announces_spendNotices configured _ _ _)

theorem requestsFirst_gather (order : IterationOrder) (selfId : String)
    (rest : List (Sigma fun _ : String => String)) (snapshots : List PeerSnapshot)
    (unreachable : List String) :
    D.system.RequestsFirst i OneWay
      (HabiNode.gather (D.peers i) order selfId rest snapshots unreachable) := by
  induction rest generalizing snapshots unreachable with
  | nil =>
      unfold HabiNode.gather HabiNode.settle
      split
      · trivial
      · split
        · trivial
        · intro _
          exact System.RequestsFirst.of_announces (announces_burnNotices configured _ _)
  | cons peer rest ih =>
      intro answer
      cases answer with
      | error failure => exact ih _ _
      | ok reply => cases reply <;> exact ih _ _

theorem requestsFirst_handler (command : Command) :
    D.system.RequestsFirst i OneWay (D.system.handler i command) := by
  obtain ⟨message, order⟩ := command
  cases message with
  | linkUp peer =>
      exact requestsFirst_withPeerAddr fun addr _ _ _ => requestsFirst_finishExchange peer _ _ _ _
  | linkDown peer => exact requestsFirst_linkDown configured peer
  | propagate peer =>
      refine requestsFirst_withPeerAddr fun addr _ shared => ?_
      dsimp only
      split
      · trivial
      · exact fun _ => requestsFirst_finishExchange peer _ _ _ _
  | spendAt bearer => exact requestsFirst_spendAt configured bearer
  | conversionDay => exact fun _ => requestsFirst_gather configured _ _ _ _ _
  | status => exact fun _ => trivial
  | seed bearer => exact fun _ => trivial

end RequestsFirst

/-- A command, the node that executes it and the reply it gives. -/
structure Execution (ι : Type) where
  node : ι
  command : Command
  reply : AdminReply

variable [DecidableEq ι] {w w' start last : World ι} {memory : ι → NodeShared}

def replyOf (w : World ι) (n : Nat) : Option AdminReply :=
  w.threads[n]?.bind fun thread => thread.activity.reply

/-- The command is started when nothing is pending and runs alone until nothing
is pending again. -/
def Executes (D : Deployment ι) (w : World ι) (execution : Execution ι) (w' : World ι) : Prop :=
  w.Quiescent ∧ (∃ first,
    D.system.Step w (.started execution.node execution.command) first ∧
    Reaches D.system.Step (fun _ event => event.Isolated) first w') ∧ w'.Quiescent ∧
  replyOf w' w.threads.length = some execution.reply

def execute (D : Deployment ι) (w : World ι) (execution : Execution ι)
    (events : List (Event ι)) : Option (World ι) :=
  let labels := .started execution.node execution.command :: events
  (follow D.system.step w labels).bind fun followed =>
    if w.Quiescent ∧ (∀ event ∈ events, event.Isolated) ∧ followed.2.Quiescent ∧
        replyOf followed.2 w.threads.length = some execution.reply then
      some followed.2
    else
      none

theorem executes_of_execute {execution : Execution ι} {events : List (Event ι)}
    (executed : execute D w execution events = some w') : Executes D w execution w' := by
  obtain ⟨⟨trace, last⟩, follows, outcome⟩ := Option.bind_eq_some_iff.mp executed
  obtain ⟨run, labels⟩ := run_of_follow follows
  split at outcome
  · rename_i complete
    obtain ⟨quiescent, isolated, ends, replied⟩ := complete
    obtain rfl := Option.some_inj.mp outcome
    obtain ⟨⟨state, event⟩, rest, rfl, isStart, rfl⟩ := List.map_eq_cons_iff.mp labels
    obtain ⟨rfl, first, begins, later⟩ := run.uncons
    refine ⟨quiescent, ⟨first, ?_, rest, later, ?_⟩, ends, replied⟩
    · rwa [← isStart]
    · intro entry member
      exact isolated entry.2 (List.mem_map_of_mem member)
  · cases outcome

/-- The memories after a command has been executed alone, and its reply. -/
def Yields (D : Deployment ι) (memory : ι → NodeShared) (i : ι) (program : Handler)
    (after : ι → NodeShared) (reply : AdminReply) : Prop :=
  ∃ outcome, D.system.finish i program memory = some outcome ∧
    after = D.system.deliverAll outcome.memory outcome.sent ∧ outcome.reply = reply

theorem Executes.yields {execution : Execution ι} (configured : Configured D nodeId)
    (executes : Executes D w execution w') :
    Yields D w.memory execution.node (D.system.handler execution.node execution.command)
      w'.memory execution.reply := by
  obtain ⟨quiescent, ⟨first, begins, reaches⟩, ends, replied⟩ := executes
  obtain ⟨outcome, finishes, memory, present⟩ := System.isolated_outcome (commutes_oneWay D)
    (requestsFirst_handler configured execution.command) quiescent begins reaches ends
  refine ⟨outcome, finishes, memory, ?_⟩
  rw [replyOf, present, Option.bind_some] at replied
  exact Option.some_inj.mp replied

section Yields

variable {i : ι} {after : ι → NodeShared} {reply : AdminReply}

theorem yields_of_finish {program : Handler}
    {outcome : Outcome ι NodeShared PeerMessage AdminReply}
    (finishes : D.system.finish i program memory = some outcome) :
    Yields D memory i program after reply ↔
      after = D.system.deliverAll outcome.memory outcome.sent ∧ reply = outcome.reply := by
  unfold Yields
  rw [finishes]
  constructor
  · rintro ⟨outcome', same, isAfter, replied⟩
    obtain rfl := Option.some_inj.mp same
    exact ⟨isAfter, replied.symm⟩
  · rintro ⟨isAfter, replied⟩
    exact ⟨outcome, rfl, isAfter, replied.symm⟩

theorem yields_done {given : AdminReply} :
    Yields D memory i (.done given) after reply ↔ after = memory ∧ reply = given := by
  have finishes : D.system.finish i (.done given) memory = some ⟨memory, [], given⟩ := rfl
  exact yields_of_finish finishes

theorem yields_locked {body : CriticalSection} {next : NodeShared → Handler} :
    Yields D memory i (.locked body next) after reply ↔
      Yields D (Function.update memory i (body.execute (memory i))) i (next (memory i))
        after reply :=
  Iff.rfl

theorem yields_read {next : NodeShared → Handler} :
    Yields D memory i (.locked .read next) after reply ↔
      Yields D memory i (next (memory i)) after reply := by
  rw [yields_locked, CriticalSection.execute, Function.update_eq_self]

theorem yields_persist {next : Handler} :
    Yields D memory i (.persist next) after reply ↔ Yields D memory i next after reply :=
  Iff.rfl

theorem yields_exchange {addr : String} {message : PeerMessage} {peer : ι}
    {next : Except ExchangeFailure PeerMessage → Handler}
    (listening : D.listener addr = some peer) :
    Yields D memory i (.exchange addr message next) after reply ↔
      Yields D (Function.update memory peer (handlePeerConnection (memory peer) message).2) i
        (D.system.answered next (handlePeerConnection (memory peer) message).1) after reply := by
  unfold Yields
  rw [System.finish_exchange, system_listener, listening, Option.bind_some]
  rfl

theorem yields_send {addr : String} {message : PeerMessage} {peer : ι}
    {next : Except ExchangeFailure Unit → Handler} (listening : D.listener addr = some peer) :
    Yields D memory i (.send addr message next) after reply ↔
      ∃ outcome, D.system.finish i (next (.ok ())) memory = some outcome ∧
        after = D.system.deliverAll outcome.memory ((peer, message) :: outcome.sent) ∧
        outcome.reply = reply := by
  unfold Yields
  simp only [System.finish, system_listener, listening, Option.bind_some, Option.map_eq_some_iff]
  constructor
  · rintro ⟨-, ⟨outcome, finishes, rfl⟩, isAfter, replied⟩
    exact ⟨outcome, finishes, isAfter, replied⟩
  · rintro ⟨outcome, finishes, isAfter, replied⟩
    exact ⟨_, ⟨outcome, finishes, rfl⟩, isAfter, replied⟩

def received (D : Deployment ι) (notices : List (String × PeerMessage)) :
    List (ι × PeerMessage) :=
  notices.filterMap fun notice => (D.listener notice.1).map fun peer => (peer, notice.2)

omit [DecidableEq ι] in
theorem mem_received {notices : List (String × PeerMessage)} {peer : ι} {message : PeerMessage} :
    (peer, message) ∈ received D notices ↔
      ∃ addr, (addr, message) ∈ notices ∧ D.listener addr = some peer := by
  simp only [received, List.mem_filterMap, Option.map_eq_some_iff, Prod.mk.injEq]
  constructor
  · rintro ⟨⟨addr, _⟩, member, _, listening, rfl, rfl⟩
    exact ⟨addr, member, listening⟩
  · rintro ⟨addr, member, listening⟩
    exact ⟨(addr, message), member, peer, listening, rfl, rfl⟩

theorem finish_broadcast {notices : List (String × PeerMessage)}
    (listening : ∀ notice ∈ notices, (D.listener notice.1).isSome) :
    D.system.finish i (HabiNode.broadcast notices) memory =
      some ⟨memory, received D notices, .ok⟩ := by
  induction notices with
  | nil => rfl
  | cons notice rest ih =>
      obtain ⟨peer, found⟩ := Option.isSome_iff_exists.mp (listening notice List.mem_cons_self)
      have later := ih fun other member => listening other (List.mem_cons_of_mem _ member)
      simp only [HabiNode.broadcast, HabiNode.sendToPeerNoReply, System.finish, system_listener,
        found, Option.bind_some, later, Option.map_some, received, List.filterMap_cons]

theorem yields_broadcast {notices : List (String × PeerMessage)}
    (listening : ∀ notice ∈ notices, (D.listener notice.1).isSome) :
    Yields D memory i (HabiNode.broadcast notices) after reply ↔
      after = D.system.deliverAll memory (received D notices) ∧ reply = .ok :=
  yields_of_finish (finish_broadcast listening)

end Yields

structure Removes (removed : ι → Set String) (memory after : ι → NodeShared) : Prop where
  links : ∀ x peer, (after x).isLinked peer = (memory x).isLinked peer
  spent : ∀ x, (after x).node.spent = (memory x).node.spent
  ledger : ∀ x, ((after x).node.ledger : Set String) =
    ((memory x).node.ledger : Set String) \ removed x

omit [DecidableEq ι] in
theorem Removes.trans {first second : ι → Set String} {middle after : ι → NodeShared}
    (before : Removes first memory middle) (later : Removes second middle after) :
    Removes (fun x => first x ∪ second x) memory after where
  links x peer := (later.links x peer).trans (before.links x peer)
  spent x := (later.spent x).trans (before.spent x)
  ledger x := by rw [later.ledger, before.ledger, Set.sdiff_sdiff]

omit [DecidableEq ι] in
theorem Removes.congr {removed removed' : ι → Set String} {after : ι → NodeShared}
    (removes : Removes removed memory after) (same : ∀ x b, b ∈ removed' x ↔ b ∈ removed x) :
    Removes removed' memory after := by
  have equal : removed' = removed := funext fun x => Set.ext (same x)
  rwa [equal]

theorem removes_update {i : ι} {left : NodeShared} {removed : Finset String}
    (leaves : left = (memory i).setLedger ((memory i).node.ledger \ removed)) :
    Removes (fun x => {b | x = i ∧ b ∈ removed}) memory (Function.update memory i left) := by
  constructor
  all_goals
    intro x
    by_cases same : x = i
    · subst same
      simp [leaves]
    · simp [same]

def OfConversionDay : PeerMessage → Prop
  | .statusRequest _ | .spentNotify .. => True
  | _ => False

/-- Handled notifications remove their bearers from the ledgers of their receivers. -/
theorem removes_deliverAll {sent : List (ι × PeerMessage)}
    (allowed : ∀ message ∈ sent, OfConversionDay message.2) (memory : ι → NodeShared) :
    Removes (fun x => {b | ∃ sender, (x, .spentNotify sender b) ∈ sent}) memory
      (D.system.deliverAll memory sent) := by
  induction sent generalizing memory with
  | nil =>
      constructor
      all_goals simp [System.deliverAll]
  | cons message rest ih =>
      obtain ⟨receiver, message⟩ := message
      have later := ih (fun other member => allowed other (List.mem_cons_of_mem _ member))
        (D.system.deliver memory (receiver, message))
      cases message with
      | statusRequest sender =>
          have same : D.system.deliver memory (receiver, .statusRequest sender) = memory := by
            simp [System.deliver]
          have unchanged : D.system.deliverAll memory ((receiver, .statusRequest sender) :: rest) =
              D.system.deliverAll memory rest := by
            rw [System.deliverAll, List.foldl_cons, same, System.deliverAll]
          rw [same] at later
          rw [unchanged]
          apply later.congr
          intro x b
          simp
      | spentNotify sender bearer =>
          have first : Removes (fun x => {b | x = receiver ∧ b ∈ ({bearer} : Finset String)})
              memory (D.system.deliver memory (receiver, .spentNotify sender bearer)) := by
            apply removes_update
            simp [NodeShared.applySpentNotify, Finset.sdiff_singleton_eq_erase]
          apply (first.trans later).congr
          intro x b
          simp [exists_or]
      | _ => exact (allowed _ List.mem_cons_self).elim

/-- A broadcast removes the bearers a peer is to be notified of from its ledger. -/
theorem removes_of_broadcast {i : ι} {after : ι → NodeShared} {reply : AdminReply}
    {selfId : String} {notices : List (String × PeerMessage)} {notified : String → String → Prop}
    (configured : Configured D nodeId)
    (mem_notices : ∀ notice, notice ∈ notices ↔ ∃ id addr b,
      (D.peers i).lookup id = some addr ∧ notified id b ∧
        notice = (addr, .spentNotify selfId b))
    (yields : Yields D memory i (HabiNode.broadcast notices) after reply) :
    reply = .ok ∧ Removes (fun x => {b | x ≠ i ∧ notified (nodeId x) b}) memory after := by
  rw [yields_broadcast] at yields
  · obtain ⟨rfl, rfl⟩ := yields
    refine ⟨rfl, (removes_deliverAll ?_ memory).congr fun x b => ?_⟩
    · rintro ⟨x, message⟩ member
      obtain ⟨addr, isNotice, -⟩ := mem_received.mp member
      obtain ⟨_, _, b, -, -, same⟩ := (mem_notices _).mp isNotice
      obtain rfl := (Prod.mk.inj same).2
      trivial
    · constructor
      · rintro ⟨other, isNotified⟩
        obtain ⟨addr, found, listening⟩ := configured.lookup other
        exact ⟨selfId, mem_received.mpr
          ⟨addr, (mem_notices _).mpr ⟨_, addr, b, found, isNotified, rfl⟩, listening⟩⟩
      · rintro ⟨sender, member⟩
        obtain ⟨addr, isNotice, listening⟩ := mem_received.mp member
        obtain ⟨id, addr', b', found, isNotified, same⟩ := (mem_notices _).mp isNotice
        obtain ⟨rfl, -, rfl⟩ : addr = addr' ∧ sender = selfId ∧ b = b' := by simpa using same
        obtain ⟨other, rfl⟩ := configured.of_listener found listening
        exact ⟨other, isNotified⟩
  · intro notice member
    obtain ⟨id, addr, b, found, -, rfl⟩ := (mem_notices notice).mp member
    obtain ⟨x, -, -, listening⟩ := configured.only_listed i id addr found
    exact Option.isSome_iff_exists.mpr ⟨x, listening⟩

end HabiCore.Deployment
