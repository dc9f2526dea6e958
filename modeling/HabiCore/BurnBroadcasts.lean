import HabiCore.ConversionDayOutcomes
import HabiCore.SequentialCommands

/-!
# Burn broadcasts that fail

The quorum of a Conversion Day guards only the gathering of the snapshots.  Once
it is met, the coordinator burns and replies Ok, whether its peers get the notices
or not.
-/

namespace HabiCore

open LockedProcesses LockedProcesses.Program

namespace HabiNode

variable {mayAnswer : String → PeerMessage → Answer → Prop} {peers : PeerAddrs}
  {order : IterationOrder} {selfId addr : String} {shared left : NodeShared}
  {effects : List NodeEffect} {message : PeerMessage} {reply : AdminReply}

theorem mem_asking {rest : PeerList} {answers : List Answer} {effect : NodeEffect} :
    effect ∈ asking selfId rest answers ↔ ∃ asked ∈ rest.zip answers,
      effect = .asked asked.1.2 (.statusRequest selfId) ∨ effect = .answered asked.2 := by
  simp [asking]

theorem mem_addressed_asking {rest : PeerList} {answers : List Answer} :
    (addr, message) ∈ (asking selfId rest answers).filterMap Effect.addressed →
      (∃ id, ⟨id, addr⟩ ∈ rest) ∧ message = .statusRequest selfId := by
  intro member
  obtain ⟨effect, isAsking, addressed⟩ := List.mem_filterMap.mp member
  obtain ⟨⟨⟨id, addr'⟩, answer⟩, isPeer, rfl | rfl⟩ := mem_asking.mp isAsking
  · obtain ⟨rfl, rfl⟩ : addr' = addr ∧ .statusRequest selfId = message := by
      simpa [Effect.addressed] using addressed
    exact ⟨⟨id, (List.of_mem_zip isPeer).1⟩, rfl⟩
  · cases addressed

theorem mem_addressed_sending {notices : List (String × PeerMessage)}
    {results : List (Except ExchangeFailure Unit)}
    (member : (addr, message) ∈ (sending notices results).filterMap Effect.addressed) :
    (addr, message) ∈ notices := by
  obtain ⟨effect, isSending, addressed⟩ := List.mem_filterMap.mp member
  obtain ⟨⟨notice, result⟩, isNotice, rfl⟩ := List.mem_map.mp isSending
  obtain rfl : notice = (addr, message) := Option.some_inj.mp addressed
  exact (List.of_mem_zip isNotice).1

theorem addressed_conversionDay
    (performs : (conversionDay peers order).Performs CriticalSection.execute mayAnswer shared
      effects left reply) (member : (addr, message) ∈ effects.filterMap Effect.addressed) :
    (∃ id, peers.lookup id = some addr) ∧ (message = .statusRequest shared.node.nodeId ∨
      ∃ b, message = .spentNotify shared.node.nodeId b) := by
  obtain ⟨answers, later, -, rfl, settles⟩ := performs_conversionDay.mp performs
  rw [List.filterMap_append, List.mem_append] at member
  rcases member with asks | sends
  · obtain ⟨⟨id, isPeer⟩, rfl⟩ := mem_addressed_asking asks
    exact ⟨⟨id, AList.mem_lookup_iff.mpr isPeer⟩, Or.inl rfl⟩
  · rcases settled_or_givenUp settles with ⟨-, -, settled⟩ | ⟨-, givenUp⟩
    · obtain ⟨results, -, rfl⟩ := settled.announced
      obtain ⟨id, addr, b, found, -, same⟩ := mem_burnNotices.mp (mem_addressed_sending sends)
      obtain ⟨rfl, rfl⟩ := Prod.mk.inj same
      exact ⟨⟨id, found⟩, Or.inr ⟨b, rfl⟩⟩
    · rw [givenUp.silent] at sends
      cases sends

theorem asked_conversionDay
    (performs : (conversionDay peers order).Performs CriticalSection.execute mayAnswer shared
      effects left reply) (member : .asked addr message ∈ effects) :
    ∃ id, message = .statusRequest id := by
  obtain ⟨answers, later, -, rfl, settles⟩ := performs_conversionDay.mp performs
  rcases List.mem_append.mp member with asks | sends
  · obtain ⟨asked, -, same | same⟩ := mem_asking.mp asks
    · exact ⟨_, (Effect.asked.inj same).2⟩
    · cases same
  · rcases settled_or_givenUp settles with ⟨-, -, settled⟩ | ⟨-, givenUp⟩
    · obtain ⟨results, -, rfl⟩ := settled.announced
      simp [sending] at sends
    · rw [givenUp.silent] at sends
      cases sends

theorem exists_reported {rest : PeerList} {answers : List Answer}
    (complete : rest.length = answers.length) (reached : unreached rest answers = [])
    {peer : Sigma fun _ : String => String} (isPeer : peer ∈ rest) :
    ∃ answer snap, (peer, answer) ∈ rest.zip answers ∧ reported peer.1 answer = some snap := by
  rw [← List.map_fst_zip complete.le] at isPeer
  obtain ⟨⟨peer, answer⟩, asked, rfl⟩ := List.mem_map.mp isPeer
  have isReached := List.filterMap_eq_nil_iff.mp reached _ asked
  cases answered : reported peer.1 answer with
  | none => simp [answered] at isReached
  | some snap => exact ⟨answer, snap, asked, answered⟩

theorem nodup_burnNotices (apart : (peers.entries.map Sigma.snd).Nodup) (selfId : String)
    (burned : Finset String) : (burnNotices peers selfId (order.visit burned)).Nodup := by
  rw [burnNotices, List.nodup_flatMap]
  constructor
  · intro entry _
    refine (order.nodup burned).map fun b b' same => ?_
    simpa using same
  · refine (List.pairwise_map.mp apart).imp fun differ => ?_
    rw [Function.onFun, List.disjoint_left]
    rintro notice first second
    obtain ⟨b, -, rfl⟩ := List.mem_map.mp first
    obtain ⟨b', -, same⟩ := List.mem_map.mp second
    exact differ (Prod.mk.inj same).1.symm

/-- A Conversion Day that replies Ok has gathered all snapshots, and has tried to
send everybody every notice. -/
theorem performs_conversionDay_ok
    (performs : (conversionDay peers order).Performs CriticalSection.execute mayAnswer shared
      effects left .ok) :
    ∃ answers, List.Forall₂ (fun peer answer =>
        mayAnswer peer.2 (.statusRequest shared.node.nodeId) answer) peers.entries answers ∧
      unreached peers.entries answers = [] ∧
      left = shared.setLedger (shared.node.ledger \
        globalSpent (ownSnapshot shared :: gathered peers.entries answers)) ∧
      effects.filterMap Effect.attempt = burnNotices peers shared.node.nodeId
        (order.visit (globalSpent (ownSnapshot shared :: gathered peers.entries answers))) := by
  obtain ⟨answers, later, allowed, rfl, settles⟩ := performs_conversionDay.mp performs
  refine ⟨answers, allowed, ?_⟩
  rcases settled_or_givenUp settles with ⟨reached, -, settled⟩ | ⟨-, givenUp⟩
  · obtain ⟨results, sameLength, rfl⟩ := settled.announced
    refine ⟨reached, settled.burned, ?_⟩
    rw [List.filterMap_append, attempts_asking, List.nil_append]
    exact attempts_sending sameLength
  · obtain ⟨detail, isError⟩ := givenUp.error
    cases isError

end HabiNode

namespace Deployment

open HabiNode

variable {ι : Type} {D : Deployment ι} {nodeId : ι → String} {c x : ι} {order : IterationOrder}
  {addr b : String}

/-- The answers show the spent sets as they are in the memories. -/
def ShowsSpent (D : Deployment ι) (memory : ι → NodeShared) (addr : String) (_ : PeerMessage)
    (answer : Answer) : Prop :=
  ∀ x sender ledger spent, D.listener addr = some x →
    answer = .ok (.statusReply sender ledger spent) → spent.toFinset = (memory x).node.spent

theorem spent_of_statusReply {found : NodeShared} {request : PeerMessage} {sender : String}
    {ledger spent : List String}
    (replies : (handlePeerConnection found request).1 = some (.statusReply sender ledger spent)) :
    spent.toFinset = found.node.spent := by
  cases request with
  | statusRequest asker =>
      obtain ⟨-, -, rfl⟩ : found.node.nodeId = sender ∧ found.ledgerSorted = ledger ∧
          found.spentSorted = spent := by simpa using replies
      exact found.spentSorted_toFinset
  | propagateRequest asker =>
      rw [handlePeerConnection_propagateRequest] at replies
      split at replies <;> simp at replies
  | _ => simp at replies

theorem Configured.nodup_addresses (configured : Configured D nodeId) (c : ι) :
    ((D.peers c).entries.map Sigma.snd).Nodup := by
  refine (D.peers c).nodupKeys.nodup.map_on fun first isFirst second isSecond same => ?_
  obtain ⟨x, named, listening⟩ := configured.only_entry isFirst
  obtain ⟨y, named', listening'⟩ := configured.only_entry isSecond
  rw [same, listening'] at listening
  obtain rfl := Option.some_inj.mp listening
  exact Sigma.ext (named.trans named'.symm) (heq_of_eq same)

theorem mem_globalSpent_gathered (configured : Configured D nodeId) {memory : ι → NodeShared}
    {request : PeerMessage} {answers : List Answer}
    (shown : List.Forall₂ (fun peer answer => ShowsSpent D memory peer.2 request answer)
      (D.peers c).entries answers)
    (reached : unreached (D.peers c).entries answers = []) :
    b ∈ globalSpent (ownSnapshot (memory c) :: gathered (D.peers c).entries answers) ↔
      ∃ y, b ∈ (memory y).node.spent := by
  obtain ⟨complete, shows⟩ := List.forall₂_iff_zip.mp shown
  -- what the snapshot of a peer has as spent
  have genuine : ∀ peer answer snap, (peer, answer) ∈ (D.peers c).entries.zip answers →
      reported peer.1 answer = some snap → ∀ y, D.listener peer.2 = some y →
        snap.spent = (memory y).node.spent := by
    intro peer answer snap asked isSnap y listening
    unfold reported at isSnap
    split at isSnap
    · obtain rfl := Option.some_inj.mp isSnap
      exact shows asked y _ _ _ listening rfl
    · cases isSnap
  rw [mem_globalSpent]
  constructor
  · rintro ⟨snap, member, isSpent⟩
    rcases List.mem_cons.mp member with rfl | others
    · exact ⟨c, isSpent⟩
    · obtain ⟨⟨peer, answer⟩, asked, isSnap⟩ := List.mem_filterMap.mp others
      obtain ⟨y, -, listening⟩ := configured.only_entry (List.of_mem_zip asked).1
      rw [genuine peer answer snap asked isSnap y listening] at isSpent
      exact ⟨y, isSpent⟩
  · rintro ⟨y, isSpent⟩
    by_cases own : y = c
    · subst own
      exact ⟨_, List.mem_cons_self, isSpent⟩
    · obtain ⟨addr, found, listening⟩ := configured.lookup own
      obtain ⟨answer, snap, asked, isSnap⟩ :=
        exists_reported complete reached (AList.mem_lookup_iff.mp found)
      refine ⟨snap, List.mem_cons_of_mem _ (List.mem_filterMap.mpr ⟨_, asked, isSnap⟩), ?_⟩
      rwa [genuine _ answer snap asked isSnap y listening]

theorem outward_conversionDay (configured : Configured D nodeId) (c : ι) (order : IterationOrder)
    (mayAnswer : String → PeerMessage → Answer → Prop) (start : NodeShared) :
    System.Outward D.system mayAnswer c (D.system.handler c ⟨.conversionDay, order⟩) start := by
  rintro effects left reply performs ⟨x, message⟩ ⟨addr, listening, member⟩
  obtain ⟨⟨id, found⟩, -⟩ := addressed_conversionDay performs member
  exact (configured.of_listener found listening).1

section RunsAlone

variable [DecidableEq ι] {w first last : World ι} {trace : List (World ι × Event ι)}
  (configured : Configured D nodeId)
  (alone : System.RunsAlone D.system w c ⟨.conversionDay, order⟩ first trace last)
  (replied : replyOf last w.threads.length = some .ok)
include configured alone replied

theorem handled_of_conversionDay {sent : ι × PeerMessage} (member : sent ∈ handled trace) :
    sent.2 = .statusRequest (w.memory c).node.nodeId ∨
      ∃ b, sent.2 = .spentNotify (w.memory c).node.nodeId b := by
  have outward := outward_conversionDay configured c order AnyAnswer (w.memory c)
  obtain ⟨addr, -, addressed⟩ := alone.handled_contacted outward member
  exact (addressed_conversionDay (alone.performs_any outward replied) addressed).2

theorem removes_handled {earlier : List (ι × PeerMessage)} (some : earlier ⊆ handled trace) :
    Removes (fun x => {b | ∃ sender, (x, .spentNotify sender b) ∈ earlier}) w.memory
      (D.system.deliverAll w.memory earlier) := by
  refine removes_deliverAll (fun sent member => ?_) w.memory
  rcases handled_of_conversionDay configured alone replied (some member) with asks | ⟨b, notifies⟩
  · rw [asks]
    trivial
  · rw [notifies]
    trivial

theorem spent_at {entry : World ι × Event ι} (isIn : entry ∈ trace) (other : x ≠ c) :
    (entry.1.memory x).node.spent = (w.memory x).node.spent := by
  have outward := outward_conversionDay configured c order AnyAnswer (w.memory c)
  obtain ⟨before, after, rfl⟩ := List.append_of_mem isIn
  rw [alone.prefix_of.memory_eq outward other]
  refine (removes_handled configured alone replied fun sent member => ?_).spent x
  rw [handled, List.flatMap_append]
  exact List.mem_append_left _ member

theorem admitted_showsSpent {entry : World ι × Event ι} (isIn : entry ∈ trace) :
    System.Admitted D.system (ShowsSpent D w.memory) w.threads.length entry.1 := by
  have outward := outward_conversionDay configured c order AnyAnswer (w.memory c)
  obtain ⟨past, -, -, sole⟩ := alone.sole_at outward isIn
  intro i command peer message next addr present listening x sender ledger spent listening' answered
  obtain rfl : peer = x := Option.some_inj.mp (listening.symm.trans listening')
  obtain ⟨-, rfl, rfl, -⟩ := sole.thread_eq present rfl
  have other : peer ≠ i := sole.waiting_ne (fun _ _ _ => trivial) outward present
  rw [← spent_at configured alone replied isIn other]
  apply spent_of_statusReply
  unfold System.answerOf at answered
  split at answered
  · rename_i reply responds
    obtain rfl := Except.ok.inj answered
    exact responds
  · cases answered

/-- The coordinator burns what any node has spent, and tries to have its peers do
the same. -/
theorem settles_on_all_spent : ∃ burned : Finset String,
    (∀ b, b ∈ burned ↔ ∃ y, b ∈ (w.memory y).node.spent) ∧
    last.memory c = (w.memory c).setLedger ((w.memory c).node.ledger \ burned) ∧
    (D.system.effects w.threads.length trace).filterMap Effect.attempt =
      burnNotices (D.peers c) (w.memory c).node.nodeId (order.visit burned) := by
  have failing : ∀ address message failure,
      ShowsSpent D w.memory address message (.error failure) := by
    intro address message failure x sender ledger spent _ isReply
    cases isReply
  have present := alone.replied (outward_conversionDay configured c order _ _) replied
  have performs := alone.performs failing (outward_conversionDay configured c order _ _)
    (fun entry isIn => admitted_showsSpent configured alone replied isIn) present
  obtain ⟨answers, shown, reached, burns, attempts⟩ := performs_conversionDay_ok performs
  exact ⟨_, fun b => mem_globalSpent_gathered configured shown reached, burns, attempts⟩

theorem asked_statusRequest {sent : ι × PeerMessage}
    (asked : System.Asked D.system (D.system.effects w.threads.length trace) sent) :
    ∃ id, sent.2 = .statusRequest id := by
  obtain ⟨addr, -, member⟩ := asked
  exact asked_conversionDay
    (alone.performs_any (outward_conversionDay configured c order _ _) replied) member

theorem of_failsToSend {entry : World ι × Event ι} (isIn : entry ∈ trace) {sender : String}
    (fails : D.system.FailsToSend entry.1 entry.2 (x, .spentNotify sender b)) :
    sender = (w.memory c).node.nodeId ∧ x ≠ c ∧ ∃ y, b ∈ (w.memory y).node.spent := by
  have outward := outward_conversionDay configured c order AnyAnswer (w.memory c)
  obtain ⟨past, -, now, sole⟩ := alone.sole_at outward isIn
  obtain ⟨-, addr, result, listening, tries⟩ := System.attempt_of_failsToSend sole fails
  obtain ⟨burned, mem_burned, -, attempts⟩ := settles_on_all_spent configured alone replied
  have attempted : (addr, PeerMessage.spentNotify sender b) ∈
      burnNotices (D.peers c) (w.memory c).node.nodeId (order.visit burned) := by
    rw [← attempts]
    exact List.mem_filterMap.mpr ⟨_, now (List.mem_append_right _ tries), rfl⟩
  obtain ⟨id, addr', b', found, isBurned, same⟩ := mem_burnNotices.mp attempted
  obtain ⟨rfl, rfl, rfl⟩ : addr = addr' ∧ sender = _ ∧ b = b' := by simpa using same
  have other := (configured.of_listener found listening).1
  exact ⟨rfl, other, (mem_burned b).mp ((order.mem_visit _ _).mp isBurned)⟩

/-- A notice reaches its peer in the end, unless it is not sent. -/
theorem handled_notice_iff (kept : ∀ entry ∈ trace, ∀ m, entry.2 ≠ .lost m)
    (landed : last.inFlight = []) (other : x ≠ c) (isSpent : ∃ y, b ∈ (w.memory y).node.spent) :
    (∃ sender, (x, .spentNotify sender b) ∈ handled trace) ↔
      ¬ ∃ entry ∈ trace, ∃ sender,
        D.system.FailsToSend entry.1 entry.2 (x, .spentNotify sender b) := by
  have outward := outward_conversionDay configured c order AnyAnswer (w.memory c)
  obtain ⟨burned, mem_burned, -, attempts⟩ := settles_on_all_spent configured alone replied
  obtain ⟨addr, found, listening⟩ := configured.lookup other
  have isNotice : (addr, PeerMessage.spentNotify (w.memory c).node.nodeId b) ∈
      (D.system.effects w.threads.length trace).filterMap Effect.attempt := by
    rw [attempts]
    exact mem_burnNotices.mpr
      ⟨_, addr, b, found, (order.mem_visit _ _).mpr ((mem_burned b).mpr isSpent), rfl⟩
  have once : ((D.system.effects w.threads.length trace).filterMap Effect.attempt).Nodup := by
    rw [attempts]
    exact nodup_burnNotices (configured.nodup_addresses c) _ burned
  have distinct : ∀ addr', D.listener addr' = some x →
      (addr', PeerMessage.spentNotify (w.memory c).node.nodeId b) ∈
        (D.system.effects w.threads.length trace).filterMap Effect.attempt → addr' = addr := by
    intro addr' listening' attempted
    rw [attempts] at attempted
    obtain ⟨id, _, _, found', -, same⟩ := mem_burnNotices.mp attempted
    obtain ⟨rfl, -⟩ := Prod.mk.inj same
    obtain ⟨-, rfl⟩ := configured.of_listener found' listening'
    exact Option.some_inj.mp (found'.symm.trans found)
  have notAsked : ¬ System.Asked D.system (D.system.effects w.threads.length trace)
      (x, .spentNotify (w.memory c).node.nodeId b) := by
    intro asked
    obtain ⟨id, isRequest⟩ := asked_statusRequest configured alone replied asked
    cases isRequest
  have reaches : (x, PeerMessage.spentNotify (w.memory c).node.nodeId b) ∈ handled trace ↔ _ :=
    alone.handled_iff_sent outward kept landed once listening isNotice distinct notAsked
  constructor
  · rintro ⟨sender, isHandled⟩ ⟨entry, isIn, sender', fails⟩
    obtain ⟨rfl, -⟩ := of_failsToSend configured alone replied isIn fails
    rcases handled_of_conversionDay configured alone replied isHandled with asks | ⟨b', notifies⟩
    · cases asks
    · obtain ⟨rfl, -⟩ := PeerMessage.spentNotify.inj notifies
      exact reaches.mp isHandled ⟨entry, isIn, fails⟩
  · intro sends
    refine ⟨_, reaches.mpr ?_⟩
    rintro ⟨entry, isIn, fails⟩
    exact sends ⟨entry, isIn, _, fails⟩

theorem held_after_settlement_iff (kept : ∀ entry ∈ trace, ∀ m, entry.2 ≠ .lost m)
    (landed : last.inFlight = []) (isSpent : ∃ y, b ∈ (w.memory y).node.spent) :
    b ∈ (last.memory x).node.ledger ↔ b ∈ (w.memory x).node.ledger ∧
      ∃ entry ∈ trace, ∃ sender,
        D.system.FailsToSend entry.1 entry.2 (x, .spentNotify sender b) := by
  by_cases own : x = c
  · subst own
    obtain ⟨burned, mem_burned, burns, -⟩ := settles_on_all_spent configured alone replied
    refine iff_of_false ?_ ?_
    · rw [burns]
      simp [(mem_burned b).mpr isSpent]
    · rintro ⟨-, entry, isIn, sender, fails⟩
      exact (of_failsToSend configured alone replied isIn fails).2.1 rfl
  · have removes := removes_handled configured alone replied (List.Subset.refl _)
    have outward := outward_conversionDay configured c order AnyAnswer (w.memory c)
    rw [alone.memory_eq outward own, ← Finset.mem_coe, removes.ledger, Set.mem_sdiff,
      Finset.mem_coe, Set.mem_ofPred_eq,
      handled_notice_iff configured alone replied kept landed own isSpent, not_not]

theorem spent_after_settlement : (last.memory x).node.spent = (w.memory x).node.spent := by
  by_cases own : x = c
  · subst own
    obtain ⟨burned, -, burns, -⟩ := settles_on_all_spent configured alone replied
    rw [burns]
    rfl
  · have outward := outward_conversionDay configured c order AnyAnswer (w.memory c)
    rw [alone.memory_eq outward own]
    exact (removes_handled configured alone replied (List.Subset.refl _)).spent x

end RunsAlone

def actualSnapshots (D : Deployment ι) (c : ι) (memory : ι → NodeShared) : List PeerSnapshot :=
  ownSnapshot (memory c) :: (D.peers c).entries.filterMap fun peer =>
    (D.listener peer.2).map fun x => ownSnapshot (memory x)

theorem mem_actualSnapshots (configured : Configured D nodeId) {memory : ι → NodeShared}
    {snap : PeerSnapshot} :
    snap ∈ D.actualSnapshots c memory ↔ ∃ x, snap = ownSnapshot (memory x) := by
  rw [actualSnapshots, List.mem_cons, List.mem_filterMap]
  constructor
  · rintro (rfl | ⟨peer, -, isSnap⟩)
    · exact ⟨c, rfl⟩
    · obtain ⟨x, -, rfl⟩ := Option.map_eq_some_iff.mp isSnap
      exact ⟨x, rfl⟩
  · rintro ⟨x, rfl⟩
    by_cases own : x = c
    · exact Or.inl (by rw [own])
    · obtain ⟨addr, found, listening⟩ := configured.lookup own
      exact Or.inr ⟨⟨nodeId x, addr⟩, AList.mem_lookup_iff.mp found, by simp [listening]⟩

theorem check_actualSnapshots (configured : Configured D nodeId) (c : ι)
    (memory : ι → NodeShared) :
    checkPostConversionDaySafety (D.actualSnapshots c memory) = true ↔
      ∀ x y, ∀ b ∈ (memory y).node.spent, b ∉ (memory x).node.ledger := by
  simp only [checkPostConversionDaySafety, List.all_eq_true, mem_actualSnapshots configured]
  constructor
  · intro safe x y b isSpent isHeld
    have found := safe _ ⟨x, rfl⟩
    simp only [Bool.not_eq_true', decide_eq_false_iff_not] at found
    exact found ⟨b, isHeld, mem_globalSpent.mpr
      ⟨_, (mem_actualSnapshots configured).mpr ⟨y, rfl⟩, isSpent⟩⟩
  · rintro unheld _ ⟨x, rfl⟩
    simp only [Bool.not_eq_true', decide_eq_false_iff_not]
    rintro ⟨b, isHeld, isSpent⟩
    obtain ⟨snap, member, inSnap⟩ := mem_globalSpent.mp isSpent
    obtain ⟨y, rfl⟩ := (mem_actualSnapshots configured).mp member
    exact unheld x y b inSnap isHeld

/-- A Conversion Day that has replied Ok has settled at every node if and only if
no notice that it could not send was for a bearer that the peer held. -/
theorem settlement_reaches_all_iff [DecidableEq ι] (D : Deployment ι) (nodeId : ι → String)
    (configured : Configured D nodeId) (c : ι) (order : IterationOrder) (w first last : World ι)
    (trace : List (World ι × Event ι))
    (alone : System.RunsAlone D.system w c ⟨.conversionDay, order⟩ first trace last)
    (kept : ∀ entry ∈ trace, ∀ m, entry.2 ≠ .lost m) (landed : last.inFlight = [])
    (replied : replyOf last w.threads.length = some .ok) :
    (checkPostConversionDaySafety (D.actualSnapshots c last.memory) = true ∧
      ∀ x y, ∀ b ∈ (w.memory y).node.spent, b ∉ (last.memory x).node.ledger) ↔
    ∀ entry ∈ trace, ∀ x sender b,
      D.system.FailsToSend entry.1 entry.2 (x, .spentNotify sender b) →
        b ∉ (w.memory x).node.ledger := by
  have checked : checkPostConversionDaySafety (D.actualSnapshots c last.memory) = true ↔
      ∀ x y, ∀ b ∈ (w.memory y).node.spent, b ∉ (last.memory x).node.ledger := by
    rw [check_actualSnapshots configured]
    simp only [spent_after_settlement configured alone replied]
  rw [checked, and_self]
  constructor
  · intro settled entry isIn x sender b fails isHeld
    obtain ⟨-, -, y, isSpent⟩ := of_failsToSend configured alone replied isIn fails
    refine settled x y b isSpent ?_
    exact (held_after_settlement_iff configured alone replied kept landed ⟨y, isSpent⟩).mpr
      ⟨isHeld, entry, isIn, sender, fails⟩
  · intro harmless x y b isSpent isHeld
    obtain ⟨before, entry, isIn, sender, fails⟩ :=
      (held_after_settlement_iff configured alone replied kept landed ⟨y, isSpent⟩).mp isHeld
    exact harmless entry isIn x sender b fails before

/-- Three nodes: `N2` has spent a bearer that `N3` holds. -/
def spentAndHeld : World (Fin ["N1", "N2", "N3"].length) :=
  idle fun i => NodeShared.mk ⟨["N1", "N2", "N3"].get i,
    if ["N1", "N2", "N3"].get i = "N3" then {"b1"} else ∅,
    if ["N1", "N2", "N3"].get i = "N2" then {"b1"} else ∅⟩ ∅

def settling : World (Fin ["N1", "N2", "N3"].length) :=
  { spentAndHeld with
    threads := [⟨0, AdminMessage.conversionDay.command, .running
      ((cluster ["N1", "N2", "N3"]).system.handler 0 AdminMessage.conversionDay.command)⟩] }

theorem spentAndHeld_settling : (cluster ["N1", "N2", "N3"]).system.Step spentAndHeld
    (.started 0 ⟨.conversionDay, .sorted⟩) settling := rfl

/-- `N2` and `N3` get their notices. -/
theorem settlement_reaches_all_iff_reached :
    ∃ trace last, System.RunsAlone (cluster ["N1", "N2", "N3"]).system spentAndHeld 0
        ⟨.conversionDay, .sorted⟩ settling trace last ∧ replyOf last 0 = some .ok ∧
      checkPostConversionDaySafety
        ((cluster ["N1", "N2", "N3"]).actualSnapshots 0 last.memory) = true := by
  obtain ⟨trace, last, alone, labels, outcome⟩ := System.exists_runsAlone (idle_idle _).quiescent
    spentAndHeld_settling [.thread 0 .locked, .thread 0 .requested, .thread 0 .served,
      .thread 0 .requested, .thread 0 .served, .thread 0 .locked, .thread 0 .persisted,
      .thread 0 .sent, .thread 0 .sent, .thread 0 .replied, .delivered 0, .delivered 0]
    (by decide) (fun last => decide (last.inFlight = [] ∧ replyOf last 0 = some .ok)) (by decide)
  obtain ⟨landed, replied⟩ := of_decide_eq_true outcome
  have isLabel : ∀ entry ∈ trace, entry.2 ∈ trace.map Prod.snd :=
    fun entry isIn => List.mem_map_of_mem isIn
  rw [labels] at isLabel
  have kept : ∀ entry ∈ trace, ∀ m, entry.2 ≠ .lost m := by
    rintro ⟨state, _⟩ isIn m rfl
    simpa using isLabel _ isIn
  refine ⟨trace, last, alone, replied, ((settlement_reaches_all_iff _ _
    (cluster_configured (by decide)) 0 _ _ _ _ _ alone kept landed replied).mpr ?_).1⟩
  rintro ⟨state, _⟩ isIn x sender b ⟨k, failure, -, -, -, -, rfl, -⟩
  simpa using isLabel _ isIn

/-- `N3` becomes unreachable after it has shown its state: the Conversion Day replies
Ok, and `N3` still holds what `N2` has spent. -/
theorem unsettled_after_ok :
    ∃ trace last, System.RunsAlone (cluster ["N1", "N2", "N3"]).system spentAndHeld 0
        ⟨.conversionDay, .sorted⟩ settling trace last ∧
      trace.map Prod.snd = [.thread 0 .locked, .thread 0 .requested, .thread 0 .served,
        .thread 0 .requested, .thread 0 .served, .thread 0 .locked, .thread 0 .persisted,
        .thread 0 .sent, .thread 0 (.failed (.connect "refused") false), .thread 0 .replied,
        .delivered 0] ∧
      last.Quiescent ∧ replyOf last 0 = some .ok ∧
      "b1" ∈ (spentAndHeld.memory 1).node.spent ∧ "b1" ∈ (last.memory 2).node.ledger ∧
      checkPostConversionDaySafety
        ((cluster ["N1", "N2", "N3"]).actualSnapshots 0 last.memory) = false := by
  obtain ⟨trace, last, alone, labels, outcome⟩ := System.exists_runsAlone (idle_idle _).quiescent
    spentAndHeld_settling [.thread 0 .locked, .thread 0 .requested, .thread 0 .served,
      .thread 0 .requested, .thread 0 .served, .thread 0 .locked, .thread 0 .persisted,
      .thread 0 .sent, .thread 0 (.failed (.connect "refused") false), .thread 0 .replied,
      .delivered 0]
    (by decide) (fun last => decide (last.Quiescent ∧ replyOf last 0 = some .ok ∧
      "b1" ∈ (spentAndHeld.memory 1).node.spent ∧ "b1" ∈ (last.memory 2).node.ledger ∧
      checkPostConversionDaySafety
        ((cluster ["N1", "N2", "N3"]).actualSnapshots 0 last.memory) = false)) (by decide)
  exact ⟨trace, last, alone, labels, of_decide_eq_true outcome⟩

end Deployment

end HabiCore
