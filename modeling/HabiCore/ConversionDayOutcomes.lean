import HabiCore.Deployment
import HabiCore.SoleThreads

/-!
# The outcomes of Conversion Day

The coordinator asks its peers one after the other, whatever they answer, and
then settles or gives up.  What it does is described here for every pattern of
answers, as the program of one node in an open environment.
-/

namespace HabiCore.HabiNode

open LockedProcesses LockedProcesses.Program

abbrev Answer := Except ExchangeFailure PeerMessage

abbrev NodeEffect := Effect String PeerMessage ExchangeFailure

/-- The peers with their addresses, in the order in which they are asked. -/
abbrev PeerList := List (Sigma fun _ : String => String)

/-- The snapshot of a peer, if its answer is a `StatusReply`. -/
def reported (peerId : String) : Answer → Option PeerSnapshot
  | .ok (.statusReply _ ledger spent) => some ⟨peerId, ledger.toFinset, spent.toFinset⟩
  | _ => none

/-- The snapshots of the peers that have answered with one. -/
def gathered (peers : PeerList) (answers : List Answer) : List PeerSnapshot :=
  (peers.zip answers).filterMap fun asked => reported asked.1.1 asked.2

def unreached (peers : PeerList) (answers : List Answer) : List String :=
  (peers.zip answers).filterMap fun asked =>
    if (reported asked.1.1 asked.2).isNone then some asked.1.1 else none

def asking (selfId : String) (peers : PeerList) (answers : List Answer) : List NodeEffect :=
  (peers.zip answers).flatMap fun asked =>
    [.asked asked.1.2 (.statusRequest selfId), .answered asked.2]

def sending (notices : List (String × PeerMessage)) (results : List (Except ExchangeFailure Unit)) :
    List NodeEffect :=
  (notices.zip results).map fun attempted =>
    .sent attempted.1.1 attempted.1.2 attempted.2

variable {mayAnswer : String → PeerMessage → Answer → Prop} {peers : PeerAddrs}
  {order : IterationOrder} {selfId : String} {found left shared : NodeShared}
  {effects : List NodeEffect} {reply : AdminReply}

theorem gathered_cons (peer : Sigma fun _ : String => String) (rest : PeerList) (answer : Answer)
    (answers : List Answer) : gathered (peer :: rest) (answer :: answers) =
      (reported peer.1 answer).toList ++ gathered rest answers := by
  cases answers : reported peer.1 answer <;> simp [gathered, answers]

theorem unreached_cons (peer : Sigma fun _ : String => String) (rest : PeerList) (answer : Answer)
    (answers : List Answer) : unreached (peer :: rest) (answer :: answers) =
      (if (reported peer.1 answer).isNone then [peer.1] else []) ++ unreached rest answers := by
  cases answers : reported peer.1 answer <;> simp [unreached, answers]

theorem performs_broadcast {notices : List (String × PeerMessage)} :
    (broadcast notices).Performs CriticalSection.execute mayAnswer found effects left reply ↔
      (∃ results, results.length = notices.length ∧ effects = sending notices results) ∧
        left = found ∧ reply = .ok := by
  induction notices generalizing effects with
  | nil =>
      rw [broadcast, performs_done]
      constructor
      · rintro ⟨rfl, rfl, rfl⟩
        exact ⟨⟨[], rfl, rfl⟩, rfl, rfl⟩
      · rintro ⟨⟨results, -, rfl⟩, rfl, rfl⟩
        exact ⟨rfl, rfl, rfl⟩
  | cons notice rest ih =>
      rw [broadcast, sendToPeerNoReply, performs_send]
      constructor
      · rintro ⟨result, later, rfl, performs⟩
        obtain ⟨⟨results, sameLength, rfl⟩, unchanged⟩ := ih.mp performs
        exact ⟨⟨result :: results, by simp [sameLength], rfl⟩, unchanged⟩
      · rintro ⟨⟨results, sameLength, rfl⟩, unchanged⟩
        cases results with
        | nil => simp at sameLength
        | cons result results =>
            have later := ih.mpr ⟨⟨results, by simpa using sameLength, rfl⟩, unchanged⟩
            exact ⟨result, sending rest results, rfl, later⟩

theorem performs_gather_cons {peer : Sigma fun _ : String => String} {rest : PeerList}
    {snapshots : List PeerSnapshot} {unreachable : List String} :
    (gather peers order selfId (peer :: rest) snapshots unreachable).Performs
        CriticalSection.execute mayAnswer found effects left reply ↔
      ∃ answer later, mayAnswer peer.2 (.statusRequest selfId) answer ∧
        effects = .asked peer.2 (.statusRequest selfId) :: .answered answer :: later ∧
        (gather peers order selfId rest (snapshots ++ (reported peer.1 answer).toList)
          (unreachable ++ if (reported peer.1 answer).isNone then [peer.1] else [])).Performs
            CriticalSection.execute mayAnswer found later left reply := by
  rw [gather, exchangeWithPeer, performs_exchange]
  refine exists_congr fun answer => exists_congr fun later => and_congr_right fun _ =>
    and_congr_right fun _ => ?_
  cases answer with
  | error failure => simp [reported, Except.mapError]
  | ok message => cases message <;> simp [reported, Except.mapError]

theorem performs_gather {rest : PeerList} {snapshots : List PeerSnapshot}
    {unreachable : List String} :
    (gather peers order selfId rest snapshots unreachable).Performs CriticalSection.execute
        mayAnswer found effects left reply ↔
      ∃ answers later, List.Forall₂ (fun peer answer =>
          mayAnswer peer.2 (.statusRequest selfId) answer) rest answers ∧
        effects = asking selfId rest answers ++ later ∧
        (settle peers order selfId (snapshots ++ gathered rest answers)
          (unreachable ++ unreached rest answers)).Performs CriticalSection.execute mayAnswer
            found later left reply := by
  induction rest generalizing snapshots unreachable effects with
  | nil =>
      constructor
      · intro performs
        refine ⟨[], effects, .nil, rfl, ?_⟩
        simpa [gather, gathered, unreached] using performs
      · rintro ⟨answers, later, allowed, rfl, performs⟩
        cases allowed
        simpa [gather, gathered, unreached, asking] using performs
  | cons peer rest ih =>
      rw [performs_gather_cons]
      constructor
      · rintro ⟨answer, afterwards, isAllowed, rfl, performs⟩
        obtain ⟨answers, later, allowed, rfl, settles⟩ := ih.mp performs
        refine ⟨answer :: answers, later, .cons isAllowed allowed, rfl, ?_⟩
        rwa [gathered_cons, unreached_cons, ← List.append_assoc, ← List.append_assoc]
      · rintro ⟨answers, later, allowed, rfl, settles⟩
        cases allowed with
        | cons isAllowed allowed =>
            rename_i answer answers
            rw [gathered_cons, unreached_cons, ← List.append_assoc, ← List.append_assoc] at settles
            exact ⟨answer, _, isAllowed, rfl, ih.mpr ⟨answers, later, allowed, rfl, settles⟩⟩

/-- The coordinator has burned, saved and announced what the snapshots show as
spent. -/
structure Settled (peers : PeerAddrs) (order : IterationOrder) (selfId : String)
    (snapshots : List PeerSnapshot) (found : NodeShared) (effects : List NodeEffect)
    (left : NodeShared) (reply : AdminReply) : Prop where
  ok : reply = .ok
  burned : left = found.setLedger (found.node.ledger \ globalSpent snapshots)
  announced : ∃ results : List (Except ExchangeFailure Unit),
    results.length = (burnNotices peers selfId (order.visit (globalSpent snapshots))).length ∧
    effects = .persisted ::
      sending (burnNotices peers selfId (order.visit (globalSpent snapshots))) results

/-- The coordinator has done nothing and says so. -/
structure GivenUp (found : NodeShared) (effects : List NodeEffect) (left : NodeShared)
    (reply : AdminReply) : Prop where
  error : ∃ detail, reply = .error detail
  unchanged : left = found
  silent : effects = []

theorem settled_or_givenUp {snapshots : List PeerSnapshot} {unreachable : List String}
    (performs : (settle peers order selfId snapshots unreachable).Performs CriticalSection.execute
      mayAnswer found effects left reply) :
    (unreachable = [] ∧ Unanimous snapshots ∧
      Settled peers order selfId snapshots found effects left reply) ∨
    (¬ (unreachable = [] ∧ Unanimous snapshots) ∧ GivenUp found effects left reply) := by
  unfold settle at performs
  by_cases reachable : unreachable = []
  · rw [if_neg (not_not.mpr reachable)] at performs
    cases outcome : computeConversionDay snapshots with
    | error conflict =>
        simp only [outcome] at performs
        obtain ⟨rfl, rfl, rfl⟩ := performs_done.mp performs
        refine Or.inr ⟨fun quiet => ?_, ⟨_, rfl⟩, rfl, rfl⟩
        have burns : computeConversionDay snapshots = .ok (globalSpent snapshots) :=
          computeConversionDay_eq_ok_iff.mpr ⟨quiet.2, fun b => mem_globalSpent⟩
        rw [outcome] at burns
        cases burns
    | ok burnSet =>
        simp only [outcome] at performs
        obtain ⟨unanimous, burns⟩ := computeConversionDay_eq_ok_iff.mp outcome
        obtain rfl : burnSet = globalSpent snapshots := by
          ext b
          rw [burns, mem_globalSpent]
        rw [performs_locked, performs_persist] at performs
        obtain ⟨later, rfl, performs⟩ := performs
        obtain ⟨⟨results, sameLength, rfl⟩, rfl, rfl⟩ := performs_broadcast.mp performs
        refine Or.inl ⟨reachable, unanimous, rfl, ?_, results, sameLength, rfl⟩
        have visited : (order.visit (globalSpent snapshots)).toFinset = globalSpent snapshots := by
          ext b
          rw [List.mem_toFinset, order.mem_visit]
        rw [CriticalSection.execute, foldl_applySpentNotify, visited]
  · rw [if_pos reachable] at performs
    obtain ⟨rfl, rfl, rfl⟩ := performs_done.mp performs
    exact Or.inr ⟨fun quiet => reachable quiet.1, ⟨_, rfl⟩, rfl, rfl⟩

def ownSnapshot (shared : NodeShared) : PeerSnapshot :=
  ⟨shared.node.nodeId, shared.node.ledger, shared.node.spent⟩

theorem performs_conversionDay :
    (conversionDay peers order).Performs CriticalSection.execute mayAnswer shared effects left
        reply ↔
      ∃ answers later, List.Forall₂ (fun peer answer =>
          mayAnswer peer.2 (.statusRequest shared.node.nodeId) answer) peers.entries answers ∧
        effects = asking shared.node.nodeId peers.entries answers ++ later ∧
        (settle peers order shared.node.nodeId
          (ownSnapshot shared :: gathered peers.entries answers)
          (unreached peers.entries answers)).Performs CriticalSection.execute mayAnswer
            shared later left reply := by
  rw [conversionDay, performs_locked]
  exact performs_gather

theorem reported_eq_none {peerId : String} {answer : Answer} :
    reported peerId answer = none ↔
      ∀ sender ledger spent, answer ≠ .ok (.statusReply sender ledger spent) := by
  cases answer with
  | error failure => simp [reported]
  | ok message => cases message <;> simp [reported]

theorem unreached_eq_nil {rest : PeerList} {answers : List Answer}
    (complete : answers.length = rest.length) : unreached rest answers = [] ↔
      ¬ ∃ answer ∈ answers, ∀ sender ledger spent,
        answer ≠ .ok (.statusReply sender ledger spent) := by
  induction rest generalizing answers with
  | nil =>
      obtain rfl := List.length_eq_zero_iff.mp complete
      simp [unreached]
  | cons peer rest ih =>
      cases answers with
      | nil => simp at complete
      | cons answer answers =>
          rw [unreached_cons, List.append_eq_nil_iff, ih (by simpa using complete)]
          simp only [List.mem_cons, exists_eq_or_imp, not_or, ← @reported_eq_none peer.1]
          cases reported peer.1 answer <;> simp

theorem unanimous_iff_pairwise {snapshots : List PeerSnapshot}
    (distinct : (snapshots.map PeerSnapshot.nodeId).Nodup) : Unanimous snapshots ↔
      snapshots.Pairwise fun first second => Disjoint first.spent second.spent := by
  constructor
  · intro unanimous
    refine (List.pairwise_map.mp distinct).imp_of_mem fun firstIn secondIn differ => ?_
    rw [Finset.disjoint_left]
    exact fun b inFirst inSecond => differ (unanimous _ firstIn _ secondIn b inFirst inSecond)
  · intro apart first firstIn second secondIn b inFirst inSecond
    by_contra differ
    have symmetric : Std.Symm fun first second : PeerSnapshot =>
        Disjoint first.spent second.spent := ⟨fun _ _ disjoint => disjoint.symm⟩
    have disjoint := apart.forall firstIn secondIn fun same => differ (by rw [same])
    exact Finset.disjoint_left.mp disjoint inFirst inSecond

theorem nodeIds_gathered (rest : PeerList) (answers : List Answer) :
    ((gathered rest answers).map PeerSnapshot.nodeId).Sublist (rest.map Sigma.fst) := by
  induction rest generalizing answers with
  | nil => simp [gathered]
  | cons peer rest ih =>
      cases answers with
      | nil => simp [gathered]
      | cons answer answers =>
          rw [gathered_cons, List.map_append, List.map_cons]
          cases answered : reported peer.1 answer with
          | none => exact (ih answers).cons _
          | some snap =>
              have named : snap.nodeId = peer.1 := by
                unfold reported at answered
                split at answered
                · obtain rfl := Option.some_inj.mp answered
                  rfl
                · cases answered
              rw [← named]
              exact (ih answers).cons_cons _

theorem nodup_snapshots (foreign : shared.node.nodeId ∉ peers) (answers : List Answer) :
    ((ownSnapshot shared :: gathered peers.entries answers).map PeerSnapshot.nodeId).Nodup := by
  rw [List.map_cons, List.nodup_cons]
  refine ⟨fun member => foreign ?_, ?_⟩
  · exact AList.mem_keys.mpr ((nodeIds_gathered _ answers).subset member)
  · exact peers.keys_nodup.sublist (nodeIds_gathered _ answers)

theorem answers_asking {rest : PeerList} {answers : List Answer}
    (complete : answers.length = rest.length) :
    (asking selfId rest answers).filterMap Effect.answer = answers := by
  induction rest generalizing answers with
  | nil =>
      obtain rfl := List.length_eq_zero_iff.mp complete
      rfl
  | cons peer rest ih =>
      cases answers with
      | nil => simp at complete
      | cons answer answers =>
          change answer :: (asking selfId rest answers).filterMap Effect.answer = _
          rw [ih (by simpa using complete)]

theorem attempts_asking (rest : PeerList) (answers : List Answer) :
    (asking selfId rest answers).filterMap Effect.attempt = [] := by
  simp [asking, List.filterMap_flatMap, Effect.attempt]

theorem attempts_sending {notices : List (String × PeerMessage)}
    {results : List (Except ExchangeFailure Unit)} (sameLength : results.length = notices.length) :
    (sending notices results).filterMap Effect.attempt = notices := by
  induction notices generalizing results with
  | nil =>
      obtain rfl := List.length_eq_zero_iff.mp sameLength
      rfl
  | cons notice rest ih =>
      cases results with
      | nil => simp at sameLength
      | cons result results =>
          change notice :: (sending rest results).filterMap Effect.attempt = _
          rw [ih (by simpa using sameLength)]

theorem answers_sending (notices : List (String × PeerMessage))
    (results : List (Except ExchangeFailure Unit)) :
    (sending notices results).filterMap Effect.answer = [] := by
  simp [sending, Effect.answer]

theorem answers_settle {snapshots : List PeerSnapshot} {unreachable : List String}
    (performs : (settle peers order selfId snapshots unreachable).Performs CriticalSection.execute
      mayAnswer found effects left reply) : effects.filterMap Effect.answer = [] := by
  rcases settled_or_givenUp performs with ⟨-, -, settled⟩ | ⟨-, givenUp⟩
  · obtain ⟨results, -, rfl⟩ := settled.announced
    exact answers_sending _ results
  · rw [givenUp.silent]
    rfl

theorem burnNotices_perm (selfId : String) (burned : Finset String) :
    (burnNotices peers selfId (order.visit burned)).Perm
      ((peers.entries ×ˢ sorted burned).map fun pair =>
        (pair.1.2, .spentNotify selfId pair.2)) := by
  have sameBearers : (order.visit burned).Perm (sorted burned) := by
    rw [List.perm_ext_iff_of_nodup (order.nodup burned) (nodup_sorted burned)]
    intro b
    rw [order.mem_visit, mem_sorted]
  change (burnNotices peers selfId (order.visit burned)).Perm
    ((List.product peers.entries (sorted burned)).map _)
  rw [List.product, List.map_flatMap, burnNotices]
  apply List.Perm.flatMap_left
  intro entry _
  rw [List.map_map]
  exact sameBearers.map _

/-- Whatever the peers answer, the coordinator settles if all of them answer with
their status and no bearer is in two spent sets, and otherwise it does nothing. -/
theorem conversionDay_all_or_nothing (shared : NodeShared) (peers : PeerAddrs)
    (order : IterationOrder) (foreign : shared.node.nodeId ∉ peers) (answers : List Answer)
    (complete : answers.length = peers.entries.length) :
    let snapshots := ownSnapshot shared :: gathered peers.entries answers
    let conflict := ¬ snapshots.Pairwise fun first second => Disjoint first.spent second.spent
    let missing := ∃ answer ∈ answers, ∀ sender ledger spent,
      answer ≠ .ok (.statusReply sender ledger spent)
    (∃ effects left reply, (conversionDay peers order).Performs CriticalSection.execute AnyAnswer
        shared effects left reply ∧ effects.filterMap Effect.answer = answers) ∧
    ∀ effects left reply, (conversionDay peers order).Performs CriticalSection.execute AnyAnswer
        shared effects left reply → effects.filterMap Effect.answer = answers →
      ((∃ detail, reply = .error detail) ↔ missing ∨ conflict) ∧
      ((∃ detail, reply = .error detail) → left = shared ∧ Effect.persisted ∉ effects ∧
        effects.filterMap Effect.attempt = []) ∧
      ((¬ ∃ detail, reply = .error detail) → reply = .ok ∧
        left = shared.setLedger (shared.node.ledger \ globalSpent snapshots) ∧
        (effects.filterMap Effect.attempt).Perm
          ((peers.entries ×ˢ sorted (globalSpent snapshots)).map fun pair =>
            (pair.1.2, .spentNotify shared.node.nodeId pair.2))) := by
  intro snapshots conflict missing
  have quiet : (unreached peers.entries answers = [] ∧ Unanimous snapshots) ↔
      ¬ (missing ∨ conflict) := by
    rw [unreached_eq_nil complete, unanimous_iff_pairwise (nodup_snapshots foreign answers),
      not_or, not_not]
  constructor
  · -- the environment that answers in this way
    have settles : ∃ later left reply, (settle peers order shared.node.nodeId snapshots
        (unreached peers.entries answers)).Performs CriticalSection.execute AnyAnswer shared later
          left reply :=
      exists_performs (fun _ _ => ⟨.error .closed, trivial⟩) ⟨.ok ()⟩ _ _
    obtain ⟨later, left, reply, performs⟩ := settles
    have allowed : List.Forall₂ (fun peer answer => AnyAnswer peer.2
        (PeerMessage.statusRequest shared.node.nodeId) (answer : Answer)) peers.entries answers :=
      List.forall₂_iff_zip.mpr ⟨complete.symm, fun _ => trivial⟩
    refine ⟨_, left, reply, performs_conversionDay.mpr ⟨answers, later, allowed, rfl, performs⟩, ?_⟩
    rw [List.filterMap_append, answers_asking complete, answers_settle performs, List.append_nil]
  · intro effects left reply performs answered
    obtain ⟨answers', later, allowed, rfl, settles⟩ := performs_conversionDay.mp performs
    rw [List.filterMap_append, answers_asking allowed.length_eq.symm, answers_settle settles,
      List.append_nil] at answered
    subst answered
    rcases settled_or_givenUp settles with ⟨reachable, unanimous, settled⟩ | ⟨loud, givenUp⟩
    · have noError : ¬ ∃ detail, reply = .error detail := by simp [settled.ok]
      refine ⟨iff_of_false noError (quiet.mp ⟨reachable, unanimous⟩), fun isError =>
        (noError isError).elim, fun _ => ⟨settled.ok, settled.burned, ?_⟩⟩
      obtain ⟨results, sameLength, rfl⟩ := settled.announced
      rw [List.filterMap_append, attempts_asking, List.nil_append]
      change ((sending _ results).filterMap Effect.attempt).Perm _
      rw [attempts_sending sameLength]
      exact burnNotices_perm _ _
    · refine ⟨iff_of_true givenUp.error (not_not.mp fun calm => loud (quiet.mpr calm)),
        fun _ => ⟨givenUp.unchanged, ?_, ?_⟩, fun noError => (noError givenUp.error).elim⟩
      · simp [givenUp.silent, asking]
      · rw [givenUp.silent, List.append_nil, attempts_asking]

/-- A coordinator with one peer, which has spent a bearer that both hold. -/
theorem conversionDay_all_or_nothing_onePeer :
    ∃ effects left reply, (conversionDay [⟨"N2", "host-N2"⟩].toAList .sorted).Performs
      CriticalSection.execute AnyAnswer ⟨⟨"N1", {"b1", "b2"}, ∅⟩, ∅⟩ effects left reply ∧
      effects.filterMap Effect.answer = [.ok (.statusReply "N2" [] ["b1"])] ∧
      reply = .ok ∧ left.node.ledger = {"b2"} := by
  have outcomes := conversionDay_all_or_nothing ⟨⟨"N1", {"b1", "b2"}, ∅⟩, ∅⟩
    [⟨"N2", "host-N2"⟩].toAList .sorted (by decide) [.ok (.statusReply "N2" [] ["b1"])] rfl
  obtain ⟨⟨effects, left, reply, performs, answered⟩, described⟩ := outcomes
  obtain ⟨failsIff, -, settles⟩ := described effects left reply performs answered
  have calm : ¬ ∃ detail, reply = .error detail := by
    rw [failsIff, not_or, not_not]
    exact ⟨by simp, by decide⟩
  obtain ⟨replied, burned, -⟩ := settles calm
  refine ⟨effects, left, reply, performs, answered, replied, ?_⟩
  rw [burned]
  decide

end HabiCore.HabiNode
