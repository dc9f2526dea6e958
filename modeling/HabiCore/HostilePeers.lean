import HabiCore.LabelledRuns
import HabiCore.PeerProtocol

/-!
# One node among arbitrary peers

Messages and replies are whatever the peers make up: any variant under any
sender's name, with any lists.  The node filters them against its own spent set,
and nothing but its own spends enters that set.
-/

namespace HabiCore

open LabelledRuns

/-- The calls by which peers and the node's own commands reach its state. -/
inductive NodeCall where
  | incoming (msg : PeerMessage)
  | linkUpReply (reply : PeerMessage)
  | propagateReply (reply : PeerMessage)
  | localSpend (bearer : String)
  deriving DecidableEq

namespace NodeCall

/-- The outcome of a call, but for the reply it writes back, and the state it
leaves behind. -/
def perform (shared : NodeShared) : NodeCall → Except StateError Unit × NodeShared
  | .incoming msg =>
      let outcome := handleIncomingPeerMessage shared msg
      (outcome.1.map fun _ => (), outcome.2)
  | .linkUpReply reply => applyLinkUpReply shared reply
  | .propagateReply reply => applyPropagateReply shared reply
  | .localSpend bearer => shared.localSpend bearer

def spends (shared : NodeShared) : NodeCall → Option String
  | .localSpend bearer => if (shared.localSpend bearer).1.isOk then some bearer else none
  | _ => none

def Step (shared : NodeShared) (call : NodeCall) (left : NodeShared) : Prop :=
  ∃ result, call.perform shared = (result, left)

variable {shared left : NodeShared} {call : NodeCall} {bearer : String}

/-- What a call may write: a merged ledger, deliverable bearers, a revocation,
one spend, or nothing but link flags. -/
theorem perform_cases (shared : NodeShared) (call : NodeCall) :
    (∃ sender peerLedger peerSpent, call.spends shared = none ∧
      (call.perform shared).2 =
        shared.applyLinkUp sender (shared.computeLinkUpMerge peerLedger peerSpent)) ∨
    (∃ peerLedger, call.spends shared = none ∧
      (call.perform shared).2 =
        shared.applyPropagateDeliverable (shared.computePropagateDeliverable peerLedger)) ∨
    (∃ revoked, call.spends shared = none ∧
      (call.perform shared).2 = shared.applySpentNotify revoked) ∨
    (∃ spent ∈ shared.node.ledger, call.spends shared = some spent ∧
      (call.perform shared).2.node.ledger = shared.node.ledger.erase spent ∧
      (call.perform shared).2.node.spent = insert spent shared.node.spent) ∨
    (call.spends shared = none ∧ (call.perform shared).2.node = shared.node) := by
  cases call with
  | incoming msg =>
      cases msg with
      | linkUpHello sender ledger spent =>
          exact Or.inl ⟨sender, ledger.toFinset, spent.toFinset, rfl, rfl⟩
      | spentNotify sender revoked => exact Or.inr (Or.inr (Or.inl ⟨revoked, rfl, rfl⟩))
      | propagateRequest sender =>
          have unchanged : (perform shared (.incoming (.propagateRequest sender))).2 = shared := by
            simp only [perform, handleIncomingPeerMessage]
            split <;> rfl
          exact Or.inr (Or.inr (Or.inr (Or.inr ⟨rfl, by rw [unchanged]⟩)))
      | linkUpAck | linkDown | propagateReply | statusRequest | statusReply =>
          exact Or.inr (Or.inr (Or.inr (Or.inr ⟨rfl, rfl⟩)))
  | linkUpReply reply =>
      cases reply with
      | linkUpAck sender ledger spent =>
          exact Or.inl ⟨sender, ledger.toFinset, spent.toFinset, rfl, rfl⟩
      | _ => exact Or.inr (Or.inr (Or.inr (Or.inr ⟨rfl, rfl⟩)))
  | propagateReply reply =>
      cases reply with
      | propagateReply sender bearers =>
          exact Or.inr (Or.inl ⟨bearers.toFinset, rfl, rfl⟩)
      | _ => exact Or.inr (Or.inr (Or.inr (Or.inr ⟨rfl, rfl⟩)))
  | localSpend bearer =>
      rcases shared.localSpend_cases bearer with ⟨isHeld, outcome⟩ | ⟨-, outcome⟩
      · refine Or.inr (Or.inr (Or.inr (Or.inl ⟨bearer, isHeld, ?_, ?_, ?_⟩)))
        · simp [spends, outcome, Except.isOk, Except.toBool]
        · simp [perform, outcome]
        · simp [perform, outcome]
      · refine Or.inr (Or.inr (Or.inr (Or.inr ⟨?_, ?_⟩)))
        · simp [spends, outcome, Except.isOk, Except.toBool]
        · simp [perform, outcome]

theorem perform_of_error {e : StateError} (refused : (call.perform shared).1 = .error e) :
    (call.perform shared).2 = shared := by
  cases call with
  | incoming msg =>
      cases msg with
      | propagateRequest sender =>
          simp only [perform, handleIncomingPeerMessage]
          split <;> rfl
      | linkUpHello | linkDown | spentNotify | statusRequest =>
          simp [perform, handleIncomingPeerMessage, Except.map] at refused
      | linkUpAck | propagateReply | statusReply => rfl
  | linkUpReply reply =>
      cases reply with
      | linkUpAck sender ledger spent => simp [perform, applyLinkUpReply] at refused
      | _ => rfl
  | propagateReply reply =>
      cases reply with
      | propagateReply sender bearers => simp [perform, applyPropagateReply] at refused
      | _ => rfl
  | localSpend bearer =>
      rcases shared.localSpend_cases bearer with ⟨-, outcome⟩ | ⟨-, outcome⟩
      · simp [perform, outcome] at refused
      · simp [perform, outcome]

theorem perform_spent (shared : NodeShared) (call : NodeCall) :
    (call.perform shared).2.node.spent =
      shared.node.spent ∪ (call.spends shared).toFinset := by
  rcases perform_cases shared call with ⟨sender, peerLedger, peerSpent, noSpend, written⟩ |
    ⟨peerLedger, noSpend, written⟩ | ⟨revoked, noSpend, written⟩ |
    ⟨spent, -, isSpend, -, written⟩ | ⟨noSpend, written⟩
  · simp [written, noSpend]
  · simp [written, noSpend]
  · simp [written, noSpend]
  · rw [written, isSpend]
    ext b
    simp
  · simp [written, noSpend]

theorem mem_ledger_of_spends (isSpend : call.spends shared = some bearer) :
    bearer ∈ shared.node.ledger := by
  rcases perform_cases shared call with ⟨_, _, _, noSpend, -⟩ | ⟨_, noSpend, -⟩ |
    ⟨_, noSpend, -⟩ | ⟨spent, isHeld, isSpend', -, -⟩ | ⟨noSpend, -⟩
  · simp [noSpend] at isSpend
  · simp [noSpend] at isSpend
  · simp [noSpend] at isSpend
  · obtain rfl : spent = bearer := Option.some_inj.mp (isSpend'.symm.trans isSpend)
    exact isHeld
  · simp [noSpend] at isSpend

theorem Step.disjoint (edge : Step shared call left)
    (separate : Disjoint shared.node.ledger shared.node.spent) :
    Disjoint left.node.ledger left.node.spent := by
  obtain ⟨result, performed⟩ := edge
  obtain rfl : (call.perform shared).2 = left := congrArg Prod.snd performed
  rw [Finset.disjoint_left] at separate ⊢
  intro b isHeld isSpent
  rcases perform_cases shared call with ⟨sender, peerLedger, peerSpent, -, written⟩ |
    ⟨peerLedger, -, written⟩ | ⟨revoked, -, written⟩ |
    ⟨spent, -, -, ledgerLeft, spentLeft⟩ | ⟨-, written⟩
  · rw [written] at isHeld isSpent
    have merged : b ∈ shared.computeLinkUpMerge peerLedger peerSpent := isHeld
    rw [NodeShared.computeLinkUpMerge_eq, Finset.mem_sdiff] at merged
    exact merged.2 (Finset.mem_union_left _ isSpent)
  · rw [written] at isHeld isSpent
    have isSpent : b ∈ shared.node.spent := isSpent
    rcases Finset.mem_union.mp isHeld with old | delivered
    · exact separate old isSpent
    · rw [NodeShared.computePropagateDeliverable_eq] at delivered
      simp [isSpent] at delivered
  · rw [written] at isHeld isSpent
    exact separate (Finset.mem_of_mem_erase isHeld) isSpent
  · rw [ledgerLeft] at isHeld
    rw [spentLeft] at isSpent
    rcases Finset.mem_insert.mp isSpent with rfl | old
    · exact Finset.ne_of_mem_erase isHeld rfl
    · exact separate (Finset.mem_of_mem_erase isHeld) old
  · rw [written] at isHeld isSpent
    exact separate isHeld isSpent

/-- The bearers of the successful spends of a trace, in order. -/
def allSpends (trace : List (NodeShared × NodeCall)) : List String :=
  trace.filterMap fun entry => entry.2.spends entry.1

theorem run_spent {first last : NodeShared} {trace : List (NodeShared × NodeCall)}
    (run : Run Step first trace last) :
    last.node.spent = first.node.spent ∪ (allSpends trace).toFinset := by
  induction run with
  | refl => simp [allSpends]
  | @tail trace middle last call run edge ih =>
      obtain ⟨result, performed⟩ := edge
      obtain rfl : (call.perform middle).2 = last := congrArg Prod.snd performed
      rw [perform_spent, ih, allSpends, allSpends, List.filterMap_append, List.toFinset_append,
        Finset.union_assoc]
      congr 2
      cases isSpend : call.spends middle <;> simp [isSpend]

theorem run_disjoint {first last : NodeShared} {trace : List (NodeShared × NodeCall)}
    (run : Run Step first trace last)
    (separate : Disjoint first.node.ledger first.node.spent) :
    Disjoint last.node.ledger last.node.spent :=
  run.invariant (fun shared => Disjoint shared.node.ledger shared.node.spent) separate
    fun _ _ _ _ kept edge => edge.disjoint kept

/-- A spent bearer is not held, so it cannot be spent again. -/
theorem run_allSpends_nodup {first last : NodeShared} {trace : List (NodeShared × NodeCall)}
    (run : Run Step first trace last)
    (separate : Disjoint first.node.ledger first.node.spent) :
    (allSpends trace).Nodup := by
  induction run with
  | refl => simp [allSpends]
  | @tail trace middle last call run edge ih =>
      have middleSeparate := run_disjoint run separate
      have middleSpent := run_spent run
      rw [allSpends, List.filterMap_append, List.nodup_append]
      refine ⟨ih, ?_, ?_⟩
      · cases isSpend : call.spends middle <;> simp [isSpend]
      · intro earlier earlierIn later laterIn same
        subst later
        have isSpend : call.spends middle = some earlier := by simpa using laterIn
        have isHeld := mem_ledger_of_spends isSpend
        have isSpent : earlier ∈ middle.node.spent := by
          rw [middleSpent]
          exact Finset.mem_union_right _ (List.mem_toFinset.mpr earlierIn)
        exact Finset.disjoint_left.mp middleSeparate isHeld isSpent

end NodeCall

open NodeCall

/-- Whatever the peers send, in whatever order with the node's spends: ledger
and spent set stay disjoint in every state, the spent set grows by exactly the
bearers of the successful spends, no bearer is spent twice, and a refused call
changes nothing. -/
theorem bookkeeping_kept {first last : NodeShared} {trace : List (NodeShared × NodeCall)}
    (run : Run Step first trace last)
    (separate : Disjoint first.node.ledger first.node.spent) :
    Disjoint last.node.ledger last.node.spent ∧
      (∀ entry ∈ trace, Disjoint entry.1.node.ledger entry.1.node.spent) ∧
      last.node.spent = first.node.spent ∪ (allSpends trace).toFinset ∧
      (∀ entry ∈ trace, entry.1.node.spent ⊆ (entry.2.perform entry.1).2.node.spent) ∧
      (allSpends trace).Nodup ∧
      ∀ entry ∈ trace, ∀ e, (entry.2.perform entry.1).1 = .error e →
        (entry.2.perform entry.1).2 = entry.1 := by
  refine ⟨run_disjoint run separate, ?_, run_spent run, ?_, run_allSpends_nodup run separate, ?_⟩
  · intro entry member
    obtain ⟨before, after, rfl⟩ := List.mem_iff_append.mp member
    obtain ⟨next, upToHere, -, -⟩ := run.split
    exact run_disjoint upToHere separate
  · intro entry _
    rw [perform_spent]
    exact Finset.subset_union_left
  · intro entry _ e refused
    exact perform_of_error refused

def replay : List NodeCall :=
  [.incoming (.linkUpHello "N2" ["b1", "b1"] []), .localSpend "b1",
    .linkUpReply (.linkUpAck "N2" ["b1"] []), .propagateReply (.propagateReply "N3" ["b1"]),
    .localSpend "b1"]

def afterReplay (calls : Nat) : NodeShared :=
  (replay.take calls).foldl (fun shared call => (call.perform shared).2) (.new "N1")

/-- A peer that offers a spent bearer again does not get it spent again. -/
theorem bookkeeping_kept_on_replay :
    ∃ first trace last, Run Step first trace last ∧
      trace.map Prod.snd = [.incoming (.linkUpHello "N2" ["b1", "b1"] []), .localSpend "b1",
        .linkUpReply (.linkUpAck "N2" ["b1"] []), .propagateReply (.propagateReply "N3" ["b1"]),
        .localSpend "b1"] ∧
      allSpends trace = ["b1"] ∧ (allSpends trace).Nodup ∧
      Disjoint last.node.ledger last.node.spent := by
  have offered : Step (afterReplay 0) (.incoming (.linkUpHello "N2" ["b1", "b1"] []))
      (afterReplay 1) := ⟨_, rfl⟩
  have spends : Step (afterReplay 1) (.localSpend "b1") (afterReplay 2) := ⟨_, rfl⟩
  have acked : Step (afterReplay 2) (.linkUpReply (.linkUpAck "N2" ["b1"] [])) (afterReplay 3) :=
    ⟨_, rfl⟩
  have propagated : Step (afterReplay 3) (.propagateReply (.propagateReply "N3" ["b1"]))
      (afterReplay 4) := ⟨_, rfl⟩
  have refused : Step (afterReplay 4) (.localSpend "b1") (afterReplay 5) := ⟨_, rfl⟩
  have run := ((((Run.refl.tail offered).tail spends).tail acked).tail propagated).tail refused
  have kept := bookkeeping_kept run (by simp [afterReplay, NodeShared.new, Node.new])
  exact ⟨_, _, _, run, rfl, by decide, kept.2.2.2.2.1, kept.1⟩

end HabiCore
