import HabiCore.Deployment
import HabiCore.EffectHistory

/-!
# The writes of link flags

The two ends of a link are flags of two nodes.  A flag is written by the
sections and the messages that bring a link up or take it down, and by nothing
else.
-/

namespace HabiCore

open LockedProcesses

/-- The link flag that a section writes, with its new value. -/
def CriticalSection.linkWrite : CriticalSection → Option (String × Bool)
  | .applyLinkUpReply (.linkUpAck sender _ _) => some (sender, true)
  | .applyLinkDown peer => some (peer, false)
  | _ => none

def PeerMessage.linkWrite : PeerMessage → Option (String × Bool)
  | .linkUpHello sender _ _ => some (sender, true)
  | .linkDown sender => some (sender, false)
  | _ => none

theorem execute_isLinked (body : CriticalSection) (found : NodeShared) (peer : String) :
    (∃ up, body.linkWrite = some (peer, up) ∧ (body.execute found).isLinked peer = up) ∨
      ((∀ up, body.linkWrite ≠ some (peer, up)) ∧
        (body.execute found).isLinked peer = found.isLinked peer) := by
  cases body with
  | read => exact Or.inr ⟨by simp [CriticalSection.linkWrite], rfl⟩
  | localSpend bearer =>
      refine Or.inr ⟨by simp [CriticalSection.linkWrite], ?_⟩
      rcases found.localSpend_cases bearer with ⟨-, outcome⟩ | ⟨-, outcome⟩ <;>
        simp [CriticalSection.execute, outcome, NodeShared.isLinked]
  | applyLinkUpReply reply =>
      cases reply with
      | linkUpAck sender ledger spent =>
          by_cases same : sender = peer
          · subst same
            exact Or.inl ⟨true, rfl, by simp [CriticalSection.execute, applyLinkUpReply]⟩
          · exact Or.inr ⟨by simp [CriticalSection.linkWrite, same],
              by simp [CriticalSection.execute, applyLinkUpReply, Ne.symm same]⟩
      | _ => exact Or.inr ⟨by simp [CriticalSection.linkWrite], rfl⟩
  | applyPropagateReply reply =>
      cases reply <;> exact Or.inr ⟨by simp [CriticalSection.linkWrite], rfl⟩
  | applyLinkDown other =>
      by_cases same : other = peer
      · subst same
        exact Or.inl ⟨false, rfl, by simp [CriticalSection.execute]⟩
      · exact Or.inr ⟨by simp [CriticalSection.linkWrite, same],
          by simp [CriticalSection.execute, Ne.symm same]⟩
  | burn bearers =>
      exact Or.inr ⟨by simp [CriticalSection.linkWrite],
        by simp [CriticalSection.execute, foldl_applySpentNotify]⟩
  | seed bearer => exact Or.inr ⟨by simp [CriticalSection.linkWrite], rfl⟩

theorem respond_isLinked (found : NodeShared) (msg : PeerMessage) (peer : String) :
    (∃ up, msg.linkWrite = some (peer, up) ∧
        (handlePeerConnection found msg).2.isLinked peer = up) ∨
      ((∀ up, msg.linkWrite ≠ some (peer, up)) ∧
        (handlePeerConnection found msg).2.isLinked peer = found.isLinked peer) := by
  cases msg with
  | linkUpHello sender ledger spent =>
      by_cases same : sender = peer
      · subst same
        exact Or.inl ⟨true, rfl, by simp⟩
      · exact Or.inr ⟨by simp [PeerMessage.linkWrite, same], by simp [Ne.symm same]⟩
  | linkDown sender =>
      by_cases same : sender = peer
      · subst same
        exact Or.inl ⟨false, rfl, by simp⟩
      · exact Or.inr ⟨by simp [PeerMessage.linkWrite, same], by simp [Ne.symm same]⟩
  | propagateRequest sender =>
      exact Or.inr ⟨by simp [PeerMessage.linkWrite],
        by simp [handlePeerConnection_propagateRequest]⟩
  | linkUpAck | propagateReply | spentNotify | statusRequest | statusReply =>
      exact Or.inr ⟨by simp [PeerMessage.linkWrite], by simp⟩

def linkWrite : CriticalSection ⊕ PeerMessage → Option (String × Bool)
  | .inl body => body.linkWrite
  | .inr msg => msg.linkWrite

namespace Deployment

variable {ι : Type} [DecidableEq ι]

/-- The command of an effect that writes the flag of `x` for the peer, with the
value it writes. -/
def flagWrite (x : ι) (peer : String) (effect : MemoryEffect ι CriticalSection PeerMessage) :
    Option (Nat × Bool) :=
  if effect.process = x then
    ((linkWrite effect.cause).filter (·.1 = peer)).map fun write => (effect.thread, write.2)
  else none

def flagWrites (h : History ι CriticalSection PeerMessage) (x : ι) (peer : String) :
    List (Nat × Bool) :=
  h.effects.filterMap (flagWrite x peer)

theorem flagWrite_eq_some {x : ι} {peer : String}
    {effect : MemoryEffect ι CriticalSection PeerMessage} {k : Nat} {up : Bool} :
    flagWrite x peer effect = some (k, up) ↔ effect.thread = k ∧ effect.process = x ∧
      linkWrite effect.cause = some (peer, up) := by
  unfold flagWrite
  split
  · rename_i isOwn
    simp only [Option.map_eq_some_iff, Option.filter_eq_some_iff, decide_eq_true_eq,
      Prod.mk.injEq]
    constructor
    · rintro ⟨⟨peer', up'⟩, ⟨written, rfl⟩, rfl, rfl⟩
      exact ⟨rfl, isOwn, written⟩
    · rintro ⟨rfl, -, written⟩
      exact ⟨(peer, up), ⟨written, rfl⟩, rfl, rfl⟩
  · rename_i other
    simp [other]

theorem mem_flagWrites {h : History ι CriticalSection PeerMessage} {x : ι} {peer : String}
    {k : Nat} {up : Bool} :
    (k, up) ∈ flagWrites h x peer ↔ ∃ effect ∈ h.effects, effect.thread = k ∧
      effect.process = x ∧ linkWrite effect.cause = some (peer, up) := by
  simp only [flagWrites, List.mem_filterMap, flagWrite_eq_some]

def written (h : History ι CriticalSection PeerMessage) (w : World ι) (event : Event ι) (x : ι)
    (peer : String) : Option (Nat × Bool) :=
  (h.effect w event).bind (flagWrite x peer)

variable {D : Deployment ι} {w w' : World ι} {event : Event ι}
  {h : History ι CriticalSection PeerMessage}

theorem flagWrites_record (x : ι) (peer : String) :
    flagWrites (h.record w event) x peer =
      flagWrites h x peer ++ (written h w event x peer).toList := by
  rw [flagWrites, History.record, List.filterMap_append]
  congr 1
  unfold written
  cases h.effect w event with
  | none => rfl
  | some effect => cases outcome : flagWrite x peer effect <;> simp [outcome]

theorem written_eq_none {x y : ι} (distinct : x ≠ y) {peer peer' : String} {write : Nat × Bool}
    (writes : written h w event x peer = some write) : written h w event y peer' = none := by
  obtain ⟨effect, happens, writes⟩ := Option.bind_eq_some_iff.mp writes
  obtain ⟨-, rfl, -⟩ := flagWrite_eq_some.mp writes
  simp [written, happens, flagWrite, distinct]

omit [DecidableEq ι] in
theorem perform_isLinked (D : Deployment ι) (cause : CriticalSection ⊕ PeerMessage)
    (found : NodeShared) (peer : String) :
    (∃ up, linkWrite cause = some (peer, up) ∧
        (D.system.perform cause found).isLinked peer = up) ∨
      ((∀ up, linkWrite cause ≠ some (peer, up)) ∧
        (D.system.perform cause found).isLinked peer = found.isLinked peer) := by
  cases cause with
  | inl body => exact execute_isLinked body found peer
  | inr msg => exact respond_isLinked found msg peer

/-- A step gives a flag the value it writes, or leaves it alone. -/
theorem isLinked_step (counted : h.senders.length = w.inFlight.length)
    (edge : D.system.Step w event w') (lossless : event.Lossless) (x : ι) (peer : String) :
    (w'.memory x).isLinked peer =
      ((written h w event x peer).map Prod.snd).getD ((w.memory x).isLinked peer) := by
  rcases h.memory_step counted edge lossless with ⟨silent, same⟩ | ⟨effect, happens, changed⟩
  · simp [written, silent, same]
  · by_cases isOwn : effect.process = x
    · subst isOwn
      rcases perform_isLinked D effect.cause (w.memory effect.process) peer with
        ⟨up, writes, outcome⟩ | ⟨unwritten, outcome⟩
      · have isWrite : flagWrite effect.process peer effect = some (effect.thread, up) :=
          flagWrite_eq_some.mpr ⟨rfl, rfl, writes⟩
        simp [written, happens, isWrite, changed, outcome]
      · have silent : flagWrite effect.process peer effect = none := by
          rw [Option.eq_none_iff_forall_ne_some]
          rintro ⟨k, up⟩ writes
          exact unwritten up (flagWrite_eq_some.mp writes).2.2
        simp [written, happens, silent, changed, outcome]
    · simp [written, happens, flagWrite, isOwn, changed, Ne.symm isOwn]

end Deployment

end HabiCore
