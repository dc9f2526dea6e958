import HabiCore.Deployment

/-!
# Conservation of bearers

Whatever the order of steps and whatever messages are lost, the bearers of a
deployment are those it started with and those that have been seeded.  Messages
and half-finished commands only carry bearers that exist, and only report
spends that have happened.
-/

namespace HabiCore.Deployment

open LockedProcesses LabelledRuns

variable {ι : Type}

/-- The bearers in some ledger or some spent set. -/
def existing (memory : ι → NodeShared) : Set String :=
  {b | ∃ i, b ∈ (memory i).node.ledger ∨ b ∈ (memory i).node.spent}

/-- What is known of the bearers: those that exist and those that are spent. -/
structure Facts where
  existing : Set String
  spent : Set String

instance : Preorder Facts where
  le k k' := k.existing ⊆ k'.existing ∧ k.spent ⊆ k'.spent
  le_refl _ := ⟨subset_rfl, subset_rfl⟩
  le_trans _ _ _ first second := ⟨first.1.trans second.1, first.2.trans second.2⟩

def facts (memory : ι → NodeShared) : Facts where
  existing := existing memory
  spent := spentSomewhere memory

/-- A message names existing bearers and reports spends that have happened. -/
def Genuine (k : Facts) : PeerMessage → Prop
  | .linkUpHello _ ledger spent | .linkUpAck _ ledger spent | .statusReply _ ledger spent =>
      (∀ b ∈ ledger, b ∈ k.existing) ∧ ∀ b ∈ spent, b ∈ k.spent
  | .propagateReply _ bearers => ∀ b ∈ bearers, b ∈ k.existing
  | .spentNotify _ bearer => bearer ∈ k.spent
  | .linkDown _ | .propagateRequest _ | .statusRequest _ => True

/-- A section applies genuine replies and burns spent bearers. -/
def GenuineSection (k : Facts) : CriticalSection → Prop
  | .applyLinkUpReply reply | .applyPropagateReply reply => Genuine k reply
  | .burn bearers => ∀ b ∈ bearers, b ∈ k.spent
  | .read | .localSpend _ | .applyLinkDown _ | .seed _ => True

/-- After a spend of a bearer that was held, the bearer is spent. -/
def Learned (k : Facts) : CriticalSection → NodeShared → Prop
  | .localSpend bearer, found => bearer ∈ found.node.ledger → bearer ∈ k.spent
  | _, _ => True

def CriticalSection.created : CriticalSection → Finset String
  | .seed bearer => {bearer}
  | _ => ∅

theorem Genuine.mono {k k' : Facts} {message : PeerMessage} (more : k ≤ k')
    (genuine : Genuine k message) : Genuine k' message := by
  cases message with
  | linkUpHello | linkUpAck | statusReply =>
      exact ⟨fun b member => more.1 (genuine.1 b member),
        fun b member => more.2 (genuine.2 b member)⟩
  | propagateReply => exact fun b member => more.1 (genuine b member)
  | spentNotify => exact more.2 genuine
  | linkDown | propagateRequest | statusRequest => trivial

theorem GenuineSection.mono {k k' : Facts} {body : CriticalSection} (more : k ≤ k')
    (genuine : GenuineSection k body) : GenuineSection k' body := by
  cases body with
  | applyLinkUpReply | applyPropagateReply => exact Genuine.mono more genuine
  | burn => exact fun b member => more.2 (genuine b member)
  | read | localSpend | applyLinkDown | seed => trivial

def conservation (ι : Type) : NodeContract Facts ι where
  memory k _ found :=
    (∀ b ∈ found.node.ledger, b ∈ k.existing) ∧ ∀ b ∈ found.node.spent, b ∈ k.spent
  message := Genuine
  request k _ _ := Genuine k
  answer k _ reply := Genuine k reply
  body k _ _ := GenuineSection k
  learned k _ := Learned k
  owed _ _ _ _ _ := False
  reply _ _ _ _ := True
  memory_mono more admits :=
    ⟨fun b member => more.1 (admits.1 b member), fun b member => more.2 (admits.2 b member)⟩
  message_mono := Genuine.mono
  request_mono := Genuine.mono
  body_mono := GenuineSection.mono
  reply_mono _ _ := trivial

/-- A change of one node's memory that loses only spent bearers and gains only
existing ones, but for those it creates. -/
structure Conserves (k : Facts) (created : Finset String) (found left : NodeShared) : Prop where
  kept : ∀ b ∈ found.node.ledger, b ∈ left.node.ledger ∨ b ∈ left.node.spent ∨ b ∈ k.spent
  spent_kept : found.node.spent ⊆ left.node.spent
  held : ∀ b ∈ left.node.ledger, b ∈ k.existing ∨ b ∈ created
  spent_held : ∀ b ∈ left.node.spent, b ∈ found.node.spent ∨ b ∈ found.node.ledger
  created_held : created ⊆ left.node.ledger

variable {k : Facts} {found left : NodeShared} {i : ι}

theorem conserves_of_node_eq (admits : (conservation ι).memory k i found)
    (same : left.node = found.node) : Conserves k ∅ found left where
  kept b member := Or.inl (same ▸ member)
  spent_kept := by rw [same]
  held b member := Or.inl (admits.1 b (same ▸ member))
  spent_held b member := Or.inl (same ▸ member)
  created_held := Finset.empty_subset _

theorem conserves_linkUp {peer : String} {ledger spent : List String}
    (admits : (conservation ι).memory k i found)
    (genuine : (∀ b ∈ ledger, b ∈ k.existing) ∧ ∀ b ∈ spent, b ∈ k.spent) :
    Conserves k ∅ found (found.applyLinkUp peer
      (found.computeLinkUpMerge ledger.toFinset spent.toFinset)) where
  kept b member := by
    by_cases own : b ∈ found.node.spent
    · exact Or.inr (Or.inl own)
    · by_cases reported : b ∈ spent
      · exact Or.inr (Or.inr (genuine.2 b reported))
      · exact Or.inl (by simp [NodeShared.computeLinkUpMerge, member, own, reported])
  spent_kept := subset_rfl
  held b member := by
    simp only [NodeShared.applyLinkUp_node, NodeShared.computeLinkUpMerge, Finset.mem_filter,
      Finset.mem_union, List.mem_toFinset] at member
    rcases member.1 with own | offered
    · exact Or.inl (admits.1 b own)
    · exact Or.inl (genuine.1 b offered)
  spent_held _ member := Or.inl member
  created_held := Finset.empty_subset _

theorem conserves_burn {burned : Finset String} (admits : (conservation ι).memory k i found)
    (genuine : ∀ b ∈ burned, b ∈ k.spent) :
    Conserves k ∅ found (found.setLedger (found.node.ledger \ burned)) where
  kept b member := by
    by_cases isBurned : b ∈ burned
    · exact Or.inr (Or.inr (genuine b isBurned))
    · exact Or.inl (by simp [member, isBurned])
  spent_kept := subset_rfl
  held b member := by
    simp only [NodeShared.setLedger_ledger, Finset.mem_sdiff] at member
    exact Or.inl (admits.1 b member.1)
  spent_held _ member := Or.inl member
  created_held := Finset.empty_subset _

theorem conserves_respond {message : PeerMessage}
    (admits : (conservation ι).memory k i found) (genuine : Genuine k message) :
    Conserves k ∅ found (handlePeerConnection found message).2 := by
  cases message with
  | linkUpHello sender ledger spent => exact conserves_linkUp admits genuine
  | propagateRequest sender =>
      rw [handlePeerConnection_propagateRequest]
      exact conserves_of_node_eq admits rfl
  | spentNotify sender bearer =>
      have isSpent : ∀ b ∈ ({bearer} : Finset String), b ∈ k.spent := by
        intro b member
        rw [Finset.mem_singleton.mp member]
        exact genuine
      have burns := conserves_burn admits isSpent
      rwa [← Finset.erase_eq] at burns
  | linkDown | linkUpAck | propagateReply | statusRequest | statusReply =>
      exact conserves_of_node_eq admits rfl

theorem conserves_execute {body : CriticalSection}
    (admits : (conservation ι).memory k i found) (genuine : GenuineSection k body) :
    Conserves k (CriticalSection.created body) found (CriticalSection.execute body found) := by
  cases body with
  | read | applyLinkDown => exact conserves_of_node_eq admits rfl
  | localSpend bearer =>
      rcases found.localSpend_cases bearer with ⟨isHeld, outcome⟩ | ⟨-, outcome⟩
      · simp only [CriticalSection.execute, outcome]
        refine ⟨?_, Finset.subset_insert _ _, ?_, ?_, Finset.empty_subset _⟩
        · intro b member
          by_cases same : b = bearer
          · exact Or.inr (Or.inl (by simp [same]))
          · exact Or.inl (by simp [same, member])
        · intro b member
          exact Or.inl (admits.1 b (Finset.mem_of_mem_erase member))
        · intro b member
          rcases Finset.mem_insert.mp member with rfl | old
          · exact Or.inr isHeld
          · exact Or.inl old
      · simp only [CriticalSection.execute, outcome]
        exact conserves_of_node_eq admits rfl
  | applyLinkUpReply reply =>
      cases reply with
      | linkUpAck sender ledger spent => exact conserves_linkUp admits genuine
      | _ => exact conserves_of_node_eq admits rfl
  | applyPropagateReply reply =>
      cases reply with
      | propagateReply sender bearers =>
          refine ⟨fun b member => Or.inl (Finset.mem_union_left _ member), subset_rfl, ?_,
            fun b member => Or.inl member, Finset.empty_subset _⟩
          intro b member
          rcases Finset.mem_union.mp member with own | delivered
          · exact Or.inl (admits.1 b own)
          · exact Or.inl (genuine b (List.mem_toFinset.mp (Finset.mem_filter.mp delivered).1))
      | _ => exact conserves_of_node_eq admits rfl
  | burn bearers =>
      simp only [CriticalSection.execute, foldl_applySpentNotify]
      exact conserves_burn admits fun b member => genuine b (List.mem_toFinset.mp member)
  | seed bearer =>
      refine ⟨fun b member => Or.inl (Finset.mem_insert_of_mem member), subset_rfl, ?_,
        fun b member => Or.inl member, by simp [CriticalSection.created,
          CriticalSection.execute]⟩
      intro b member
      rcases Finset.mem_insert.mp member with rfl | own
      · exact Or.inr (by simp [CriticalSection.created])
      · exact Or.inl (admits.1 b own)

section Memory

theorem admits (memory : ι → NodeShared) (j : ι) :
    (conservation ι).memory (facts memory) j (memory j) :=
  ⟨fun _ member => ⟨j, Or.inl member⟩, fun _ member => ⟨j, member⟩⟩

variable [DecidableEq ι] {memory : ι → NodeShared} {created : Finset String}

theorem spentSomewhere_update (conserves : Conserves (facts memory) created (memory i) left) :
    spentSomewhere memory ⊆ spentSomewhere (Function.update memory i left) := by
  rintro b ⟨j, member⟩
  refine ⟨j, ?_⟩
  by_cases same : j = i
  · subst same; simpa using conserves.spent_kept member
  · simpa [same] using member

theorem existing_update (conserves : Conserves (facts memory) created (memory i) left) :
    existing (Function.update memory i left) = existing memory ∪ created := by
  ext b
  constructor
  · rintro ⟨j, member⟩
    by_cases same : j = i
    · subst same
      rw [Function.update_self] at member
      rcases member with isHeld | isSpent
      · exact conserves.held b isHeld
      · rcases conserves.spent_held b isSpent with old | old
        · exact Or.inl ⟨j, Or.inr old⟩
        · exact Or.inl ⟨j, Or.inl old⟩
    · rw [Function.update_of_ne same] at member
      exact Or.inl ⟨j, member⟩
  · rintro (⟨j, member⟩ | new)
    · by_cases same : j = i
      · subst same
        rcases member with isHeld | isSpent
        · rcases conserves.kept b isHeld with stays | isSpent | ⟨j', recorded⟩
          · exact ⟨j, Or.inl (by simpa using stays)⟩
          · exact ⟨j, Or.inr (by simpa using isSpent)⟩
          · obtain ⟨j'', member⟩ := spentSomewhere_update conserves ⟨j', recorded⟩
            exact ⟨j'', Or.inr member⟩
        · exact ⟨j, Or.inr (by simpa using conserves.spent_kept isSpent)⟩
      · exact ⟨j, by simpa [same] using member⟩
    · exact ⟨i, Or.inl (by simpa using conserves.created_held new)⟩

theorem facts_update (conserves : Conserves (facts memory) created (memory i) left) :
    facts memory ≤ facts (Function.update memory i left) := by
  refine ⟨?_, spentSomewhere_update conserves⟩
  change existing memory ⊆ existing _
  rw [existing_update conserves]
  exact Set.subset_union_left

end Memory

section Handlers

variable {peers : PeerAddrs} {order : IterationOrder} {selfId : String} {command : Command}

theorem conservation_locked {body : CriticalSection} {next : NodeShared → Handler}
    (genuine : GenuineSection k body)
    (honours : ∀ found later, k ≤ later → (conservation ι).memory later i found →
      Learned later body found → (conservation ι).Honours i command (next found) later) :
    (conservation ι).Honours i command (.locked body next) k :=
  ⟨genuine, fun found later more admits learned =>
    ⟨honours found later more admits learned, fun _ _ owed => owed.elim⟩⟩

theorem conservation_settle {snapshots : List PeerSnapshot} {unreachable : List String}
    (genuine : ∀ snap ∈ snapshots, ∀ b ∈ snap.spent, b ∈ k.spent) :
    (conservation ι).Honours i command
      (HabiNode.settle peers order selfId snapshots unreachable) k := by
  unfold HabiNode.settle
  split
  · trivial
  · cases outcome : computeConversionDay snapshots with
    | error conflict => trivial
    | ok burnSet =>
        have isSpent : ∀ b ∈ order.visit burnSet, b ∈ k.spent := by
          intro b member
          obtain ⟨snap, snapIn, recorded⟩ :=
            ((computeConversionDay_eq_ok_iff.mp outcome).2 b).mp
              ((order.mem_visit _ _).mp member)
          exact genuine snap snapIn b recorded
        refine conservation_locked isSpent fun _ later more _ _ => honours_broadcast _ ?_ trivial
        intro notice member
        obtain ⟨_, _, b, -, burned, rfl⟩ := HabiNode.mem_burnNotices.mp member
        exact more.2 (isSpent b burned)

theorem conservation_gather (remaining : List (Sigma fun _ : String => String))
    {snapshots : List PeerSnapshot} {unreachable : List String}
    (genuine : ∀ snap ∈ snapshots, ∀ b ∈ snap.spent, b ∈ k.spent) :
    (conservation ι).Honours i command
      (HabiNode.gather peers order selfId remaining snapshots unreachable) k := by
  induction remaining generalizing snapshots unreachable k with
  | nil => exact conservation_settle genuine
  | cons entry rest ih =>
      refine ⟨trivial, fun later more => ?_⟩
      have genuineLater : ∀ snap ∈ snapshots, ∀ b ∈ snap.spent, b ∈ later.spent :=
        fun snap snapIn b recorded => more.2 (genuine snap snapIn b recorded)
      refine ⟨fun reply answer => ?_, fun failure => ih genuineLater⟩
      cases reply with
      | statusReply sender ledger spent =>
          refine ih fun snap snapIn b recorded => ?_
          rcases List.mem_append.mp snapIn with old | new
          · exact genuineLater snap old b recorded
          · obtain rfl := List.mem_singleton.mp new
            exact answer.2 b (List.mem_toFinset.mp recorded)
      | _ => exact ih genuineLater

theorem conservation_finishExchange {peer : String} {reply : PeerMessage}
    {expected : PeerMessage → Bool} {body : PeerMessage → CriticalSection}
    {apply : NodeShared → PeerMessage → Except StateError Unit × NodeShared}
    (allowed : (conservation ι).body k i command (body reply)) :
    (conservation ι).Honours i command
      (HabiNode.finishExchange peer expected body apply (.ok reply)) k := by
  simp only [HabiNode.finishExchange]
  cases expected reply with
  | true =>
      refine conservation_locked allowed fun shared _ _ _ _ => ?_
      split <;> trivial
  | false => trivial

theorem conservation_linkUp (peer : String) :
    (conservation ι).Honours i command (HabiNode.linkUp peers peer) k := by
  refine honours_withPeerAddr (fun addr => conservation_locked trivial
    fun shared later more admits _ => ⟨?_, fun latest further => ?_⟩) fun _ => trivial
  · exact ⟨by simpa [NodeShared.ledgerSorted] using admits.1,
      by simpa [NodeShared.spentSorted] using admits.2⟩
  · exact ⟨fun reply answer => conservation_finishExchange answer, fun failure => trivial⟩

theorem conservation_linkDown (peer : String) :
    (conservation ι).Honours i command (HabiNode.linkDown peers peer) k := by
  refine honours_withPeerAddr (fun addr => conservation_locked trivial
    fun shared later more admits _ => ⟨trivial, fun result => ?_⟩) fun _ => trivial
  cases result with
  | error failure => trivial
  | ok done => exact conservation_locked trivial fun _ _ _ _ _ => trivial

theorem conservation_propagate (peer : String) :
    (conservation ι).Honours i command (HabiNode.propagate peers peer) k := by
  refine honours_withPeerAddr (fun addr => conservation_locked trivial
    fun shared later more admits _ => ?_) fun _ => trivial
  split
  · trivial
  · exact ⟨trivial, fun latest further =>
      ⟨fun reply answer => conservation_finishExchange answer, fun failure => trivial⟩⟩

theorem conservation_spendAt (bearer : String) :
    (conservation ι).Honours i command (HabiNode.spendAt peers bearer) k := by
  refine conservation_locked trivial fun shared later more admits learned => ?_
  rcases shared.localSpend_cases bearer with ⟨isHeld, outcome⟩ | ⟨-, outcome⟩
  · simp only [HabiNode.finishSpend, outcome]
    refine honours_broadcast _ (fun notice member => ?_) trivial
    obtain ⟨_, _, _, -, ⟨-, rfl⟩, rfl⟩ := HabiNode.mem_spendNotices.mp member
    exact learned isHeld
  · simp only [HabiNode.finishSpend, outcome]
    trivial

theorem conservation_handleAdminCommand (message : AdminMessage) :
    (conservation ι).Honours i command (HabiNode.handleAdminCommand peers order message) k := by
  cases message with
  | linkUp peer => exact conservation_linkUp peer
  | linkDown peer => exact conservation_linkDown peer
  | propagate peer => exact conservation_propagate peer
  | spendAt bearer => exact conservation_spendAt bearer
  | conversionDay =>
      refine conservation_locked trivial fun shared later more admits _ => conservation_gather _ ?_
      intro snap snapIn b recorded
      obtain rfl := List.mem_singleton.mp snapIn
      exact admits.2 b recorded
  | status => exact conservation_locked trivial fun _ _ _ _ _ => trivial
  | seed bearer => exact conservation_locked trivial fun _ _ _ _ _ => trivial

end Handlers

variable [DecidableEq ι] {D : Deployment ι} {start last next : World ι} {event : Event ι}
  {trace : List (World ι × Event ι)}

def seeds (w : World ι) : Event ι → Finset String
  | .thread k .locked =>
      match w.threads[k]? with
      | some ⟨_, _, .running (.locked body _)⟩ => CriticalSection.created body
      | _ => ∅
  | _ => ∅

def Seeded (trace : List (World ι × Event ι)) (b : String) : Prop :=
  ∃ entry ∈ trace, b ∈ seeds entry.1 entry.2

omit [DecidableEq ι] in
theorem seeds_eq_empty (w : World ι) (unlocked : ∀ k, event ≠ .thread k .locked) :
    seeds w event = ∅ := by
  unfold seeds
  split
  · exact (unlocked _ rfl).elim
  · rfl

theorem conservation_kept (D : Deployment ι) :
    (conservation ι).Kept D.system facts fun _ => True where
  handler i command k _ := conservation_handleAdminCommand command.message
  execute memory i command body admitted genuine := by
    have conserves := conserves_execute (admitted i) genuine
    refine ⟨facts_update conserves, ?_, ?_⟩
    · simpa only [system_execute, Function.update_self] using
        admits (Function.update memory i (CriticalSection.execute body (memory i))) i
    · cases body with
      | localSpend bearer =>
          intro isHeld
          refine ⟨i, ?_⟩
          rcases (memory i).localSpend_cases bearer with ⟨-, outcome⟩ | ⟨missing, -⟩
          · simp [system, CriticalSection.execute, outcome]
          · exact (missing isHeld).elim
      | _ => trivial
  respond memory i message admitted allowed := by
    have genuine : Genuine (facts memory) message := by
      rcases allowed with genuine | ⟨_, _, genuine⟩ <;> exact genuine
    have conserves := conserves_respond (admitted i) genuine
    refine ⟨facts_update conserves, ?_, ?_⟩
    · simpa only [system_respond, Function.update_self] using
        admits (Function.update memory i (handlePeerConnection (memory i) message).2) i
    · intro reply replied
      have more := facts_update conserves
      refine Genuine.mono more ?_
      change (handlePeerConnection (memory i) message).1 = some reply at replied
      cases message with
      | linkUpHello | statusRequest =>
          obtain rfl := Option.some_inj.mp replied
          exact ⟨by simpa [NodeShared.ledgerSorted] using (admitted i).1,
            by simpa [NodeShared.spentSorted] using (admitted i).2⟩
      | propagateRequest sender =>
          rw [handlePeerConnection_propagateRequest] at replied
          split at replied
          · obtain rfl := Option.some_inj.mp replied
            simpa [Genuine, NodeShared.ledgerSorted] using (admitted i).1
          · simp at replied
      | _ => simp at replied

/-- One step adds exactly the bearers it seeds. -/
theorem existing_step (complies : (conservation ι).Complies (facts last.memory) last)
    (edge : D.system.Step last event next) :
    existing next.memory = existing last.memory ∪ seeds last event ∧
      spentSomewhere last.memory ⊆ spentSomewhere next.memory := by
  rcases edge.memory_cases with ⟨unlocked, -, same⟩ |
    ⟨k, i, command, body, after, rfl, present, changed⟩ |
    ⟨unlocked, peer, message, handles, changed⟩
  · rw [same, seeds_eq_empty last unlocked]
    simp
  · have conserves := conserves_execute (complies.memory i) (complies.body present)
    rw [changed, system_execute]
    exact ⟨by rw [existing_update conserves]; simp [seeds, present],
      spentSomewhere_update conserves⟩
  · have genuine : Genuine (facts last.memory) message := by
      rcases complies.handled handles with genuine | ⟨_, _, genuine⟩ <;> exact genuine
    have conserves := conserves_respond (complies.memory peer) genuine
    rw [changed, system_respond, seeds_eq_empty last unlocked]
    exact ⟨existing_update conserves, spentSomewhere_update conserves⟩

/-- No bearer is forged and none disappears unless it has been spent: in every
reachable state the bearers in some ledger or spent set are the initial and the
seeded ones, and a step that takes a bearer out of the last ledger holding it
leaves a node that has spent it. -/
theorem bearers_conserved (quiescent : start.Quiescent)
    (run : Run D.system.Step start trace last) :
    (∀ b, (∃ i, b ∈ (last.memory i).node.ledger ∨ b ∈ (last.memory i).node.spent) ↔
      (∃ i, b ∈ (start.memory i).node.ledger ∨ b ∈ (start.memory i).node.spent) ∨
        Seeded trace b) ∧
    ∀ event next, D.system.Step last event next → ∀ i b,
      b ∈ (last.memory i).node.ledger → (∀ j, b ∉ (next.memory j).node.ledger) →
        ∃ j, b ∈ (next.memory j).node.spent := by
  have complies : (conservation ι).Complies (facts start.memory) start :=
    Contract.complies_of_quiescent quiescent (admits start.memory) fun _ _ _ => trivial
  have inv : (conservation ι).Complies (facts last.memory) last ∧
      existing last.memory = existing start.memory ∪ {b | Seeded trace b} := by
    induction run with
    | refl => exact ⟨complies, by simp [Seeded]⟩
    | @tail trace middle last event run edge ih =>
        obtain ⟨compliesMiddle, existingEq⟩ := ih
        refine ⟨(conservation_kept D).step compliesMiddle ?_
          (Or.inr fun _ _ _ _ genuine => genuine) edge, ?_⟩
        · cases event <;> trivial
        · rw [(existing_step compliesMiddle edge).1, existingEq]
          ext b
          simp [Seeded, or_and_right, exists_or, or_assoc]
  refine ⟨fun b => Set.ext_iff.mp inv.2 b, ?_⟩
  intro event next edge i b isHeld gone
  have exists_ : b ∈ existing next.memory := by
    rw [(existing_step inv.1 edge).1]
    exact Or.inl ⟨i, Or.inl isHeld⟩
  obtain ⟨j, isHeld | isSpent⟩ := exists_
  · exact (gone j isHeld).elim
  · exact ⟨j, isSpent⟩

/-- A seeded bearer in a deployment of two nodes, after a link-up. -/
theorem bearers_conserved_cluster :
    ∃ trace last, Run (cluster ["N1", "N2"]).system.Step
        (idle fun i => .new (["N1", "N2"].get i)) trace last ∧
      "b1" ∈ (last.memory 1).node.ledger ∧
      ∀ b, (∃ i, b ∈ (last.memory i).node.ledger ∨ b ∈ (last.memory i).node.spent) ↔
        (∃ i, b ∈ (NodeShared.new (["N1", "N2"].get i)).node.ledger ∨
          b ∈ (NodeShared.new (["N1", "N2"].get i)).node.spent) ∨ Seeded trace b := by
  obtain ⟨trace, last, run, -, held⟩ := System.exists_run
    (cluster ["N1", "N2"]).system (idle fun i => .new (["N1", "N2"].get i))
    [.started 0 (AdminMessage.seed "b1").command, .thread 0 .locked, .thread 0 .persisted,
      .thread 0 .replied, .started 0 (AdminMessage.linkUp "N2").command, .thread 1 .locked,
      .thread 1 .requested, .thread 1 .served, .thread 1 .locked]
    (fun followed => decide ("b1" ∈ (followed.2.memory 1).node.ledger)) (by decide)
  exact ⟨trace, last, run, by simpa using held,
    (bearers_conserved (idle_idle _).quiescent run).1⟩

end HabiCore.Deployment
