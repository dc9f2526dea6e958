import HabiCore.LiveLinks

/-!
# The link-up handshake among spends

One of two nodes links up to the other while both may spend bearers.  Between
the reading of its state for the Hello and the merge of the Ack, the initiator
is not linked yet: what it spends then is announced to nobody, and what the
peer announces then may be undone by the Ack.  Where neither happens, the
handshake merges the ledgers as one step would.
-/

namespace HabiCore.Deployment

open LockedProcesses LabelledRuns

variable {ι : Type} {D : Deployment ι} {nodeId : ι → String}

/-- Nothing is lost, and no commands but spends are started. -/
def OnlySpends (event : Event ι) : Prop :=
  event.Lossless ∧ event.Starts (isSpend ·)

instance (event : Event ι) : Decidable (OnlySpends event) :=
  inferInstanceAs (Decidable (_ ∧ _))

def spendsOrLinksUp (command : Command) : Bool :=
  match command.message with
  | .spendAt _ | .linkUp _ => true
  | _ => false

theorem spendsOrLinksUp_of_isSpend (command : Command) (spends : isSpend command) :
    spendsOrLinksUp command := by
  obtain ⟨message, order⟩ := command
  cases message with
  | spendAt bearer => rfl
  | _ => cases spends

def SpentNotice (spent : ι → Finset String) : PeerMessage → Prop
  | .spentNotify _ b => ∃ y, b ∈ spent y
  | _ => False

/-- The contract of runs in which nodes spend bearers and link up.  What is
known are the spent sets. -/
def handshake (D : Deployment ι) (nodeId : ι → String) :
    NodeContract (ι → Finset String) ι where
  memory _ i found := found.node.nodeId = nodeId i
  message := SpentNotice
  request _ _ command _ := ¬ isSpend command
  answer _ _ _ := True
  body _ _ command body := isSpend command → ∃ b, body = .localSpend b
  learned k i body found := ∀ b, body = .localSpend b → b ∈ found.node.ledger → b ∈ k i
  owed := OwedForSpend D nodeId
  reply _ _ _ _ := True
  memory_mono _ named := named
  message_mono {_ _ message} more allowed := by
    cases message with
    | spentNotify sender b =>
        obtain ⟨y, isSpent⟩ := allowed
        exact ⟨y, more y isSpent⟩
    | _ => exact allowed
  request_mono _ allowed := allowed
  body_mono _ allowed := allowed
  reply_mono _ allowed := allowed

section Handlers

variable {k : ι → Finset String} {i : ι} {command : Command}

theorem handshake_spendAt {bearer : String} :
    (handshake D nodeId).Honours i command (HabiNode.spendAt (D.peers i) bearer) k := by
  apply honours_spendAt
  · exact fun _ => ⟨bearer, rfl⟩
  · exact fun _ _ named => named
  · intro later found learned isHeld
    exact ⟨⟨i, learned bearer rfl isHeld⟩, trivial⟩
  · exact fun _ _ => trivial
  · exact fun _ _ _ owed => owed

theorem handshake_linkUp {peer : String} (noSpend : ¬ isSpend command) :
    (handshake D nodeId).Honours i command (HabiNode.linkUp (D.peers i) peer) k := by
  have nothingOwed : ∀ {body found addr notify}, (∀ b, body ≠ .localSpend b) →
      ¬ (handshake D nodeId).owed i body found addr notify := by
    rintro body found addr notify notLocal ⟨b, same, -⟩
    exact notLocal b same
  refine honours_withPeerAddr (fun addr => ?_) fun _ => trivial
  refine ⟨fun spends => (noSpend spends).elim, fun found later _ _ _ => ⟨?_, ?_⟩⟩
  · refine ⟨noSpend, fun later' _ => ⟨fun answer _ => ?_, fun failure => trivial⟩⟩
    cases answer with
    | linkUpAck sender ledger spent =>
        exact ⟨fun spends => (noSpend spends).elim, fun _ _ _ _ _ =>
          ⟨trivial, fun _ _ owed => (nothingOwed (by simp) owed).elim⟩⟩
    | _ => exact trivial
  · exact fun _ _ owed => (nothingOwed (by simp) owed).elim

theorem handshake_handler (allowed : spendsOrLinksUp command) :
    (handshake D nodeId).Honours i command
      (HabiNode.handleAdminCommand (D.peers i) command.order command.message) k := by
  obtain ⟨message, order⟩ := command
  cases message with
  | spendAt bearer => exact handshake_spendAt
  | linkUp peer => exact handshake_linkUp (by simp [isSpend])
  | propagate | linkDown | status | seed | conversionDay => cases allowed

end Handlers

variable [DecidableEq ι]

theorem handshake_kept (D : Deployment ι) (nodeId : ι → String) :
    (handshake D nodeId).Kept D.system spentSets (spendsOrLinksUp ·) where
  handler _ _ _ allowed := handshake_handler allowed
  execute memory i command body named allowed := by
    refine ⟨?_, (execute_nodeId body _).trans (named i), ?_⟩
    · exact spentSets_update fun b old => mem_execute_spent.mpr (Or.inl old)
    · rintro b rfl isHeld
      have isSpent := mem_execute_spent.mpr (Or.inr ⟨rfl, isHeld⟩)
      simpa [spentSets] using isSpent
  respond memory i message named allowed :=
    ⟨spentSets_update (respond_spent _ _).symm.subset,
      (respond_nodeId _ _).trans (named i), fun _ _ => trivial⟩

variable {w w' start last : World ι} {event : Event ι}

/-- A step of a spend: nothing is gained, and what is lost has been spent by
somebody. -/
structure SpendEffect (w : World ι) (event : Event ι) (w' : World ι) : Prop where
  links : ∀ x peer, (w'.memory x).isLinked peer = (w.memory x).isLinked peer
  shrinks : ∀ x, ∀ b ∈ (w'.memory x).node.ledger, b ∈ (w.memory x).node.ledger
  lost : ∀ x, ∀ b ∈ (w.memory x).node.ledger,
    b ∈ (w'.memory x).node.ledger ∨ b ∈ spentSomewhere w'.memory
  grows : ∀ x, ∀ b ∈ (w.memory x).node.spent, b ∈ (w'.memory x).node.spent
  spends : ∀ x, ∀ b ∈ (w'.memory x).node.spent, b ∈ (w.memory x).node.spent ∨
    (Spends w event x b ∧ b ∉ (w'.memory x).node.ledger)
  delivered : ∀ m x sender b, event = .delivered m →
    w.inFlight[m]? = some (x, .spentNotify sender b) → b ∉ (w'.memory x).node.ledger

omit [DecidableEq ι] in
theorem spendEffect_of_unchanged (undelivered : ∀ m, event ≠ .delivered m)
    (same : w'.memory = w.memory) : SpendEffect w event w' := by
  constructor <;> rw [same]
  · exact fun _ _ => rfl
  · exact fun _ _ isHeld => isHeld
  · exact fun _ _ isHeld => Or.inl isHeld
  · exact fun _ _ isSpent => isSpent
  · exact fun _ _ isSpent => Or.inl isSpent
  · exact fun m _ _ _ isDelivered => (undelivered m isDelivered).elim

theorem spendEffect_of_localSpend {k : Nat} {x : ι} {command : Command} {b : String}
    {next : NodeShared → Handler}
    (present : w.threads[k]? = some ⟨x, command, .running (.locked (.localSpend b) next)⟩)
    (isHeld : b ∈ (w.memory x).node.ledger)
    (changed : w'.memory =
      Function.update w.memory x ((CriticalSection.localSpend b).execute (w.memory x))) :
    SpendEffect w (.thread k .locked) w' := by
  have outcome := ((w.memory x).localSpend_cases b).resolve_right fun refused => refused.1 isHeld
  have others : ∀ z, z ≠ x → w'.memory z = w.memory z := fun z other => by
    rw [changed, Function.update_of_ne other]
  have ledger : (w'.memory x).node.ledger = (w.memory x).node.ledger.erase b := by
    simp [changed, CriticalSection.execute, outcome.2]
  have spent : (w'.memory x).node.spent = insert b (w.memory x).node.spent := by
    simp [changed, CriticalSection.execute, outcome.2]
  have links : ∀ peer, (w'.memory x).isLinked peer = (w.memory x).isLinked peer := fun peer => by
    simp only [changed, CriticalSection.execute, outcome.2, Function.update_self]
    rfl
  refine ⟨fun z peer => ?_, fun z q isHeld' => ?_, fun z q isHeld' => ?_, fun z q isSpent => ?_,
    fun z q isSpent => ?_, by simp⟩
  all_goals by_cases same : z = x
  · subst same
    exact links peer
  · rw [others z same]
  · subst same
    rw [ledger] at isHeld'
    exact Finset.mem_of_mem_erase isHeld'
  · rwa [others z same] at isHeld'
  · subst same
    by_cases isBearer : q = b
    · exact Or.inr ⟨z, by simp [spent, isBearer]⟩
    · exact Or.inl (by simp [ledger, isBearer, isHeld'])
  · rw [others z same]
    exact Or.inl isHeld'
  · subst same
    simp [spent, isSpent]
  · rwa [others z same]
  · subst same
    rw [spent] at isSpent
    rcases Finset.mem_insert.mp isSpent with rfl | old
    · exact Or.inr ⟨⟨k, command, next, rfl, present, isHeld⟩, by simp [ledger]⟩
    · exact Or.inl old
  · rw [others z same] at isSpent
    exact Or.inl isSpent

theorem spendEffect_of_notice {peer : ι} {sender b : String}
    (isSpent : b ∈ spentSomewhere w.memory) (handles : w.Handles event peer (.spentNotify sender b))
    (changed : w'.memory =
      Function.update w.memory peer ((w.memory peer).applySpentNotify b)) :
    SpendEffect w event w' := by
  have links : ∀ x id, (w'.memory x).isLinked id = (w.memory x).isLinked id := fun x id => by
    by_cases same : x = peer
    · subst same; simp [changed]
    · simp [changed, same]
  have spent : ∀ x, (w'.memory x).node.spent = (w.memory x).node.spent := fun x => by
    by_cases same : x = peer
    · subst same; simp [changed]
    · simp [changed, same]
  refine ⟨links, fun x q isHeld => ?_, fun x q isHeld => ?_, fun x q old => by rwa [spent],
    fun x q old => Or.inl (by rwa [spent] at old), fun m x sender' q isDelivered inFlight => ?_⟩
  · by_cases same : x = peer
    · subst same
      exact Finset.mem_of_mem_erase (by simpa [changed] using isHeld)
    · simpa [changed, same] using isHeld
  · by_cases isBearer : q = b
    · subst isBearer
      obtain ⟨y, recorded⟩ := isSpent
      exact Or.inr ⟨y, by rwa [spent]⟩
    · refine Or.inl ?_
      by_cases same : x = peer
      · subst same; simp [changed, isBearer, isHeld]
      · simpa [changed, same] using isHeld
  · rcases handles with ⟨m', same, inFlight'⟩ | ⟨k, move, i, command, next, same, -⟩
    · obtain rfl : m' = m := by simpa [isDelivered] using same.symm
      obtain ⟨rfl, rfl, rfl⟩ : x = peer ∧ sender' = sender ∧ q = b := by
        simpa [inFlight'] using inFlight.symm
      simp [changed]
    · simp [isDelivered] at same

/-- The moves of spends and the handling of their notifications. -/
theorem spend_effect (complies : (handshake D nodeId).Complies (spentSets w.memory) w)
    (spends : ∀ k move thread, event = .thread k move → w.threads[k]? = some thread →
      isSpend thread.command)
    (edge : D.system.Step w event w') : SpendEffect w event w' := by
  rcases edge.memory_cases with ⟨-, undelivered, same⟩ |
    ⟨k, i, command, body, next, rfl, present, changed⟩ |
    ⟨-, peer, message, handles, changed⟩
  · exact spendEffect_of_unchanged undelivered same
  · obtain ⟨b, rfl⟩ := complies.body present (spends k _ _ rfl present)
    by_cases isHeld : b ∈ (w.memory i).node.ledger
    · exact spendEffect_of_localSpend present isHeld changed
    · apply spendEffect_of_unchanged (by simp)
      have outcome := ((w.memory i).localSpend_cases b).resolve_left fun held => isHeld held.1
      rw [changed, system_execute, CriticalSection.execute, outcome.2, Function.update_eq_self]
  · have isNotice : SpentNotice (spentSets w.memory) message := by
      rcases handles with ⟨m, -, flying⟩ | ⟨k, move, i, command, next, isMove, present⟩
      · exact complies.inFlight _ (List.mem_of_getElem? flying)
      · exact ((complies.thread present).1 (spends k move _ isMove present)).elim
    cases message with
    | spentNotify sender b => exact spendEffect_of_notice isNotice handles changed
    | _ => exact isNotice.elim

omit [DecidableEq ι] in
theorem SpendEffect.stays_spent (effect : SpendEffect w event w') {q : String}
    (isSpent : q ∈ spentSomewhere w.memory) : q ∈ spentSomewhere w'.memory := by
  obtain ⟨y, recorded⟩ := isSpent
  exact ⟨y, effect.grows y q recorded⟩

omit [DecidableEq ι] in
theorem SpendEffect.kept (effect : SpendEffect w event w') {x : ι} {q : String}
    (isKept : q ∈ (w.memory x).node.ledger ∨ q ∈ spentSomewhere w.memory) :
    q ∈ (w'.memory x).node.ledger ∨ q ∈ spentSomewhere w'.memory := by
  rcases isKept with isHeld | isSpent
  · exact effect.lost x q isHeld
  · exact Or.inr (effect.stays_spent isSpent)

/-- The initiator `a` has not read its state.  In this and the next stages the nodes
hold none but the bearers `all` they hold at its beginning, and what is missing has
been spent. -/
structure Begun (all : Finset String) (memory : ι → NodeShared) : Prop where
  within : ∀ x, ∀ q ∈ (memory x).node.ledger, q ∈ all
  remains : ∀ q ∈ all, (∃ x, q ∈ (memory x).node.ledger) ∨ q ∈ spentSomewhere memory

/-- The initiator `a` has read the given ledger and spent set, and `b` has not
merged them. -/
structure Offered (a b : ι) (all : Finset String) (ledger spent : List String)
    (memory : ι → NodeShared) : Prop where
  within : ∀ x, ∀ q ∈ (memory x).node.ledger, q ∈ all
  offered : ∀ q ∈ ledger, q ∈ all
  remains : ∀ q ∈ all, q ∈ ledger ∨ q ∈ (memory b).node.ledger ∨ q ∈ spentSomewhere memory
  kept : ∀ q ∈ ledger, q ∈ (memory a).node.ledger ∨ q ∈ spentSomewhere memory
  reported : ∀ q ∈ spent, q ∈ (memory a).node.spent
  guarded : ∀ q ∈ (memory a).node.spent, q ∈ spent ∨ q ∈ (memory b).node.spent

/-- The peer `b` has merged what it was sent, and has replied with the given
ledger and spent set, which `a` has not merged. -/
structure Answered (D : Deployment ι) (nodeId : ι → String) (a b : ι) (all : Finset String)
    (ledger spent : List String) (w : World ι) : Prop where
  linked : (w.memory b).isLinked (nodeId a) = true
  within : ∀ x, ∀ q ∈ (w.memory x).node.ledger, q ∈ all
  offered : ∀ q ∈ ledger, q ∈ all
  remains : ∀ q ∈ all, q ∈ (w.memory b).node.ledger ∨ q ∈ spentSomewhere w.memory
  kept : ∀ q ∈ all, q ∈ ledger ∨ q ∈ (w.memory a).node.ledger ∨ q ∈ spentSomewhere w.memory
  clean : ∀ q ∈ (w.memory b).node.ledger, q ∉ spentSomewhere w.memory
  reported : ∀ q ∈ spent, q ∈ (w.memory b).node.spent
  revoking : ∀ q, q ∈ ledger ∨ q ∈ (w.memory a).node.ledger → q ∈ (w.memory b).node.spent →
    q ∈ spent ∨ q ∈ (w.memory a).node.spent ∨
      D.system.Outstanding w a (.spentNotify (nodeId b) q)

/-- Both nodes have merged. -/
structure Merged (D : Deployment ι) (nodeId : ι → String) (all : Finset String)
    (w : World ι) : Prop where
  linked : ∀ x y, x ≠ y → (w.memory x).isLinked (nodeId y) = true
  within : ∀ x, ∀ q ∈ (w.memory x).node.ledger, q ∈ all
  remains : ∀ x, ∀ q ∈ all, q ∈ (w.memory x).node.ledger ∨ q ∈ spentSomewhere w.memory
  disjoint : ∀ x, Disjoint (w.memory x).node.ledger (w.memory x).node.spent
  revoking : Revoking D nodeId w

section Spends

variable {a b : ι} {all : Finset String} {ledger spent : List String}

omit [DecidableEq ι] in
theorem Begun.step (begun : Begun all w.memory) (effect : SpendEffect w event w') :
    Begun all w'.memory where
  within x q isHeld := begun.within x q (effect.shrinks x q isHeld)
  remains q member := by
    rcases begun.remains q member with ⟨x, isHeld⟩ | isSpent
    · exact (effect.lost x q isHeld).imp_left fun still => ⟨x, still⟩
    · exact Or.inr (effect.stays_spent isSpent)

omit [DecidableEq ι] in
theorem Offered.step (offered : Offered a b all ledger spent w.memory)
    (effect : SpendEffect w event w') (covers : ∀ i, i = a ∨ i = b)
    (undisturbed : ∀ q, Spends w event a q → q ∈ spentSomewhere w.memory) :
    Offered a b all ledger spent w'.memory where
  within x q isHeld := offered.within x q (effect.shrinks x q isHeld)
  offered := offered.offered
  remains q member := by
    rcases offered.remains q member with isOffered | isKept
    · exact Or.inl isOffered
    · exact Or.inr (effect.kept isKept)
  kept q member := effect.kept (offered.kept q member)
  reported q member := effect.grows a q (offered.reported q member)
  guarded q isSpent := by
    have guarded : q ∈ (w.memory a).node.spent → q ∈ spent ∨ q ∈ (w'.memory b).node.spent :=
      fun old => (offered.guarded q old).imp_right (effect.grows b q)
    rcases effect.spends a q isSpent with old | ⟨spends, -⟩
    · exact guarded old
    · obtain ⟨y, recorded⟩ := undisturbed q spends
      rcases covers y with rfl | rfl
      · exact guarded recorded
      · exact Or.inr (effect.grows y q recorded)

theorem Answered.step (answered : Answered D nodeId a b all ledger spent w)
    (effect : SpendEffect w event w') (edge : D.system.Step w event w')
    (lossless : event.Lossless) (covers : ∀ i, i = a ∨ i = b)
    (announced : ∀ q, Spends w event b q →
      D.system.Outstanding w' a (.spentNotify (nodeId b) q))
    (undisturbed : ∀ q, Spends w event a q → q ∈ spentSomewhere w.memory)
    (unrevoked : ∀ m sender q, event = .delivered m →
      w.inFlight[m]? = some (a, .spentNotify sender q) → q ∈ ledger → q ∉ spent →
        q ∈ (w.memory a).node.spent) :
    Answered D nodeId a b all ledger spent w' where
  linked := (effect.links b _).trans answered.linked
  within x q isHeld := answered.within x q (effect.shrinks x q isHeld)
  offered := answered.offered
  remains q member := effect.kept (answered.remains q member)
  kept q member := (answered.kept q member).imp_right effect.kept
  clean q isHeld isSpent := by
    have unspent := answered.clean q (effect.shrinks b q isHeld)
    obtain ⟨y, recorded⟩ := isSpent
    rcases effect.spends y q recorded with old | ⟨spends, released⟩
    · exact unspent ⟨y, old⟩
    · rcases covers y with rfl | rfl
      · exact unspent (undisturbed q spends)
      · exact released isHeld
  reported q member := effect.grows b q (answered.reported q member)
  revoking q present isSpent := by
    rcases effect.spends b q isSpent with old | ⟨spends, -⟩
    · have before := answered.revoking q (present.imp_right (effect.shrinks a q)) old
      rcases before with isReported | ownSpend | outstanding
      · exact Or.inl isReported
      · exact Or.inr (Or.inl (effect.grows a q ownSpend))
      · rcases outstanding.step edge lossless with still | ⟨m, isDelivered, inFlight⟩
        · exact Or.inr (Or.inr still)
        · rcases present with inReply | isHeld
          · by_cases isReported : q ∈ spent
            · exact Or.inl isReported
            · have ownSpend := unrevoked m _ q isDelivered inFlight inReply isReported
              exact Or.inr (Or.inl (effect.grows a q ownSpend))
          · exact (effect.delivered m a _ q isDelivered inFlight isHeld).elim
    · exact Or.inr (Or.inr (announced q spends))

theorem Merged.step (merged : Merged D nodeId all w) (effect : SpendEffect w event w')
    (edge : D.system.Step w event w') (lossless : event.Lossless)
    (announced : ∀ x y q, x ≠ y → Spends w event y q →
      D.system.Outstanding w' x (.spentNotify (nodeId y) q)) :
    Merged D nodeId all w' where
  linked x y distinct := (effect.links x _).trans (merged.linked x y distinct)
  within x q isHeld := merged.within x q (effect.shrinks x q isHeld)
  remains x q member := effect.kept (merged.remains x q member)
  disjoint x := by
    rw [Finset.disjoint_left]
    intro q isHeld isSpent
    rcases effect.spends x q isSpent with old | ⟨-, released⟩
    · exact Finset.disjoint_left.mp (merged.disjoint x) (effect.shrinks x q isHeld) old
    · exact released isHeld
  revoking x y distinct q isSpent isHeld := by
    rcases effect.spends y q isSpent with old | ⟨spends, -⟩
    · have outstanding := merged.revoking x y distinct q old (effect.shrinks x q isHeld)
      rcases outstanding.step edge lossless with still | ⟨m, isDelivered, inFlight⟩
      · exact still
      · exact (effect.delivered m x _ q isDelivered inFlight isHeld).elim
    · exact announced x y q distinct spends

end Spends

/-- A merge of what the peer has sent into the state of the node `x`. -/
structure MergeEffect (w : World ι) (x : ι) (ledger spent : List String) (w' : World ι) :
    Prop where
  frame : ∀ y, y ≠ x → w'.memory y = w.memory y
  sameSpent : ∀ y, (w'.memory y).node.spent = (w.memory y).node.spent
  held : ∀ q, q ∈ (w'.memory x).node.ledger ↔
    (q ∈ (w.memory x).node.ledger ∨ q ∈ ledger) ∧ q ∉ (w.memory x).node.spent ∧ q ∉ spent

theorem mergeEffect_of_applyLinkUp {x : ι} {peer : String} {ledger spent : List String}
    (changed : w'.memory = Function.update w.memory x ((w.memory x).applyLinkUp peer
      ((w.memory x).computeLinkUpMerge ledger.toFinset spent.toFinset))) :
    MergeEffect w x ledger spent w' where
  frame y other := by rw [changed, Function.update_of_ne other]
  sameSpent y := by
    by_cases same : y = x
    · subst same
      simp [changed]
    · simp [changed, same]
  held q := by simp [changed, NodeShared.computeLinkUpMerge]

namespace MergeEffect

variable {x : ι} {ledger spent : List String} (effect : MergeEffect w x ledger spent w')
include effect

omit [DecidableEq ι] in
theorem mem_spentSomewhere {q : String} :
    q ∈ spentSomewhere w'.memory ↔ q ∈ spentSomewhere w.memory := by
  simp [spentSomewhere, effect.sameSpent]

omit [DecidableEq ι] in
theorem spread {q : String} (reported : ∀ q ∈ spent, q ∈ spentSomewhere w.memory)
    (member : q ∈ (w.memory x).node.ledger ∨ q ∈ ledger) :
    q ∈ (w'.memory x).node.ledger ∨ q ∈ spentSomewhere w'.memory := by
  rw [effect.mem_spentSomewhere, effect.held]
  by_cases recorded : q ∈ (w.memory x).node.spent
  · exact Or.inr ⟨x, recorded⟩
  · by_cases isReported : q ∈ spent
    · exact Or.inr (reported q isReported)
    · exact Or.inl ⟨member, recorded, isReported⟩

end MergeEffect

section Moves

variable {a b : ι} {all : Finset String} {ledger spent : List String}

omit [DecidableEq ι] in
theorem Begun.offer (begun : Begun all w.memory) (covers : ∀ i, i = a ∨ i = b) :
    Offered a b all (w.memory a).ledgerSorted (w.memory a).spentSorted w.memory where
  within := begun.within
  offered q member := begun.within a q (by simpa [NodeShared.ledgerSorted] using member)
  remains q member := by
    rcases begun.remains q member with ⟨x, isHeld⟩ | isSpent
    · rcases covers x with rfl | rfl
      · exact Or.inl (by simpa [NodeShared.ledgerSorted] using isHeld)
      · exact Or.inr (Or.inl isHeld)
    · exact Or.inr (Or.inr isSpent)
  kept q member := Or.inl (by simpa [NodeShared.ledgerSorted] using member)
  reported q member := by simpa [NodeShared.spentSorted] using member
  guarded q isSpent := Or.inl (by simpa [NodeShared.spentSorted] using isSpent)

omit [DecidableEq ι] in
/-- The peer merges the Hello. -/
theorem Offered.answer (offered : Offered a b all ledger spent w.memory) (distinct : a ≠ b)
    (covers : ∀ i, i = a ∨ i = b) (effect : MergeEffect w b ledger spent w')
    (linked : (w'.memory b).isLinked (nodeId a) = true) :
    Answered D nodeId a b all (w.memory b).ledgerSorted (w.memory b).spentSorted w' := by
  have initiator := effect.frame a distinct
  have spread : ∀ q, q ∈ (w.memory b).node.ledger ∨ q ∈ ledger →
      q ∈ (w'.memory b).node.ledger ∨ q ∈ spentSomewhere w'.memory :=
    fun q => effect.spread fun q isReported => ⟨a, offered.reported q isReported⟩
  refine ⟨linked, fun x q isHeld => ?_, fun q member => ?_, fun q member => ?_,
    fun q member => ?_, fun q isHeld isSpent => ?_, fun q member => ?_, fun q _ isSpent => ?_⟩
  · rcases covers x with rfl | rfl
    · exact offered.within x q (by rwa [initiator] at isHeld)
    · rcases ((effect.held q).mp isHeld).1 with own | merged
      · exact offered.within x q own
      · exact offered.offered q merged
  · exact offered.within b q (by simpa [NodeShared.ledgerSorted] using member)
  · rcases offered.remains q member with isOffered | own | isSpent
    · exact spread q (Or.inr isOffered)
    · exact spread q (Or.inl own)
    · exact Or.inr (effect.mem_spentSomewhere.mpr isSpent)
  · rw [initiator, effect.mem_spentSomewhere]
    rcases offered.remains q member with isOffered | own | isSpent
    · exact Or.inr (offered.kept q isOffered)
    · exact Or.inl (by simpa [NodeShared.ledgerSorted] using own)
    · exact Or.inr (Or.inr isSpent)
  · obtain ⟨-, unspent, unreported⟩ := (effect.held q).mp isHeld
    obtain ⟨y, recorded⟩ := effect.mem_spentSomewhere.mp isSpent
    rcases covers y with rfl | rfl
    · exact (offered.guarded q recorded).elim unreported unspent
    · exact unspent recorded
  · rw [effect.sameSpent]
    simpa [NodeShared.spentSorted] using member
  · rw [effect.sameSpent] at isSpent
    exact Or.inl (by simpa [NodeShared.spentSorted] using isSpent)

omit [DecidableEq ι] in
/-- The initiator merges the Ack. -/
theorem Answered.merge (answered : Answered D nodeId a b all ledger spent w) (distinct : a ≠ b)
    (covers : ∀ i, i = a ∨ i = b) (effect : MergeEffect w a ledger spent w')
    (linked : (w'.memory a).isLinked (nodeId b) = true)
    (persists : ∀ q, D.system.Outstanding w a (.spentNotify (nodeId b) q) →
      D.system.Outstanding w' a (.spentNotify (nodeId b) q)) :
    Merged D nodeId all w' := by
  have peer := effect.frame b distinct.symm
  have spread : ∀ q, q ∈ (w.memory a).node.ledger ∨ q ∈ ledger →
      q ∈ (w'.memory a).node.ledger ∨ q ∈ spentSomewhere w'.memory :=
    fun q => effect.spread fun q isReported => ⟨b, answered.reported q isReported⟩
  have clean : ∀ q ∈ (w'.memory b).node.ledger, ∀ y, q ∉ (w'.memory y).node.spent := by
    intro q isHeld y recorded
    rw [peer] at isHeld
    rw [effect.sameSpent] at recorded
    exact answered.clean q isHeld ⟨y, recorded⟩
  refine ⟨fun x y other => ?_, fun x q isHeld => ?_, fun x q member => ?_, fun x => ?_,
    fun x y other q isSpent isHeld => ?_⟩
  · rcases covers x with rfl | rfl
    · obtain rfl := (covers y).resolve_left other.symm
      exact linked
    · obtain rfl := (covers y).resolve_right other.symm
      rw [peer]
      exact answered.linked
  · rcases covers x with rfl | rfl
    · rcases ((effect.held q).mp isHeld).1 with own | merged
      · exact answered.within x q own
      · exact answered.offered q merged
    · exact answered.within x q (by rwa [peer] at isHeld)
  · rcases covers x with rfl | rfl
    · rcases answered.kept q member with inReply | own | isSpent
      · exact spread q (Or.inr inReply)
      · exact spread q (Or.inl own)
      · exact Or.inr (effect.mem_spentSomewhere.mpr isSpent)
    · rw [peer, effect.mem_spentSomewhere]
      exact answered.remains q member
  · rw [Finset.disjoint_left]
    intro q isHeld recorded
    rcases covers x with rfl | rfl
    · rw [effect.sameSpent] at recorded
      exact ((effect.held q).mp isHeld).2.1 recorded
    · exact clean q isHeld x recorded
  · rcases covers x with rfl | rfl
    · obtain rfl := (covers y).resolve_left other.symm
      obtain ⟨inEither, unspent, unreported⟩ := (effect.held q).mp isHeld
      rw [effect.sameSpent] at isSpent
      have outstanding := answered.revoking q inEither.symm isSpent
      exact persists q ((outstanding.resolve_left unreported).resolve_left unspent)
    · exact (clean q isHeld y isSpent).elim

end Moves

def LinkingUp (thread : Thread ι) : Prop :=
  match thread.activity with
  | .running (.exchange _ (.linkUpHello ..) _) => True
  | .waiting _ (.linkUpHello ..) _ => True
  | .running (.locked (.applyLinkUpReply _) _) => True
  | _ => False

/-- While a node is linking up it spends no bearer that nobody has spent yet.
Once it has received the Ack and until it has merged it, it handles no
notification of a bearer that the Ack reports as held and not as spent, unless
it has spent the bearer itself. -/
def Undisturbed (w : World ι) (event : Event ι) : Prop :=
  ∀ thread ∈ w.threads, LinkingUp thread →
    (∀ b, Spends w event thread.process b → b ∈ spentSomewhere w.memory) ∧
    ∀ sender ledger spent next, thread.activity = .running
        (.locked (.applyLinkUpReply (.linkUpAck sender ledger spent)) next) →
      ∀ m sender' b, event = .delivered m →
        w.inFlight[m]? = some (thread.process, .spentNotify sender' b) →
        b ∈ ledger → b ∉ spent → b ∈ (w.memory thread.process).node.spent

/-- How far the thread that links `a` to `b` has come. -/
inductive Stage (D : Deployment ι) (nodeId : ι → String) (a b : ι) (all : Finset String)
    (w : World ι) : Activity ι CriticalSection NodeShared String PeerMessage ExchangeFailure
      AdminReply → Prop
  | begun {addr : String} (listening : D.listener addr = some b) (begun : Begun all w.memory) :
      Stage D nodeId a b all w (.running (.locked .read fun shared =>
        HabiNode.exchangeWithPeer addr
          (.linkUpHello shared.node.nodeId shared.ledgerSorted shared.spentSorted)
          (HabiNode.finishLinkUp (nodeId b))))
  | offering {addr : String} {ledger spent : List String}
      (listening : D.listener addr = some b)
      (offered : Offered a b all ledger spent w.memory) :
      Stage D nodeId a b all w (.running (HabiNode.exchangeWithPeer addr
        (.linkUpHello (nodeId a) ledger spent) (HabiNode.finishLinkUp (nodeId b))))
  | offered {addr : String} {ledger spent : List String}
      (offered : Offered a b all ledger spent w.memory) :
      Stage D nodeId a b all w (.waiting b (.linkUpHello (nodeId a) ledger spent)
        fun answer => HabiNode.finishLinkUp (nodeId b)
          (answer.mapError (ExchangeFailure.detail addr)))
  | answered {ledger spent : List String}
      (answered : Answered D nodeId a b all ledger spent w) :
      Stage D nodeId a b all w (.running (HabiNode.finishLinkUp (nodeId b)
        (.ok (.linkUpAck (nodeId b) ledger spent))))
  | persisting (merged : Merged D nodeId all w) :
      Stage D nodeId a b all w (.running (.persist (.done .ok)))
  | replying (merged : Merged D nodeId all w) :
      Stage D nodeId a b all w (.running (.done .ok))
  | replied (merged : Merged D nodeId all w) : Stage D nodeId a b all w (.replied .ok)

structure Spending (D : Deployment ι) (nodeId : ι → String) (w : World ι) : Prop where
  complies : (handshake D nodeId).Complies (spentSets w.memory) w
  spends : ∀ (k : Nat) thread, w.threads[k]? = some thread → isSpend thread.command

/-- The thread `n` links `a` to `b`, and all others spend. -/
structure Linking (D : Deployment ι) (nodeId : ι → String) (a b : ι) (all : Finset String)
    (n : Nat) (w : World ι) : Prop where
  complies : (handshake D nodeId).Complies (spentSets w.memory) w
  others : ∀ k thread, k ≠ n → w.threads[k]? = some thread → isSpend thread.command
  stage : ∃ command activity, w.threads[n]? = some ⟨a, command, activity⟩ ∧
    Stage D nodeId a b all w activity

section Runs

variable {a b : ι} {all : Finset String} {n : Nat}

theorem outstanding_of_spends (configured : Configured D nodeId)
    (complies : (handshake D nodeId).Complies (spentSets w.memory) w)
    (edge : D.system.Step w event w') {x y : ι} {q : String} (distinct : x ≠ y)
    (linked : (w.memory y).isLinked (nodeId x) = true) (spends : Spends w event y q) :
    D.system.Outstanding w' x (.spentNotify (nodeId y) q) := by
  obtain ⟨k, command, next, rfl, present, isHeld⟩ := spends
  exact outstanding_of_spend (handshake_kept D nodeId) complies configured
    (fun _ _ _ _ _ owed => owed) linked distinct present isHeld edge

/-- Spends do not change how far the handshake has come. -/
theorem Stage.step {activity : Activity ι CriticalSection NodeShared String PeerMessage
      ExchangeFailure AdminReply} {command : Command}
    (stage : Stage D nodeId a b all w activity) (distinct : a ≠ b)
    (covers : ∀ i, i = a ∨ i = b) (configured : Configured D nodeId)
    (complies : (handshake D nodeId).Complies (spentSets w.memory) w)
    (present : w.threads[n]? = some ⟨a, command, activity⟩)
    (undisturbed : Undisturbed w event) (lossless : event.Lossless)
    (edge : D.system.Step w event w') (effect : SpendEffect w event w') :
    Stage D nodeId a b all w' activity := by
  have calm := undisturbed _ (List.mem_of_getElem? present)
  have announced : ∀ x y q, x ≠ y → (w.memory y).isLinked (nodeId x) = true →
      Spends w event y q → D.system.Outstanding w' x (.spentNotify (nodeId y) q) :=
    fun x y q other => outstanding_of_spends configured complies edge other
  have merging : Merged D nodeId all w → Merged D nodeId all w' := fun merged =>
    merged.step effect edge lossless fun x y q other =>
      announced x y q other (merged.linked y x other.symm)
  cases stage with
  | begun listening begun => exact .begun listening (begun.step effect)
  | offering listening offered =>
      exact .offering listening (offered.step effect covers (calm trivial).1)
  | offered offered => exact .offered (offered.step effect covers (calm trivial).1)
  | answered answered =>
      obtain ⟨unspent, unrevoked⟩ := calm trivial
      exact .answered (answered.step effect edge lossless covers
        (fun q => announced a b q distinct answered.linked) unspent
        (unrevoked _ _ _ _ rfl))
  | persisting merged => exact .persisting (merging merged)
  | replying merged => exact .replying (merging merged)
  | replied merged => exact .replied (merging merged)

/-- The moves of the handshake itself. -/
theorem Stage.advance {activity : Activity ι CriticalSection NodeShared String PeerMessage
      ExchangeFailure AdminReply} {command : Command} {move : Move ExchangeFailure}
    (stage : Stage D nodeId a b all w activity) (distinct : a ≠ b)
    (covers : ∀ i, i = a ∨ i = b) (named : ∀ i, (w.memory i).node.nodeId = nodeId i)
    (present : w.threads[n]? = some ⟨a, command, activity⟩)
    (lossless : (Event.thread n move : Event ι).Lossless)
    (edge : D.system.Step w (.thread n move) w') :
    ∃ activity', w'.threads[n]? = some ⟨a, command, activity'⟩ ∧
      Stage D nodeId a b all w' activity' := by
  have inBounds : n < w.threads.length := (List.getElem?_eq_some_iff.mp present).1
  cases stage with
  | begun listening begun =>
      obtain ⟨rfl, rfl⟩ := edge.of_locked present
      refine ⟨_, List.getElem?_set_self inBounds, ?_⟩
      rw [named a]
      apply Stage.offering listening
      simpa [CriticalSection.execute] using begun.offer covers
  | offering listening offered =>
      obtain ⟨rfl, peer, listening', rfl⟩ := edge.of_lossless_exchange present lossless
      obtain rfl : b = peer := Option.some_inj.mp (listening.symm.trans listening')
      exact ⟨_, List.getElem?_set_self inBounds, .offered offered⟩
  | offered offered =>
      obtain ⟨rfl, rfl⟩ := edge.of_lossless_waiting present lossless
      refine ⟨_, List.getElem?_set_self inBounds, ?_⟩
      rw [system_respond, handlePeerConnection_linkUpHello, named b]
      apply Stage.answered
      apply offered.answer distinct covers (mergeEffect_of_applyLinkUp rfl)
      simp
  | answered answered =>
      obtain ⟨rfl, rfl⟩ := edge.of_locked present
      refine ⟨_, List.getElem?_set_self inBounds, .persisting ?_⟩
      apply answered.merge distinct covers (mergeEffect_of_applyLinkUp rfl)
      · simp [CriticalSection.execute, applyLinkUpReply]
      · intro q outstanding
        exact (outstanding.step edge lossless).resolve_right (by simp)
  | persisting merged =>
      obtain ⟨isPersist, saved, same⟩ := edge.of_persist present
      have effect : SpendEffect w (.thread n move) w' :=
        spendEffect_of_unchanged (by simp) (by rw [same])
      refine ⟨.running (.done .ok), by rw [same]; exact List.getElem?_set_self inBounds,
        .replying (merged.step effect edge lossless ?_)⟩
      rintro x y q - ⟨k, command', next, isLocked, -⟩
      rcases isPersist with rfl | rfl <;> simp at isLocked
  | replying merged =>
      obtain ⟨rfl, same⟩ := edge.of_done present
      have effect : SpendEffect w (.thread n .replied) w' :=
        spendEffect_of_unchanged (by simp) (by rw [same])
      refine ⟨.replied .ok, by rw [same]; exact List.getElem?_set_self inBounds,
        .replied (merged.step effect edge lossless ?_)⟩
      rintro x y q - ⟨k, command', next, isLocked, -⟩
      simp at isLocked
  | replied merged => exact (edge.of_replied present).elim

theorem Spending.step (spending : Spending D nodeId w) (allowed : OnlySpends event)
    (edge : D.system.Step w event w') : Spending D nodeId w' where
  complies := (handshake_kept D nodeId).step spending.complies
    (allowed.2.mono spendsOrLinksUp_of_isSpend) (Or.inl allowed.1) edge
  spends k thread found := by
    rcases edge.thread_origin found with ⟨before, foundBefore, -, same⟩ |
      ⟨-, i, command, rfl, rfl⟩
    · rw [same]
      exact spending.spends k before foundBefore
    · exact allowed.2

theorem Spending.linking (spending : Spending D nodeId w) (distinct : a ≠ b)
    (covers : ∀ i, i = a ∨ i = b) (configured : Configured D nodeId) {order : IterationOrder}
    (begins : D.system.Step w (.started a ⟨.linkUp (nodeId b), order⟩) w') :
    Linking D nodeId a b ((w.memory a).node.ledger ∪ (w.memory b).node.ledger)
      w.threads.length w' := by
  obtain ⟨addr, found, listening⟩ := configured.lookup distinct.symm
  have linkUp : HabiNode.linkUp (D.peers a) (nodeId b) = .locked .read fun shared =>
      HabiNode.exchangeWithPeer addr
        (.linkUpHello shared.node.nodeId shared.ledgerSorted shared.spentSorted)
        (HabiNode.finishLinkUp (nodeId b)) := by
    simp only [HabiNode.linkUp, HabiNode.withPeerAddr, found]
  have within : ∀ x, ∀ q ∈ (w.memory x).node.ledger,
      q ∈ (w.memory a).node.ledger ∪ (w.memory b).node.ledger := by
    intro x q isHeld
    rcases covers x with rfl | rfl
    · exact Finset.mem_union_left _ isHeld
    · exact Finset.mem_union_right _ isHeld
  have allowed : (LockedProcesses.Event.started a ⟨.linkUp (nodeId b), order⟩ : Event ι).Starts
      (spendsOrLinksUp ·) := rfl
  have complies := (handshake_kept D nodeId).step spending.complies allowed (Or.inl trivial) begins
  cases begins
  refine ⟨complies, fun k thread other present => ?_, ⟨.linkUp (nodeId b), order⟩, _, ?_,
    .begun listening ⟨within, ?_⟩⟩
  · rw [List.getElem?_append] at present
    split at present
    · exact spending.spends k thread present
    · rename_i beyond
      have bound := (List.getElem?_eq_some_iff.mp present).1
      simp only [List.length_singleton] at bound
      omega
  · simp [HabiNode.handleAdminCommand, linkUp]
  · intro q member
    rcases Finset.mem_union.mp member with isHeld | isHeld
    · exact Or.inl ⟨a, isHeld⟩
    · exact Or.inl ⟨b, isHeld⟩

theorem Linking.step (linking : Linking D nodeId a b all n w) (distinct : a ≠ b)
    (covers : ∀ i, i = a ∨ i = b) (configured : Configured D nodeId)
    (allowed : OnlySpends event) (undisturbed : Undisturbed w event)
    (edge : D.system.Step w event w') : Linking D nodeId a b all n w' := by
  obtain ⟨lossless, starts⟩ := allowed
  obtain ⟨command, activity, present, stage⟩ := linking.stage
  have inBounds : n < w.threads.length := (List.getElem?_eq_some_iff.mp present).1
  refine ⟨(handshake_kept D nodeId).step linking.complies
      (starts.mono spendsOrLinksUp_of_isSpend) (Or.inl lossless) edge,
    fun k thread other found => ?_, ?_⟩
  · rcases edge.thread_origin found with ⟨before, foundBefore, -, same⟩ |
      ⟨-, i, command, rfl, rfl⟩
    · rw [same]
      exact linking.others k before other foundBefore
    · exact starts
  · by_cases isOwn : ∃ move, event = .thread n move
    · obtain ⟨move, rfl⟩ := isOwn
      obtain ⟨activity', present', stage'⟩ :=
        stage.advance distinct covers linking.complies.memory present lossless edge
      exact ⟨command, activity', present', stage'⟩
    · have others : ∀ move, event ≠ .thread n move := fun move same => isOwn ⟨move, same⟩
      refine ⟨command, activity, edge.thread_frame others present, ?_⟩
      apply stage.step distinct covers configured linking.complies present undisturbed lossless edge
      apply spend_effect linking.complies _ edge
      rintro k move thread rfl found
      exact linking.others k thread (fun same => others move (by rw [same])) found

end Runs

/-- Both nodes mark their link as up, they hold the same bearers, and neither
holds a bearer that either has spent. -/
structure Converged (nodeId : ι → String) (a b : ι) (memory : ι → NodeShared) : Prop where
  linked : (memory a).isLinked (nodeId b) = true ∧ (memory b).isLinked (nodeId a) = true
  equal : (memory a).node.ledger = (memory b).node.ledger
  unspent : ∀ x y, ∀ q ∈ (memory y).node.spent, q ∉ (memory x).node.ledger

variable {a b : ι}

/-- The ledgers after a handshake: what was held at its beginning, without what
has been spent by its end. -/
theorem Merged.ledger_eq {all : Finset String} (merged : Merged D nodeId all w)
    (covers : ∀ i, i = a ∨ i = b) (quiescent : w.Quiescent) (x : ι) :
    (w.memory x).node.ledger = all \ ((w.memory a).node.spent ∪ (w.memory b).node.spent) := by
  have somewhere : ∀ q, q ∈ spentSomewhere w.memory ↔
      q ∈ (w.memory a).node.spent ∨ q ∈ (w.memory b).node.spent := by
    intro q
    constructor
    · rintro ⟨y, isSpent⟩
      rcases covers y with rfl | rfl
      · exact Or.inl isSpent
      · exact Or.inr isSpent
    · rintro (isSpent | isSpent)
      · exact ⟨a, isSpent⟩
      · exact ⟨b, isSpent⟩
  ext q
  rw [Finset.mem_sdiff, Finset.mem_union, ← somewhere]
  constructor
  · intro isHeld
    refine ⟨merged.within x q isHeld, fun ⟨y, isSpent⟩ => ?_⟩
    by_cases same : x = y
    · subst same
      exact Finset.disjoint_left.mp (merged.disjoint x) isHeld isSpent
    · exact System.not_outstanding_of_quiescent quiescent
        (merged.revoking x y same q isSpent isHeld)
  · rintro ⟨member, unspent⟩
    exact (merged.remains x q member).resolve_right unspent

/-- In all undisturbed runs, a handshake among spends ends as one link-up step
would: with equal ledgers, which contain what both nodes held and neither has
spent. -/
theorem linkUp_handshake_converges (distinct : a ≠ b) (covers : ∀ i, i = a ∨ i = b)
    (configured : Configured D nodeId) (idle : start.Idle)
    (named : ∀ i, (start.memory i).node.nodeId = nodeId i)
    (before : Reaches D.system.Step (fun _ event => OnlySpends event) start w)
    {order : IterationOrder}
    (begins : D.system.Step w (.started a ⟨.linkUp (nodeId b), order⟩) w')
    (reaches : Reaches D.system.Step
      (fun w event => OnlySpends event ∧ Undisturbed w event) w' last)
    (quiescent : last.Quiescent) :
    Converged nodeId a b last.memory ∧ ∀ x, (last.memory x).node.ledger =
      ((w.memory a).node.ledger ∪ (w.memory b).node.ledger) \
        ((last.memory a).node.spent ∪ (last.memory b).node.spent) := by
  have spending : Spending D nodeId w := by
    apply before.invariant (Spending D nodeId)
    · exact ⟨Contract.complies_of_quiescent idle.quiescent named fun _ _ _ => trivial,
        by simp [idle.1]⟩
    · exact fun _ _ _ allowed spending edge => spending.step allowed edge
  have linking : Linking D nodeId a b ((w.memory a).node.ledger ∪ (w.memory b).node.ledger)
      w.threads.length last := by
    apply reaches.invariant (Linking D nodeId a b _ w.threads.length)
    · exact spending.linking distinct covers configured begins
    · exact fun _ _ _ allowed linking edge =>
        linking.step distinct covers configured allowed.1 allowed.2 edge
  obtain ⟨command, activity, present, stage⟩ := linking.stage
  have replied := quiescent.1 _ (List.mem_of_getElem? present)
  cases stage with
  | replied merged =>
      have ledger := merged.ledger_eq covers quiescent
      refine ⟨⟨⟨merged.linked a b distinct, merged.linked b a distinct.symm⟩,
        (ledger a).trans (ledger b).symm, fun x y q isSpent isHeld => ?_⟩, ledger⟩
      rw [ledger x, Finset.mem_sdiff] at isHeld
      rcases covers y with rfl | rfl
      · exact isHeld.2 (Finset.mem_union_left _ isSpent)
      · exact isHeld.2 (Finset.mem_union_right _ isSpent)
  | _ => simp [Activity.reply] at replied

instance (thread : Thread ι) : Decidable (LinkingUp thread) := by
  unfold LinkingUp
  split <;> infer_instance

def receiver (w : World ι) : Event ι → Option ι
  | .delivered m => w.inFlight[m]?.map Prod.fst
  | _ => none

omit [DecidableEq ι] in
theorem undisturbed_of_unconcerned
    (unconcerned : ∀ thread ∈ w.threads, LinkingUp thread →
      (spendAttempt w event).map Prod.fst ≠ some thread.process ∧
        receiver w event ≠ some thread.process) :
    Undisturbed w event := by
  intro thread member linkingUp
  obtain ⟨noSpend, noDelivery⟩ := unconcerned thread member linkingUp
  constructor
  · intro b spends
    simp [(spends_iff.mp spends).1] at noSpend
  · rintro sender ledger spent next - m sender' b rfl inFlight
    simp [receiver, inFlight] at noDelivery

def twoBearers : World (Fin ["N1", "N2"].length) :=
  idle (unlinkedNode ["N1", "N2"] fun name => if name = "N1" then {"b1"} else {"b2"})

def linkingUp : World (Fin ["N1", "N2"].length) :=
  { twoBearers with
    threads := [⟨0, (AdminMessage.linkUp "N2").command,
      .running ((cluster ["N1", "N2"]).system.handler 0 (AdminMessage.linkUp "N2").command)⟩] }

/-- `N2` spends a bearer of the merged ledger before `N1` merges the Ack. -/
theorem linkUp_handshake_converges_twoBearers :
    ∃ last : World (Fin ["N1", "N2"].length),
      Reaches (cluster ["N1", "N2"]).system.Step (fun _ event => OnlySpends event)
        linkingUp last ∧
      "b1" ∈ (last.memory 1).node.spent ∧ Converged ["N1", "N2"].get 0 1 last.memory := by
  obtain ⟨trace, last, run, labels, outcome⟩ := System.exists_run
    (cluster ["N1", "N2"]).system linkingUp
    [.thread 0 .locked, .thread 0 .requested, .thread 0 .served,
      .started 1 (AdminMessage.spendAt "b1").command, .thread 1 .locked,
      .thread 1 .persisted, .thread 1 .sent, .thread 0 .locked, .delivered 0,
      .thread 0 .persisted, .thread 0 .replied, .thread 1 .replied]
    (fun followed => decide (followed.2.Quiescent ∧
      "b1" ∈ (followed.2.memory 1).node.spent ∧
      ∀ entry ∈ followed.1, OnlySpends entry.2 ∧ ∀ thread ∈ entry.1.threads,
        LinkingUp thread →
          (spendAttempt entry.1 entry.2).map Prod.fst ≠ some thread.process ∧
            receiver entry.1 entry.2 ≠ some thread.process))
    (by decide)
  obtain ⟨quiescent, isSpent, within⟩ := of_decide_eq_true outcome
  have begins : (cluster ["N1", "N2"]).system.Step twoBearers
      (.started 0 ⟨.linkUp (["N1", "N2"].get 1), .sorted⟩) linkingUp := rfl
  have distinct : (0 : Fin ["N1", "N2"].length) ≠ 1 := by decide
  have converges := linkUp_handshake_converges distinct (by decide)
    (cluster_configured (by decide)) (idle_idle _) (fun _ => rfl) (Reaches.refl twoBearers)
    begins ⟨trace, run, fun entry member => ⟨(within entry member).1,
      undisturbed_of_unconcerned (within entry member).2⟩⟩ quiescent
  exact ⟨last, ⟨trace, run, fun entry member => (within entry member).1⟩, isSpent, converges.1⟩

/-- `N1` spends its bearer after it has read its state for the Hello, and `N2`
merges the bearer nevertheless. -/
theorem spend_during_handshake_diverges :
    ¬ ∀ w last, (cluster ["N1", "N2"]).system.Step twoBearers
        (.started 0 (AdminMessage.linkUp "N2").command) w →
        Reaches (cluster ["N1", "N2"]).system.Step (fun _ event => OnlySpends event) w last →
        last.Quiescent → Converged ["N1", "N2"].get 0 1 last.memory := by
  intro converges
  obtain ⟨trace, last, run, labels, outcome⟩ := System.exists_run
    (cluster ["N1", "N2"]).system linkingUp
    [.thread 0 .locked, .started 0 (AdminMessage.spendAt "b1").command, .thread 1 .locked,
      .thread 1 .persisted, .thread 1 .replied, .thread 0 .requested, .thread 0 .served,
      .thread 0 .locked, .thread 0 .persisted, .thread 0 .replied]
    (fun followed => decide (followed.2.Quiescent ∧
      "b1" ∈ (followed.2.memory 0).node.spent ∧ "b1" ∈ (followed.2.memory 1).node.ledger ∧
      ∀ entry ∈ followed.1, OnlySpends entry.2))
    (by decide)
  obtain ⟨quiescent, isSpent, isHeld, within⟩ := of_decide_eq_true outcome
  have converged := converges linkingUp last rfl ⟨trace, run, within⟩ quiescent
  exact converged.unspent 1 0 "b1" isSpent isHeld

end HabiCore.Deployment
