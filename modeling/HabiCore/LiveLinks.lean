import HabiCore.Deployment

/-!
# Live links

The nodes of a deployment keep their links, and only spend bearers and propagate
them.  A spent bearer that a node linked to the spender still holds is then about
to be revoked: the spender's notification is on its way or has still to be sent.
The one way out of this is a reply to a propagation request that is applied after
the notification it has crossed.
-/

namespace HabiCore.Deployment

open LockedProcesses LabelledRuns

variable {ι : Type} {D : Deployment ι} {nodeId : ι → String} {live : ι → ι → Prop}

/-- Every node has its id, and its links to all others are up. -/
structure Mesh (nodeId : ι → String) (memory : ι → NodeShared) : Prop where
  named : ∀ i, (memory i).node.nodeId = nodeId i
  linked : ∀ i j, j ≠ i → (memory i).isLinked (nodeId j) = true

def spendsOrPropagates (command : Command) : Bool :=
  match command.message with
  | .spendAt _ | .propagate _ => true
  | _ => false

/-- The memory of a node over live links: the links to the given nodes are up, and it
does not hold what it has spent. -/
def LiveMemory (nodeId : ι → String) (live : ι → ι → Prop) (i : ι) (found : NodeShared) : Prop :=
  found.node.nodeId = nodeId i ∧ (∀ j, live i j → found.isLinked (nodeId j) = true) ∧
    Disjoint found.node.ledger found.node.spent

def LiveSection : CriticalSection → Prop
  | .read | .localSpend _ | .applyPropagateReply _ => True
  | _ => False

def LiveMessage : PeerMessage → Prop
  | .propagateRequest _ | .spentNotify .. => True
  | _ => False

/-- The contract of runs over live links.  What is known are the spent sets. -/
def liveLinks (D : Deployment ι) (nodeId : ι → String) (live : ι → ι → Prop) :
    NodeContract (ι → Finset String) ι where
  memory _ := LiveMemory nodeId live
  message _ := LiveMessage
  request _ _ _ := LiveMessage
  answer _ _ _ := True
  body _ _ _ := LiveSection
  learned k i body found :=
    ∀ b, body = .localSpend b → b ∈ found.node.ledger → b ∈ k i
  owed := OwedForSpend D nodeId
  -- A spend that is acknowledged has happened.
  reply k i command reply :=
    ∀ b, command.message = .spendAt b → reply = .ok → b ∈ k i
  memory_mono _ admits := admits
  message_mono _ allowed := allowed
  request_mono _ allowed := allowed
  body_mono _ allowed := allowed
  reply_mono more known b isSpend isOk := more _ (known b isSpend isOk)

/-- The bearer is about to be revoked at `x`, if `x` holds it and `y` has spent it. -/
def RevokingAt (D : Deployment ι) (nodeId : ι → String) (x y : ι) (b : String)
    (w : World ι) : Prop :=
  b ∈ (w.memory y).node.spent → b ∈ (w.memory x).node.ledger →
    D.system.Outstanding w x (.spentNotify (nodeId y) b)

/-- A spent bearer in another node's ledger is about to be revoked there. -/
def Revoking (D : Deployment ι) (nodeId : ι → String) (w : World ι) : Prop :=
  ∀ x y, x ≠ y → ∀ b ∈ (w.memory y).node.spent, b ∈ (w.memory x).node.ledger →
    D.system.Outstanding w x (.spentNotify (nodeId y) b)

/-- If `x` applies a reply that contains the bearer after `y` has spent it, then
`x` has spent it itself or the notification of that spend is outstanding. -/
def FreshReply (D : Deployment ι) (nodeId : ι → String) (x y : ι) (b : String)
    (w : World ι) (event : Event ι) : Prop :=
  ∀ k command sender bearers next, event = .thread k .locked →
    w.threads[k]? = some ⟨x, command,
      .running (.locked (.applyPropagateReply (.propagateReply sender bearers)) next)⟩ →
    b ∈ bearers → b ∈ (w.memory y).node.spent →
      b ∈ (w.memory x).node.spent ∨ D.system.Outstanding w x (.spentNotify (nodeId y) b)

/-- No reply is applied that contains a bearer another node has spent, unless
the applying node has spent the bearer itself or the notification of that spend
is still outstanding. -/
def FreshReplies (D : Deployment ι) (nodeId : ι → String) (w : World ι)
    (event : Event ι) : Prop :=
  ∀ k x command sender bearers next, event = .thread k .locked →
    w.threads[k]? = some ⟨x, command,
      .running (.locked (.applyPropagateReply (.propagateReply sender bearers)) next)⟩ →
    ∀ b ∈ bearers, ∀ y, y ≠ x → b ∈ (w.memory y).node.spent →
      b ∈ (w.memory x).node.spent ∨ D.system.Outstanding w x (.spentNotify (nodeId y) b)

theorem FreshReplies.reply {w : World ι} {event : Event ι}
    (fresh : FreshReplies D nodeId w event) {x y : ι} (distinct : x ≠ y) (b : String) :
    FreshReply D nodeId x y b w event :=
  fun k command sender bearers next isLocked present inReply isSpent =>
    fresh k x command sender bearers next isLocked present b inReply y distinct.symm isSpent

section Handlers

variable {k : ι → Finset String} {i : ι} {command : Command}

theorem liveLinks_spendAt {bearer : String} (isSpend : command.message = .spendAt bearer) :
    (liveLinks D nodeId live).Honours i command (HabiNode.spendAt (D.peers i) bearer) k := by
  apply honours_spendAt trivial
  · exact fun _ _ admits => admits.1
  · intro later found learned isHeld
    refine ⟨trivial, fun b isSpend' _ => ?_⟩
    obtain rfl : bearer = b := by simpa [isSpend] using isSpend'
    exact learned bearer rfl isHeld
  · exact fun _ _ _ _ isOk => by simp at isOk
  · exact fun _ _ _ owed => owed

theorem liveLinks_propagate {peer : String} (isPropagate : command.message = .propagate peer) :
    (liveLinks D nodeId live).Honours i command (HabiNode.propagate (D.peers i) peer) k := by
  have reply : ∀ later reply, (liveLinks D nodeId live).reply later i command reply :=
    fun _ _ b isSpend _ => by simp [isPropagate] at isSpend
  have nothingOwed : ∀ {body found addr notify}, (∀ b, body ≠ .localSpend b) →
      ¬ (liveLinks D nodeId live).owed i body found addr notify := by
    rintro body found addr notify noSpend ⟨b, same, -⟩
    exact noSpend b same
  refine honours_withPeerAddr (fun addr => ⟨trivial, fun shared _ _ _ _ => ⟨?_, ?_⟩⟩)
    fun _ => reply _ _
  · dsimp only
    split
    · exact reply _ _
    · refine ⟨trivial, fun _ _ => ⟨fun answer _ => ?_, fun failure => reply _ _⟩⟩
      cases answer with
      | propagateReply sender bearers =>
          exact ⟨trivial, fun _ _ _ _ _ =>
            ⟨reply _ _, fun _ _ owed => (nothingOwed (by simp) owed).elim⟩⟩
      | _ => exact reply _ _
  · exact fun _ _ owed => (nothingOwed (by simp) owed).elim

theorem liveLinks_handler (allowed : spendsOrPropagates command) :
    (liveLinks D nodeId live).Honours i command
      (HabiNode.handleAdminCommand (D.peers i) command.order command.message) k := by
  obtain ⟨message, order⟩ := command
  cases message with
  | spendAt bearer => exact liveLinks_spendAt rfl
  | propagate peer => exact liveLinks_propagate rfl
  | linkUp | linkDown | status | seed | conversionDay => cases allowed

end Handlers

theorem liveLinks_execute {i : ι} {body : CriticalSection} {found : NodeShared}
    (admits : LiveMemory nodeId live i found)
    (allowed : LiveSection body) :
    LiveMemory nodeId live i (body.execute found) := by
  obtain ⟨named, linked, disjoint⟩ := admits
  cases body with
  | read => exact ⟨named, linked, disjoint⟩
  | localSpend bearer =>
      rcases found.localSpend_cases bearer with ⟨isHeld, outcome⟩ | ⟨-, outcome⟩
      · simp only [CriticalSection.execute, outcome]
        refine ⟨named, linked, ?_⟩
        rw [Finset.disjoint_left] at disjoint ⊢
        intro b isHeld' recorded
        rw [Finset.mem_erase] at isHeld'
        rcases Finset.mem_insert.mp recorded with rfl | old
        · exact isHeld'.1 rfl
        · exact disjoint isHeld'.2 old
      · simp only [CriticalSection.execute, outcome]
        exact ⟨named, linked, disjoint⟩
  | applyPropagateReply reply =>
      cases reply with
      | propagateReply sender bearers =>
          refine ⟨named, linked, ?_⟩
          rw [Finset.disjoint_left] at disjoint ⊢
          intro b isHeld recorded
          rcases Finset.mem_union.mp isHeld with old | new
          · exact disjoint old recorded
          · exact (Finset.mem_filter.mp new).2.1 recorded
      | _ => exact ⟨named, linked, disjoint⟩
  | applyLinkUpReply | applyLinkDown | burn | seed => exact allowed.elim

theorem liveLinks_gains {body : CriticalSection} (found : NodeShared)
    (allowed : LiveSection body) :
    ∀ b ∈ (body.execute found).node.ledger, b ∈ found.node.ledger ∨
      ∃ sender bearers, body = .applyPropagateReply (.propagateReply sender bearers) ∧
        b ∈ bearers ∧ b ∉ found.node.spent := by
  intro b member
  rcases mem_ledger_of_execute member with own | isBrought
  · exact Or.inl own
  · cases body with
    | applyPropagateReply reply =>
        cases reply with
        | propagateReply sender bearers =>
            obtain ⟨inReply, notSpent⟩ := Finset.mem_sdiff.mp isBrought
            exact Or.inr ⟨sender, bearers, rfl, List.mem_toFinset.mp inReply, notSpent⟩
        | _ => simp [CriticalSection.brings] at isBrought
    | read | localSpend => simp [CriticalSection.brings] at isBrought
    | applyLinkUpReply | applyLinkDown | burn | seed => exact allowed.elim

theorem liveLinks_respond {i : ι} {message : PeerMessage} {found : NodeShared}
    (admits : LiveMemory nodeId live i found)
    (allowed : LiveMessage message) :
    LiveMemory nodeId live i (handlePeerConnection found message).2 := by
  obtain ⟨named, linked, disjoint⟩ := admits
  cases message with
  | propagateRequest sender =>
      rw [handlePeerConnection_propagateRequest]
      exact ⟨named, linked, disjoint⟩
  | spentNotify sender bearer =>
      exact ⟨named, linked, disjoint.mono_left (Finset.erase_subset _ _)⟩
  | linkUpHello | linkUpAck | linkDown | propagateReply | statusRequest | statusReply =>
      exact allowed.elim

variable [DecidableEq ι]

theorem liveLinks_kept (D : Deployment ι) (nodeId : ι → String) (live : ι → ι → Prop) :
    (liveLinks D nodeId live).Kept D.system spentSets (spendsOrPropagates ·) where
  handler _ _ _ allowed := liveLinks_handler allowed
  execute memory i command body admits allowed := by
    refine ⟨?_, liveLinks_execute (admits i) allowed, ?_⟩
    · exact spentSets_update fun b old => mem_execute_spent.mpr (Or.inl old)
    · rintro b rfl isHeld
      have isSpent := mem_execute_spent.mpr (Or.inr ⟨rfl, isHeld⟩)
      simpa [spentSets] using isSpent
  respond memory i message admits allowed := by
    have isLive : LiveMessage message := by
      rcases allowed with isLive | ⟨_, _, isLive⟩ <;> exact isLive
    refine ⟨?_, liveLinks_respond (admits i) isLive, fun _ _ => trivial⟩
    exact spentSets_update (respond_spent _ _).symm.subset

variable {w w' start last : World ι} {event : Event ι} {trace : List (World ι × Event ι)}

/-- What a step adds to a ledger comes from a reply; every other change is a
loss, or the handling of a notification. -/
theorem liveLinks_step (complies : (liveLinks D nodeId live).Complies (spentSets w.memory) w)
    (edge : D.system.Step w event w') :
    (∀ x, ∀ b ∈ (w'.memory x).node.ledger, b ∈ (w.memory x).node.ledger ∨
      ∃ k command sender bearers next, event = .thread k .locked ∧
        w.threads[k]? = some ⟨x, command,
          .running (.locked (.applyPropagateReply (.propagateReply sender bearers)) next)⟩ ∧
        b ∈ bearers ∧ b ∉ (w.memory x).node.spent) ∧
    ∀ m x sender b, event = .delivered m → w.inFlight[m]? = some (x, .spentNotify sender b) →
      b ∉ (w'.memory x).node.ledger := by
  rcases edge.memory_cases with ⟨-, undelivered, same⟩ |
    ⟨k, i, command, body, next, rfl, present, changed⟩ |
    ⟨-, peer, message, handles, changed⟩
  · rw [same]
    exact ⟨fun x b isHeld => Or.inl isHeld,
      fun m x sender b isDelivered => (undelivered m isDelivered).elim⟩
  · have held := liveLinks_gains (w.memory i) (complies.body present)
    rw [changed]
    refine ⟨fun x b isHeld => ?_, by simp⟩
    by_cases same : x = i
    · subst same
      rw [Function.update_self] at isHeld
      rcases held b isHeld with old | ⟨sender, bearers, rfl, inReply, notSpent⟩
      · exact Or.inl old
      · exact Or.inr ⟨k, command, sender, bearers, next, rfl, present, inReply, notSpent⟩
    · rw [Function.update_of_ne same] at isHeld
      exact Or.inl isHeld
  · have isLive : LiveMessage message := by
      rcases complies.handled handles with isLive | ⟨_, _, isLive⟩ <;> exact isLive
    have delivered : ∀ m, event = .delivered m → w.inFlight[m]? = some (peer, message) := by
      rintro m rfl
      rcases handles with ⟨m', same, inFlight⟩ | ⟨k, move, i, command, next, same, -⟩
      · obtain rfl : m = m' := by simpa using same
        exact inFlight
      · simp at same
    rw [changed]
    cases message with
    | propagateRequest sender =>
        rw [system_respond, handlePeerConnection_propagateRequest, Function.update_eq_self]
        refine ⟨fun x b isHeld => Or.inl isHeld, ?_⟩
        intro m x sender b isDelivered inFlight
        simp [delivered m isDelivered] at inFlight
    | spentNotify sender bearer =>
        refine ⟨fun x b isHeld => Or.inl ?_, ?_⟩
        · by_cases same : x = peer
          · subst same
            exact Finset.mem_of_mem_erase (by simpa using isHeld)
          · simpa [same] using isHeld
        · intro m x sender' b isDelivered inFlight
          obtain ⟨rfl, rfl, rfl⟩ : peer = x ∧ sender = sender' ∧ bearer = b := by
            simpa [delivered m isDelivered] using inFlight
          simp
    | linkUpHello | linkUpAck | linkDown | propagateReply | statusRequest | statusReply =>
        exact isLive.elim

/-- The step lemma: a revocation stays outstanding as long as replies are fresh. -/
theorem revokingAt_step (configured : Configured D nodeId)
    (complies : (liveLinks D nodeId live).Complies (spentSets w.memory) w) {x y : ι} {b : String}
    (distinct : x ≠ y) (isLive : live y x) (revoking : RevokingAt D nodeId x y b w)
    (fresh : FreshReply D nodeId x y b w event) (lossless : event.Lossless)
    (edge : D.system.Step w event w') : RevokingAt D nodeId x y b w' := by
  obtain ⟨held, delivered⟩ := liveLinks_step complies edge
  intro isSpent isHeld
  have persists : D.system.Outstanding w x (.spentNotify (nodeId y) b) →
      D.system.Outstanding w' x (.spentNotify (nodeId y) b) := by
    intro outstanding
    rcases outstanding.step edge lossless with still | ⟨m, isDelivered, inFlight⟩
    · exact still
    · exact (delivered m x _ b isDelivered inFlight isHeld).elim
  rcases (mem_spent_step edge).mp isSpent with spentBefore | spends
  · rcases held x b isHeld with heldBefore |
      ⟨k, command, sender, bearers, next, isLocked, present, inReply, notSpent⟩
    · exact persists (revoking spentBefore heldBefore)
    · rcases fresh k command sender bearers next isLocked present inReply spentBefore with
        ownSpend | outstanding
      · exact (notSpent ownSpend).elim
      · exact persists outstanding
  · obtain ⟨k, command, next, rfl, present, heldAtSpend⟩ := spends
    exact outstanding_of_spend (liveLinks_kept D nodeId live) complies configured
      (fun _ _ _ _ _ owed => owed) ((complies.memory y).2.1 x isLive) distinct present
      heldAtSpend edge

/-- The steps of the runs in question: nothing is lost, and only spends and
propagations are started. -/
def OverLiveLinks (event : Event ι) : Prop :=
  event.Lossless ∧ event.Starts (spendsOrPropagates ·)

instance (event : Event ι) : Decidable (OverLiveLinks event) :=
  inferInstanceAs (Decidable (_ ∧ _))

omit [DecidableEq ι] in
theorem liveLinks_complies (idle : start.Idle)
    (named : ∀ i, (start.memory i).node.nodeId = nodeId i)
    (linked : ∀ i j, live i j → (start.memory i).isLinked (nodeId j) = true)
    (disjoint : ∀ i, Disjoint (start.memory i).node.ledger (start.memory i).node.spent) :
    (liveLinks D nodeId live).Complies (spentSets start.memory) start :=
  Contract.complies_of_quiescent idle.quiescent
    (fun i => ⟨named i, linked i, disjoint i⟩) (by simp [idle.1])

theorem liveLinks_complies_reaches
    (complies : (liveLinks D nodeId live).Complies (spentSets start.memory) start)
    (reaches : Reaches D.system.Step (fun _ event => OverLiveLinks event) start last) :
    (liveLinks D nodeId live).Complies (spentSets last.memory) last :=
  reaches.invariant (fun w => (liveLinks D nodeId live).Complies (spentSets w.memory) w) complies
    fun _ _ _ within complies edge =>
      (liveLinks_kept D nodeId live).step complies within.2 (Or.inl within.1) edge

/-- As long as replies with the bearer are fresh at `x`, its revocation there is
outstanding in every reachable state. -/
theorem revokingAt_reaches (configured : Configured D nodeId)
    (complies : (liveLinks D nodeId live).Complies (spentSets start.memory) start) {x y : ι}
    {b : String} (distinct : x ≠ y) (isLive : live y x) (revoking : RevokingAt D nodeId x y b start)
    (reaches : Reaches D.system.Step
      (fun w event => OverLiveLinks event ∧ FreshReply D nodeId x y b w event) start last) :
    RevokingAt D nodeId x y b last := by
  refine (reaches.invariant
    (fun w => (liveLinks D nodeId live).Complies (spentSets w.memory) w ∧
      RevokingAt D nodeId x y b w) ⟨complies, revoking⟩ ?_).2
  rintro w event next ⟨⟨lossless, allowed⟩, fresh⟩ ⟨complies, revoking⟩ edge
  exact ⟨(liveLinks_kept D nodeId live).step complies allowed (Or.inl lossless) edge,
    revokingAt_step configured complies distinct isLive revoking fresh lossless edge⟩

theorem revoking_reaches (configured : Configured D nodeId)
    (complies : (liveLinks D nodeId fun i j => j ≠ i).Complies (spentSets start.memory) start)
    (revoking : Revoking D nodeId start)
    (reaches : Reaches D.system.Step
      (fun w event => OverLiveLinks event ∧ FreshReplies D nodeId w event) start last) :
    Revoking D nodeId last := by
  intro x y distinct b
  exact revokingAt_reaches configured complies distinct distinct (revoking x y distinct b)
    (reaches.mono fun _ _ within => ⟨within.1, within.2.reply distinct b⟩)

def appliesReply (w : World ι) : Event ι → Bool
  | .thread k .locked =>
      match w.threads[k]? with
      | some ⟨_, _, .running (.locked (.applyPropagateReply _) _)⟩ => true
      | _ => false
  | _ => false

omit [DecidableEq ι] in
theorem freshReplies_of_quiet
    (quiet : (∀ i, (w.memory i).node.spent = ∅) ∨ appliesReply w event = false) :
    FreshReplies D nodeId w event := by
  rintro k x command sender bearers next rfl present b inReply y other isSpent
  rcases quiet with nothing | noReply
  · simp [nothing y] at isSpent
  · simp [appliesReply, present] at noReply

def linkedNode (names : List String) (ledger : String → Finset String)
    (i : Fin names.length) : NodeShared where
  node := { Node.new (names.get i) with ledger := ledger (names.get i) }
  links := ((names.eraseIdx i).map fun name => ⟨name, true⟩).toFinmap

theorem linkedNode_mesh (names : List String) (ledger : String → Finset String) :
    Mesh names.get (linkedNode names ledger) where
  named i := rfl
  linked i j other := by
    have member : names.get j ∈ names.eraseIdx i :=
      List.mem_eraseIdx_iff_getElem.mpr ⟨j, j.isLt, fun same => other (Fin.ext same), rfl⟩
    have found : (List.dlookup (names.get j) ((names.eraseIdx i).map fun name =>
        (⟨name, true⟩ : Sigma fun _ : String => Bool))).isSome := by
      rw [List.dlookup_isSome]
      simpa [List.keys, Function.comp_def] using member
    obtain ⟨up, upAt⟩ := Option.isSome_iff_exists.mp found
    obtain ⟨name, -, pairEq⟩ := List.mem_map.mp (List.of_mem_dlookup upAt)
    obtain ⟨-, rfl⟩ : name = names.get j ∧ true = up := by simpa using pairEq
    simp only [NodeShared.isLinked, linkedNode, Finmap.dlookup_list_toFinmap]
    rw [upAt]
    rfl

end HabiCore.Deployment
