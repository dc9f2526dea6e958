import HabiCore.DebugText
import HabiCore.Journals
import HabiCore.NetworkRuns

/-!
# The audit trail

Every call that succeeds writes one entry into the log.  If node ids contain neither
of the marks that entries put between names, the log tells which calls these were,
and so what has become of the network.
-/

namespace HabiCore.Network

open LabelledRuns PerLinkSymmetric FinmapFolds

/-- The id contains no mark that an entry puts after a node id. -/
def Plain (id : String) : Prop :=
  '-' ∉ id.toList ∧ ':' ∉ id.toList

instance : DecidablePred Plain :=
  fun _ => inferInstanceAs (Decidable (_ ∧ _))

def Describes (entry : LogEntry) : Action String String → Prop
  | .linkDown n m => entry = ⟨"LinkDown", s!"{n}-{m}"⟩
  | .linkUp n m => entry = ⟨"LinkUp", s!"{n}-{m}"⟩
  | .propagate src dst => ∃ delivered : String, entry = ⟨"Propagate", s!"{src}->{dst}: {delivered}"⟩
  | .spendAt nn bb => entry = ⟨"SpendAt", s!"{nn}: {bb}"⟩

variable {V : Finset String} {net net' : Network} {n m b : String} {entry : LogEntry}

theorem insertLink_log {up : Bool} (called : net.insertLink n m up = some net') :
    net'.log = net.log := by
  unfold insertLink at called
  split at called
  · cases called
    rfl
  · cases called

theorem insertBothLinks_log {up : Bool} (called : net.insertBothLinks n m up = some net') :
    net'.log = net.log := by
  obtain ⟨oneWay, first, second⟩ := Option.bind_eq_some_iff.mp called
  exact (insertLink_log second).trans (insertLink_log first)

theorem updateNode_log {update : Node → Node} (called : net.updateNode n update = some net') :
    net'.log = net.log := by
  unfold updateNode at called
  split at called
  · cases called
    rfl
  · cases called

theorem linkDown_log (called : net.linkDown n m = some (.ok (), net')) :
    net'.log = net.log ++ [⟨"LinkDown", s!"{n}-{m}"⟩] := by
  unfold linkDown at called
  split at called
  · cases called
  · split at called
    · cases called
    · cases called
    · obtain ⟨after, inserted, recorded⟩ := Option.bind_eq_some_iff.mp called
      cases recorded
      rw [record, insertBothLinks_log inserted]

theorem linkUp_log (called : net.linkUp n m = some (.ok (), net')) :
    net'.log = net.log ++ [⟨"LinkUp", s!"{n}-{m}"⟩] := by
  unfold linkUp at called
  split at called
  · cases called
  · split at called
    · cases called
    · cases called
    · split at called
      · cases called
      · obtain ⟨nodeN, -, called⟩ := Option.bind_eq_some_iff.mp called
        obtain ⟨nodeM, -, called⟩ := Option.bind_eq_some_iff.mp called
        obtain ⟨first, atN, called⟩ := Option.bind_eq_some_iff.mp called
        obtain ⟨second, atM, called⟩ := Option.bind_eq_some_iff.mp called
        obtain ⟨after, inserted, recorded⟩ := Option.bind_eq_some_iff.mp called
        cases recorded
        rw [record, insertBothLinks_log inserted, updateNode_log atM, updateNode_log atN]

theorem propagate_log (called : net.propagate n m = some (.ok (), net')) :
    ∃ delivered : String, net'.log = net.log ++ [⟨"Propagate", s!"{n}->{m}: {delivered}"⟩] := by
  unfold propagate at called
  split at called
  · cases called
  · cases called
  · obtain ⟨nodeSrc, -, called⟩ := Option.bind_eq_some_iff.mp called
    obtain ⟨nodeDst, -, called⟩ := Option.bind_eq_some_iff.mp called
    dsimp only at called
    split at called
    · cases called
    · obtain ⟨after, updated, recorded⟩ := Option.bind_eq_some_iff.mp called
      cases recorded
      exact ⟨_, by rw [record, updateNode_log updated]⟩

theorem spendAt_log (called : net.spendAt n b = some (.ok (), net')) :
    net'.log = net.log ++ [⟨"SpendAt", s!"{n}: {b}"⟩] := by
  unfold spendAt at called
  dsimp only at called
  split at called
  · cases called
  · obtain ⟨after, updated, recorded⟩ := Option.bind_eq_some_iff.mp called
    cases recorded
    rw [record, updateNode_log updated]

theorem exists_description {action : Action String String}
    (called : net.apply action = some (.ok (), net')) :
    ∃ entry, Describes entry action ∧ net'.log = net.log ++ [entry] := by
  cases action with
  | linkDown => exact ⟨_, rfl, linkDown_log called⟩
  | linkUp => exact ⟨_, rfl, linkUp_log called⟩
  | propagate =>
      obtain ⟨delivered, written⟩ := propagate_log called
      exact ⟨_, ⟨delivered, rfl⟩, written⟩
  | spendAt => exact ⟨_, rfl, spendAt_log called⟩

theorem runConversionDay_log {participants : Option (Finset String)}
    (called : net.runConversionDay participants = (.ok (), net')) :
    ∃ cleared : String, net'.log = net.log ++ [⟨"ConversionDay", "participants=" ++
      DebugFormat.strings (sorted (participants.getD net.nodes.keys)) ++ ", " ++ cleared⟩] := by
  unfold runConversionDay at called
  dsimp only at called
  split at called
  · cases called
  · cases called
    exact ⟨_, rfl⟩

theorem pair_unique {n' m' : String} (plain : Plain n) (plain' : Plain n')
    (same : n ++ "-" ++ m = n' ++ "-" ++ m') : n = n' ∧ m = m' := by
  have dash : "-".toList = ['-'] := rfl
  have same : n.toList ++ '-' :: m.toList = n'.toList ++ '-' :: m'.toList := by
    simpa [String.toList_append, dash] using congrArg String.toList same
  simpa [String.toList_inj] using PrefixCodes.eq_of_marked plain.1 plain'.1 same

theorem transfer_unique {n' m' delivered delivered' : String} (plain : Plain n ∧ Plain m)
    (plain' : Plain n' ∧ Plain m')
    (same : n ++ "->" ++ m ++ ": " ++ delivered = n' ++ "->" ++ m' ++ ": " ++ delivered') :
    n = n' ∧ m = m' := by
  have arrow : "->".toList = ['-', '>'] := rfl
  have colon : ": ".toList = [':', ' '] := rfl
  have same : n.toList ++ '-' :: '>' :: (m.toList ++ ':' :: ' ' :: delivered.toList) =
      n'.toList ++ '-' :: '>' :: (m'.toList ++ ':' :: ' ' :: delivered'.toList) := by
    simpa [String.toList_append, arrow, colon] using congrArg String.toList same
  obtain ⟨sameSrc, onwards⟩ := PrefixCodes.eq_of_marked plain.1.1 plain'.1.1 same
  obtain ⟨sameDst, -⟩ := PrefixCodes.eq_of_marked plain.2.2 plain'.2.2 (List.cons.inj onwards).2
  exact ⟨String.toList_inj.mp sameSrc, String.toList_inj.mp sameDst⟩

theorem spend_unique {n' b' : String} (plain : Plain n) (plain' : Plain n')
    (same : n ++ ": " ++ b = n' ++ ": " ++ b') : n = n' ∧ b = b' := by
  have colon : ": ".toList = [':', ' '] := rfl
  have same : n.toList ++ ':' :: ' ' :: b.toList = n'.toList ++ ':' :: ' ' :: b'.toList := by
    simpa [String.toList_append, colon] using congrArg String.toList same
  simpa [String.toList_inj] using PrefixCodes.eq_of_marked plain.2 plain'.2 same

theorem participants_unique {taking taking' : Finset String} {cleared cleared' : String}
    (same : "participants=" ++ DebugFormat.strings (sorted taking) ++ ", " ++ cleared =
      "participants=" ++ DebugFormat.strings (sorted taking') ++ ", " ++ cleared') :
    taking = taking' := by
  have same := congrArg String.toList same
  simp only [String.toList_append, List.append_assoc] at same
  obtain ⟨sameSorted, -⟩ :=
    DebugFormat.strings_selfDelimiting (List.append_cancel_left same)
  rw [← sorted_toFinset taking, sameSorted, sorted_toFinset]

/-- An entry tells the action for which it is written. -/
theorem describes_unique {state : State String String} {action other : Action String String}
    (plain : ∀ id ∈ V, Plain id) (guard : Guard V state action) (guard' : Guard V state other)
    (describes : Describes entry action) (describes' : Describes entry other) :
    action = other := by
  cases action with
  | linkDown n m =>
      obtain rfl := describes
      cases other with
      | linkDown n' m' =>
          obtain ⟨rfl, rfl⟩ := pair_unique (plain n guard.1) (plain n' guard'.1)
            (LogEntry.mk.inj describes').2
          rfl
      | _ => simp [Describes] at describes'
  | linkUp n m =>
      obtain rfl := describes
      cases other with
      | linkUp n' m' =>
          obtain ⟨rfl, rfl⟩ := pair_unique (plain n guard.1) (plain n' guard'.1)
            (LogEntry.mk.inj describes').2
          rfl
      | _ => simp [Describes] at describes'
  | propagate src dst =>
      obtain ⟨delivered, rfl⟩ := describes
      cases other with
      | propagate src' dst' =>
          obtain ⟨delivered', written⟩ := describes'
          obtain ⟨rfl, rfl⟩ := transfer_unique ⟨plain src guard.1, plain dst guard.2.1⟩
            ⟨plain src' guard'.1, plain dst' guard'.2.1⟩ (LogEntry.mk.inj written).2
          rfl
      | _ => simp [Describes] at describes'
  | spendAt nn bb =>
      obtain rfl := describes
      cases other with
      | spendAt nn' bb' =>
          obtain ⟨rfl, rfl⟩ := spend_unique (plain nn guard.1) (plain nn' guard'.1)
            (LogEntry.mk.inj describes').2
          rfl
      | _ => simp [Describes] at describes'

theorem describes_ne_conversionDay {action : Action String String}
    (describes : Describes entry action) : entry.action ≠ "ConversionDay" := by
  cases action with
  | propagate =>
      obtain ⟨delivered, rfl⟩ := describes
      simp
  | _ =>
      obtain rfl := describes
      simp

theorem runConversionDay_congr {participants participants' : Option (Finset String)}
    (same : participants.getD net.nodes.keys = participants'.getD net.nodes.keys) :
    net.runConversionDay participants = net.runConversionDay participants' := by
  simp only [runConversionDay, same]

theorem CallStep.entry_cases (consistent : Consistent V net) {call : Call}
    (edge : CallStep net call net') (written : net'.log = net.log ++ [entry]) :
    (∃ action, net.apply action = some (.ok (), net') ∧ Guard V net.view action ∧
      Describes entry action) ∨
    ∃ participants, ∃ cleared : String, net.runConversionDay participants = (.ok (), net') ∧
      entry = ⟨"ConversionDay", "participants=" ++
        DebugFormat.strings (sorted (participants.getD net.nodes.keys)) ++ ", " ++ cleared⟩ := by
  rcases (edge.view_cases consistent).2 with rfl | ⟨action, -, called, guard, -⟩ |
    ⟨participants, -, called, -⟩
  · simp at written
  · obtain ⟨described, describes, written'⟩ := exists_description called
    obtain rfl : described = entry := by simpa using written'.symm.trans written
    exact Or.inl ⟨action, called, guard, describes⟩
  · obtain ⟨cleared, written'⟩ := runConversionDay_log called
    have same := written'.symm.trans written
    exact Or.inr ⟨participants, cleared, called, by simpa using same.symm⟩

/-- The log is a journal of the network. -/
theorem journaled (plain : ∀ id ∈ V, Plain id) :
    Journaled CallStep (Consistent V) Network.log where
  kept consistent edge := (edge.view_cases consistent).1
  written consistent edge := by
    rcases (edge.view_cases consistent).2 with same | ⟨action, -, called, -⟩ |
      ⟨participants, -, called, -⟩
    · exact Or.inl same
    · obtain ⟨entry, -, written⟩ := exists_description called
      exact Or.inr ⟨entry, written⟩
    · obtain ⟨cleared, written⟩ := runConversionDay_log called
      exact Or.inr ⟨_, written⟩
  determined := by
    intro net call after call' after' entry consistent edge edge' written written'
    rcases edge.entry_cases consistent written with ⟨action, called, guard, describes⟩ |
      ⟨participants, cleared, called, isEntry⟩
    · rcases edge'.entry_cases consistent written' with ⟨other, called', guard', describes'⟩ |
        ⟨participants, cleared, -, isEntry⟩
      · obtain rfl := describes_unique plain guard guard' describes describes'
        simpa [called] using called'
      · exact (describes_ne_conversionDay describes (by rw [isEntry])).elim
    · rcases edge'.entry_cases consistent written' with ⟨other, -, -, describes⟩ |
        ⟨participants', cleared', called', isEntry'⟩
      · exact (describes_ne_conversionDay describes (by rw [isEntry])).elim
      · have same := participants_unique (LogEntry.mk.inj (isEntry.symm.trans isEntry')).2
        rw [runConversionDay_congr same, called'] at called
        exact (Prod.mk.inj called).2.symm

/-- The audit trail tells everything.  Of networks that are reached by any calls from
one initial network with plain node ids, two with the same log are the same, and one
is a later state of another exactly if its log goes on from the other's. -/
theorem audit_trail_exact {nodeIds : List String} {start : Network}
    (initial : IsInitial nodeIds start) (plain : ∀ id ∈ nodeIds, Plain id)
    (reached : Reaches CallStep anyCall start net)
    (reached' : Reaches CallStep anyCall start net') :
    (net.log = net'.log → net = net') ∧
      (net.log <+: net'.log ↔ Reaches CallStep anyCall net net') := by
  have known : ∀ id ∈ nodeIds.toFinset, Plain id := fun id member =>
    plain id (List.mem_toFinset.mp member)
  refine ⟨?_, (journaled known).prefix_iff_reaches initial.consistent reached reached'⟩
  obtain ⟨trace, run, -⟩ := reached
  obtain ⟨trace', run', -⟩ := reached'
  exact (journaled known).eq_of_journal_eq initial.consistent run run'

/-- A network with a link down is a state before one with a spend as well. -/
theorem audit_trail_exact_makeInitNetwork :
    ∃ net net' : Network, net.log = [⟨"LinkDown", "N1-N2"⟩] ∧
      net'.log = [⟨"LinkDown", "N1-N2"⟩, ⟨"SpendAt", "N1: b1"⟩] ∧
      Reaches CallStep anyCall net net' := by
  have initial := makeInitNetwork_isInitial
  have holds : "b1" ∈ makeInitNetwork.ledgerOf "N1" := by decide
  have linked : makeInitNetwork.linked "N1" "N2" = true := by decide
  have guard : Guard (["N1", "N2", "N3"].toFinset : Finset String) makeInitNetwork.view
      (.linkDown "N1" "N2") := ⟨by simp, by simp, by decide, linked⟩
  obtain ⟨net, called, consistent, viewEq⟩ := apply_of_guard initial.consistent guard
  have guard' : Guard (["N1", "N2", "N3"].toFinset : Finset String) net.view
      (.spendAt "N1" "b1") := viewEq ▸ ⟨by simp, holds⟩
  obtain ⟨net', called', -, -⟩ := apply_of_guard consistent guard'
  have reached : Reaches CallStep anyCall makeInitNetwork net :=
    .single trivial (.of_apply called)
  have reached' : Reaches CallStep anyCall makeInitNetwork net' :=
    reached.tail trivial (.of_apply called')
  have written : net.log = [⟨"LinkDown", "N1-N2"⟩] := linkDown_log called
  have written' : net'.log = [⟨"LinkDown", "N1-N2"⟩, ⟨"SpendAt", "N1: b1"⟩] := by
    rw [spendAt_log called', written]
    rfl
  have continued : net.log <+: net'.log := by
    rw [written, written']
    decide
  have trail := audit_trail_exact initial (by decide +kernel) reached reached'
  exact ⟨net, net', written, written', trail.2.mp continued⟩

/-- With marks in their ids, one log may stand for several networks. -/
example : ∃ net net', (new ["a", "a-b", "b-c", "c"]).linkDown "a" "b-c" = some (.ok (), net) ∧
    (new ["a", "a-b", "b-c", "c"]).linkDown "a-b" "c" = some (.ok (), net') ∧
      net.log = net'.log ∧ net.linked "a" "b-c" ≠ net'.linked "a" "b-c" := by
  refine ⟨_, _, rfl, rfl, ?_⟩
  decide +kernel

end HabiCore.Network
