import HabiCore.TokenCirculation
import Mathlib.Logic.Function.Basic
import Mathlib.Order.CompletePartialOrder

/-!
# The symmetric per-link specification

This is `DIL_CRDT_PerLink_Symmetric` over an arbitrary set `Nodes` of nodes
and an arbitrary type of bearers, with arbitrary initial ledgers.  A TLA+
function on `Nodes` is a function on the whole type; its values outside
`Nodes` play no role, since every action's guard places its nodes in `Nodes`.

The settlement barrier over a set of participants is stated on the same state.
-/

namespace HabiCore.PerLinkSymmetric

open TokenCirculation LabelledRuns

variable {Node Bearer : Type*}

/-- The three variables of the specification. -/
@[ext]
structure State (Node Bearer : Type*) where
  ledgers : Node → Set Bearer
  spent : Node → Set Bearer
  network : Node → Node → Prop

/-- The four actions of `Next`. -/
inductive Action (Node Bearer : Type*) where
  | linkDown (n m : Node)
  | linkUp (n m : Node)
  | propagate (src dst : Node)
  | spendAt (nn : Node) (bb : Bearer)
  deriving DecidableEq

/-- `Init`, with the initial ledgers left open. -/
def Init (Nodes : Set Node) (s : State Node Bearer) : Prop :=
  (∀ a, s.spent a = ∅) ∧
    ∀ a ∈ Nodes, ∀ b ∈ Nodes, s.network a b ↔ a ≠ b

def connectedTo (Nodes : Set Node) (s : State Node Bearer) (n : Node) : Set Node :=
  {m | m ∈ Nodes ∧ m ≠ n ∧ s.network n m}

def merged (s : State Node Bearer) (n m : Node) : Set Bearer :=
  (s.ledgers n ∪ s.ledgers m) \ (s.spent n ∪ s.spent m)

def deliverable (s : State Node Bearer) (src dst : Node) : Set Bearer :=
  (s.ledgers src \ s.spent dst) \ s.ledgers dst

/-- The enabling condition of an action, quantified over `Nodes` as in `Next`. -/
def Guard (Nodes : Set Node) (s : State Node Bearer) : Action Node Bearer → Prop
  | .linkDown n m => n ∈ Nodes ∧ m ∈ Nodes ∧ n ≠ m ∧ s.network n m
  | .linkUp n m => n ∈ Nodes ∧ m ∈ Nodes ∧ n ≠ m ∧ ¬ s.network n m
  | .propagate src dst =>
      src ∈ Nodes ∧ dst ∈ Nodes ∧ s.network src dst ∧ (deliverable s src dst).Nonempty
  | .spendAt nn bb => nn ∈ Nodes ∧ bb ∈ s.ledgers nn

section Primed

variable [DecidableEq Node]

/-- `[network EXCEPT ![n][m] = up, ![m][n] = up]` -/
def setLink (network : Node → Node → Prop) (n m : Node) (up : Prop) :
    Node → Node → Prop :=
  let oneWay := Function.update network n (Function.update (network n) m up)
  Function.update oneWay m (Function.update (oneWay m) n up)

theorem setLink_apply (network : Node → Node → Prop) (n m : Node) (up : Prop)
    (a b : Node) :
    setLink network n m up a b ↔
      (a = n ∧ b = m ∨ a = m ∧ b = n) ∧ up ∨
        ¬ (a = n ∧ b = m ∨ a = m ∧ b = n) ∧ network a b := by
  by_cases an : a = n <;> by_cases am : a = m <;> by_cases bn : b = n <;>
    by_cases bm : b = m <;>
    simp_all [setLink, Function.update_apply]

open Classical in
/-- The primed values of the variables after an action. -/
noncomputable def primed (Nodes : Set Node) (s : State Node Bearer) :
    Action Node Bearer → State Node Bearer
  | .linkDown n m => { s with network := setLink s.network n m False }
  | .linkUp n m =>
      { s with
        network := setLink s.network n m True
        ledgers := Function.update (Function.update s.ledgers n (merged s n m))
          m (merged s n m) }
  | .propagate src dst =>
      { s with
        ledgers := Function.update s.ledgers dst
          (s.ledgers dst ∪ deliverable s src dst) }
  | .spendAt nn bb =>
      { s with
        spent := Function.update s.spent nn (s.spent nn ∪ {bb})
        ledgers := fun mm =>
          if mm = nn ∨ mm ∈ connectedTo Nodes s nn then s.ledgers mm \ {bb}
          else s.ledgers mm }

theorem setLink_setLink (network : Node → Node → Prop) (n m : Node) (up up' : Prop) :
    setLink (setLink network n m up) n m up' = setLink network n m up' := by
  funext a b
  apply propext
  simp only [setLink_apply]
  tauto

theorem primed_linkUp_linkDown (Nodes : Set Node) (s : State Node Bearer) (n m : Node) :
    primed Nodes (primed Nodes s (.linkDown n m)) (.linkUp n m) =
      primed Nodes s (.linkUp n m) :=
  State.ext rfl rfl (setLink_setLink s.network n m False True)

theorem primed_linkDown_of_down {Nodes : Set Node} {s : State Node Bearer} {n m : Node}
    (there : ¬ s.network n m) (back : ¬ s.network m n) :
    primed Nodes s (.linkDown n m) = s := by
  refine State.ext rfl rfl ?_
  funext a b
  apply propext
  simp only [primed, setLink_apply]
  constructor
  · rintro (⟨-, up⟩ | ⟨-, old⟩)
    · exact up.elim
    · exact old
  · intro old
    refine Or.inr ⟨?_, old⟩
    rintro (⟨rfl, rfl⟩ | ⟨rfl, rfl⟩)
    · exact there old
    · exact back old

theorem primed_propagate_of_empty {Nodes : Set Node} {s : State Node Bearer} {src dst : Node}
    (nothing : deliverable s src dst = ∅) : primed Nodes s (.propagate src dst) = s := by
  refine State.ext ?_ rfl rfl
  simp [primed, nothing]

def Next (Nodes : Set Node) (s : State Node Bearer)
    (action : Action Node Bearer) (s' : State Node Bearer) : Prop :=
  Guard Nodes s action ∧ s' = primed Nodes s action

end Primed

/-- The global check: no bearer has been spent by two nodes. -/
def NoDoubleSpendAcrossNodes (Nodes : Set Node) (s : State Node Bearer) : Prop :=
  ∀ b, {n | n ∈ Nodes ∧ b ∈ s.spent n}.Subsingleton

/-- The local check: linked nodes do not hold what either of them has spent. -/
def PairwiseSyncedNoDoubleSpend (Nodes : Set Node) (s : State Node Bearer) : Prop :=
  ∀ n1 ∈ Nodes, ∀ n2 ∈ Nodes, s.network n1 n2 →
    ∀ b, b ∈ s.spent n1 ∨ b ∈ s.spent n2 → b ∉ s.ledgers n1 ∧ b ∉ s.ledgers n2

/-- What every state of the specification satisfies by construction. -/
structure Sound (Nodes : Set Node) (s : State Node Bearer) : Prop where
  symmetric : ∀ a b, s.network a b → s.network b a
  irreflexive : ∀ a, ¬ s.network a a
  disjoint : ∀ a, Disjoint (s.ledgers a) (s.spent a)

theorem sound_of_init {Nodes : Set Node} {s : State Node Bearer}
    (init : Init Nodes s) (within : ∀ a b, s.network a b → a ∈ Nodes ∧ b ∈ Nodes) :
    Sound Nodes s where
  symmetric a b linked := by
    obtain ⟨aIn, bIn⟩ := within a b linked
    rw [init.2 a aIn b bIn] at linked
    exact (init.2 b bIn a aIn).mpr linked.symm
  irreflexive a linked := by
    obtain ⟨aIn, -⟩ := within a a linked
    exact (init.2 a aIn a aIn).mp linked rfl
  disjoint a := by simp [init.1 a]

section Steps

variable [DecidableEq Node] {Nodes : Set Node} {s s' : State Node Bearer}
  {action : Action Node Bearer}

theorem setLink_symmetric {network : Node → Node → Prop} {n m : Node} {up : Prop}
    (symmetric : ∀ a b, network a b → network b a) (a b : Node)
    (linked : setLink network n m up a b) : setLink network n m up b a := by
  rw [setLink_apply] at linked ⊢
  rcases linked with ⟨written, isUp⟩ | ⟨unwritten, old⟩
  · exact Or.inl ⟨by tauto, isUp⟩
  · exact Or.inr ⟨by tauto, symmetric a b old⟩

theorem setLink_irreflexive {network : Node → Node → Prop} {n m : Node} {up : Prop}
    (distinct : n ≠ m) (irreflexive : ∀ a, ¬ network a a) (a : Node) :
    ¬ setLink network n m up a a := by
  rw [setLink_apply]
  rintro (⟨⟨rfl, same⟩ | ⟨rfl, same⟩, -⟩ | ⟨-, old⟩)
  · exact distinct same
  · exact distinct same.symm
  · exact irreflexive a old

theorem symmetric_primed (symmetric : ∀ a b, s.network a b → s.network b a)
    (action : Action Node Bearer) (a b : Node)
    (linked : (primed Nodes s action).network a b) : (primed Nodes s action).network b a := by
  cases action with
  | linkDown n m => exact setLink_symmetric symmetric a b linked
  | linkUp n m => exact setLink_symmetric symmetric a b linked
  | propagate src dst => exact symmetric a b linked
  | spendAt nn bb => exact symmetric a b linked

theorem sound_next (sound : Sound Nodes s) (next : Next Nodes s action s') :
    Sound Nodes s' := by
  obtain ⟨enabled, rfl⟩ := next
  cases action with
  | linkDown n m =>
      exact ⟨symmetric_primed sound.symmetric _,
        setLink_irreflexive enabled.2.2.1 sound.irreflexive, sound.disjoint⟩
  | linkUp n m =>
      refine ⟨symmetric_primed sound.symmetric _,
        setLink_irreflexive enabled.2.2.1 sound.irreflexive, ?_⟩
      intro a
      rw [Set.disjoint_left]
      intro b held recorded
      simp only [primed, Function.update_apply, merged] at held recorded
      split at held
      · subst a; exact held.2 (Or.inr recorded)
      · split at held
        · subst a; exact held.2 (Or.inl recorded)
        · exact Set.disjoint_left.mp (sound.disjoint a) held recorded
  | propagate src dst =>
      refine ⟨sound.symmetric, sound.irreflexive, ?_⟩
      intro a
      rw [Set.disjoint_left]
      intro b held recorded
      simp only [primed, Function.update_apply, deliverable] at held recorded
      split at held
      · subst a
        rcases held with old | fresh
        · exact Set.disjoint_left.mp (sound.disjoint dst) old recorded
        · exact fresh.1.2 recorded
      · exact Set.disjoint_left.mp (sound.disjoint a) held recorded
  | spendAt nn bb =>
      refine ⟨sound.symmetric, sound.irreflexive, ?_⟩
      intro a
      rw [Set.disjoint_left]
      intro b held recorded
      by_cases spender : a = nn
      · subst a
        simp only [primed, true_or, if_true, Function.update_self] at held recorded
        rcases recorded with old | isNew
        · exact Set.disjoint_left.mp (sound.disjoint nn) held.1 old
        · exact held.2 isNew
      · simp only [primed, Function.update_of_ne spender] at held recorded
        have old : b ∈ s.ledgers a := by
          split at held
          · exact held.1
          · exact held
        exact Set.disjoint_left.mp (sound.disjoint a) old recorded

/-- `spent[n]` grows, and only by an action `SpendAt(n, _)`. -/
theorem spent_next (next : Next Nodes s action s') (n : Node) :
    s'.spent n = s.spent n ∨
      ∃ b, action = .spendAt n b ∧ s'.spent n = s.spent n ∪ {b} := by
  obtain ⟨-, rfl⟩ := next
  cases action with
  | spendAt nn bb =>
      by_cases spender : n = nn
      · subst n
        exact Or.inr ⟨bb, rfl, by simp [primed]⟩
      · exact Or.inl (by simp [primed, Function.update_of_ne spender])
  | _ => exact Or.inl rfl

end Steps

/-- The bearers spent by some participant. -/
def burnSet (participants : Set Node) (s : State Node Bearer) : Set Bearer :=
  {b | ∃ n ∈ participants, b ∈ s.spent n}

def Conflicted (participants : Set Node) (s : State Node Bearer) : Prop :=
  ∃ b, ∃ n ∈ participants, ∃ m ∈ participants,
    n ≠ m ∧ b ∈ s.spent n ∧ b ∈ s.spent m

open Classical in
/-- A settlement removes every burned bearer from the participants' ledgers. -/
noncomputable def settled (participants : Set Node) (s : State Node Bearer) :
    State Node Bearer :=
  { s with
    ledgers := fun n =>
      if n ∈ participants then s.ledgers n \ burnSet participants s
      else s.ledgers n }

theorem settled_ledgers_subset (participants : Set Node) (s : State Node Bearer)
    (n : Node) : (settled participants s).ledgers n ⊆ s.ledgers n := by
  intro b held
  simp only [settled] at held
  split at held
  · exact held.1
  · exact held

theorem sound_settled {Nodes : Set Node} {s : State Node Bearer}
    (sound : Sound Nodes s) (participants : Set Node) :
    Sound Nodes (settled participants s) where
  symmetric := sound.symmetric
  irreflexive := sound.irreflexive
  disjoint a := (sound.disjoint a).mono_left (settled_ledgers_subset participants s a)

/-- Ledgers are copies of bearers, `spent` sets are spend records. -/
def holdings (s : State Node Bearer) : Holdings Node Bearer where
  held := s.ledgers
  spent := s.spent

/-- Only `SpendAt` spends; the other actions move copies. -/
def Action.change : Action Node Bearer → Change Node Bearer
  | .spendAt nn bb => .spend nn bb
  | _ => .moved

/-- Every action is a step of the token circulation. -/
theorem circulates_next [DecidableEq Node] {Nodes : Set Node}
    {s s' : State Node Bearer} {action : Action Node Bearer}
    (next : Next Nodes s action s') :
    TokenCirculation.Step (holdings s) action.change (holdings s') := by
  obtain ⟨enabled, rfl⟩ := next
  cases action with
  | linkDown n m => exact ⟨subset_rfl, rfl⟩
  | linkUp n m =>
      refine ⟨?_, rfl⟩
      rintro b ⟨a, held⟩
      simp only [holdings, primed, Function.update_apply, merged] at held
      have source : ∀ held : b ∈ (s.ledgers n ∪ s.ledgers m) \ (s.spent n ∪ s.spent m),
          b ∈ (holdings s).circulating := fun held => by
        rcases held.1 with left | right
        · exact ⟨n, left⟩
        · exact ⟨m, right⟩
      split at held
      · exact source held
      · split at held
        · exact source held
        · exact ⟨a, held⟩
  | propagate src dst =>
      refine ⟨?_, rfl⟩
      rintro b ⟨a, held⟩
      simp only [holdings, primed, Function.update_apply, deliverable] at held
      split at held
      · rcases held with old | fresh
        · exact ⟨dst, old⟩
        · exact ⟨src, fresh.1.1⟩
      · exact ⟨a, held⟩
  | spendAt nn bb =>
      refine ⟨?_, enabled.2, ?_⟩
      · rintro b ⟨a, held⟩
        simp only [holdings, primed] at held
        split at held
        · exact ⟨a, held.1⟩
        · exact ⟨a, held⟩
      · intro holder other
        simp only [holdings, primed, Function.update_apply]
        split
        · subst holder; simp [or_comm]
        · simp_all

theorem circulates_settled (participants : Set Node) (s : State Node Bearer) :
    TokenCirculation.Step (holdings s) .moved (holdings (settled participants s)) := by
  refine ⟨?_, rfl⟩
  rintro b ⟨a, held⟩
  exact ⟨a, settled_ledgers_subset participants s a held⟩

/-- After a settlement of all nodes without conflict, no burned bearer has a
copy. -/
theorem extinct_settled {Nodes : Set Node} {s : State Node Bearer}
    (within : ∀ a ∉ Nodes, s.ledgers a = ∅) {b : Bearer}
    (burned : b ∈ burnSet Nodes s) :
    b ∉ (holdings (settled Nodes s)).circulating := by
  rintro ⟨a, held⟩
  simp only [holdings, settled] at held
  split at held
  · exact held.2 burned
  · rename_i outside
    simp [within a outside] at held

theorem unlinked_holder_of_circulating [DecidableEq Node] {Nodes : Set Node}
    {s s' : State Node Bearer} {x : Node} {b : Bearer}
    (within : ∀ a ∉ Nodes, s.ledgers a = ∅)
    (spend : Next Nodes s (.spendAt x b) s')
    (copy : b ∈ (holdings s').circulating) :
    ∃ y ∈ Nodes, y ≠ x ∧ ¬ s.network x y ∧ b ∈ s.ledgers y := by
  obtain ⟨-, rfl⟩ := spend
  obtain ⟨y, held⟩ := copy
  simp only [holdings, primed] at held
  split at held
  · exact (held.2 rfl).elim
  · rename_i notTarget
    have known : y ∈ Nodes := by
      by_contra outside
      simp [within y outside] at held
    refine ⟨y, known, fun same => notTarget (Or.inl same), ?_, held⟩
    intro linked
    exact notTarget (Or.inr ⟨known, fun same => notTarget (Or.inl same), linked⟩)

section Renaming

variable {Node' : Type*} {rename : Node → Node'} {s : State Node Bearer}
  {t : State Node' Bearer}

/-- `t` has the nodes of `s` under other names; of further nodes nothing is said. -/
structure Renames (rename : Node → Node') (s : State Node Bearer)
    (t : State Node' Bearer) : Prop where
  ledgers : ∀ n, t.ledgers (rename n) = s.ledgers n
  spent : ∀ n, t.spent (rename n) = s.spent n
  network : ∀ n m, t.network (rename n) (rename m) ↔ s.network n m

def Action.map (rename : Node → Node') : Action Node Bearer → Action Node' Bearer
  | .linkDown n m => .linkDown (rename n) (rename m)
  | .linkUp n m => .linkUp (rename n) (rename m)
  | .propagate src dst => .propagate (rename src) (rename dst)
  | .spendAt nn bb => .spendAt (rename nn) bb

theorem Renames.guard (renames : Renames rename s t) (injective : Function.Injective rename)
    (action : Action Node Bearer) :
    Guard (Set.range rename) t (action.map rename) ↔ Guard Set.univ s action := by
  cases action <;>
    simp [Guard, Action.map, deliverable, renames.ledgers, renames.spent, renames.network,
      injective.eq_iff]

variable [DecidableEq Node] [DecidableEq Node']

/-- Actions do not depend on the names of the nodes. -/
theorem Renames.primed (renames : Renames rename s t) (injective : Function.Injective rename)
    (action : Action Node Bearer) :
    Renames rename (primed Set.univ s action)
      (primed (Set.range rename) t (action.map rename)) := by
  cases action with
  | linkDown n m =>
      refine ⟨renames.ledgers, renames.spent, fun a b => ?_⟩
      simp only [PerLinkSymmetric.primed, Action.map, setLink_apply, injective.eq_iff,
        renames.network]
  | linkUp n m =>
      refine ⟨fun a => ?_, renames.spent, fun a b => ?_⟩
      · simp only [PerLinkSymmetric.primed, Action.map, Function.update_apply, injective.eq_iff,
          merged, renames.ledgers, renames.spent]
      · simp only [PerLinkSymmetric.primed, Action.map, setLink_apply, injective.eq_iff,
          renames.network]
  | propagate src dst =>
      refine ⟨fun a => ?_, renames.spent, renames.network⟩
      simp only [PerLinkSymmetric.primed, Action.map, Function.update_apply, injective.eq_iff,
        deliverable, renames.ledgers, renames.spent]
  | spendAt nn bb =>
      refine ⟨fun a => ?_, fun a => ?_, renames.network⟩
      · have targets : (rename a = rename nn ∨
            rename a ∈ connectedTo (Set.range rename) t (rename nn)) ↔
              (a = nn ∨ a ∈ connectedTo Set.univ s nn) := by
          simp [connectedTo, injective.eq_iff, renames.network]
        simp only [PerLinkSymmetric.primed, Action.map, renames.ledgers]
        classical exact if_congr targets rfl rfl
      · simp only [PerLinkSymmetric.primed, Action.map, Function.update_apply,
          injective.eq_iff, renames.spent]

omit [DecidableEq Node] [DecidableEq Node'] in
theorem Renames.conflicted (renames : Renames rename s t)
    (injective : Function.Injective rename) :
    Conflicted (Set.range rename) t ↔ Conflicted Set.univ s := by
  simp [Conflicted, injective.eq_iff, renames.spent]

omit [DecidableEq Node] [DecidableEq Node'] in
theorem Renames.settled (renames : Renames rename s t) :
    Renames rename (settled Set.univ s) (settled (Set.range rename) t) := by
  refine ⟨fun a => ?_, renames.spent, renames.network⟩
  simp [PerLinkSymmetric.settled, burnSet, renames.ledgers, renames.spent]

end Renaming

end HabiCore.PerLinkSymmetric
