import HabiCore.IndependentComponents
import Mathlib.Data.Set.Basic

/-!
# The lifecycle of a bearer

This is `BearerInstrumentLifecycle` over arbitrary types of bearers and parties.
A bearer is issued, goes from hand to hand and is redeemed; what happens to one
bearer does not depend on the others.
-/

namespace HabiCore.BearerLifecycle

open LabelledRuns

variable {Bearer Party : Type*}

inductive Stage where
  | issued
  | held
  | transferred
  | redeemed
  deriving DecidableEq

/-- The three variables of the specification; `none` stands for `"None"`. -/
structure State (Bearer Party : Type*) where
  ledger : Set Bearer
  holder : Bearer → Option Party
  state : Bearer → Stage

inductive Deed (Party : Type*) where
  | issue
  | transfer (source target : Party)
  | redeem

abbrev Event (Bearer Party : Type*) := Bearer × Deed Party

/-- `Init`, for the set `Bearers` and the party `"Treasury"` -/
structure Init (treasury : Party) (s : State Bearer Party) : Prop where
  ledger : s.ledger = Set.univ
  holder : ∀ b, s.holder b = some treasury
  state : ∀ b, s.state b = .issued

def Stage.Live (stage : Stage) : Prop :=
  stage = .held ∨ stage = .transferred

def Guard (s : State Bearer Party) : Event Bearer Party → Prop
  | (b, .issue) => s.state b = .issued
  | (b, .transfer source target) =>
      (s.state b).Live ∧ s.holder b = some source ∧ source ≠ target
  | (b, .redeem) => (s.state b).Live

def NoDoubleSpend (s : State Bearer Party) : Prop :=
  ∀ b ∈ s.ledger, s.state b = .redeemed → s.holder b = none

variable [DecidableEq Bearer]

/-- The primed values of the variables after an event; `alice` is the party to
which bearers are issued. -/
def primed (alice : Party) (s : State Bearer Party) : Event Bearer Party → State Bearer Party
  | (b, .issue) =>
      { s with
        state := Function.update s.state b .held
        holder := Function.update s.holder b (some alice) }
  | (b, .transfer _ target) =>
      { s with
        state := Function.update s.state b .transferred
        holder := Function.update s.holder b (some target) }
  | (b, .redeem) =>
      { s with
        state := Function.update s.state b .redeemed
        holder := Function.update s.holder b none }

def Next (alice : Party) (s : State Bearer Party) (event : Event Bearer Party)
    (s' : State Bearer Party) : Prop :=
  Guard s event ∧ s' = primed alice s event

abbrev Holding (Party : Type*) := Stage × Option Party

def State.holding (s : State Bearer Party) (b : Bearer) : Holding Party :=
  (s.state b, s.holder b)

def Does (alice : Party) : Holding Party → Deed Party → Holding Party → Prop
  | (stage, _), .issue, after => stage = .issued ∧ after = (.held, some alice)
  | (stage, holder), .transfer source target, after =>
      (stage.Live ∧ holder = some source ∧ source ≠ target) ∧ after = (.transferred, some target)
  | (stage, _), .redeem, after => stage.Live ∧ after = (.redeemed, none)

variable {treasury alice : Party} {s s' first last : State Bearer Party}
  {event : Event Bearer Party} {events : List (Event Bearer Party)}

theorem holding_update {stages : Bearer → Stage} {holders : Bearer → Option Party} {b : Bearer}
    {stage : Stage} {holder : Option Party} :
    s' = ⟨s.ledger, Function.update holders b holder, Function.update stages b stage⟩ ↔
      s'.ledger = s.ledger ∧ s'.holding b = (stage, holder) ∧
        ∀ c, c ≠ b → s'.holding c = (stages c, holders c) := by
  obtain ⟨ledger', holder', state'⟩ := s'
  simp only [State.holding, State.mk.injEq, Prod.mk.injEq, Function.eq_update_iff]
  constructor
  · rintro ⟨rfl, ⟨rfl, others⟩, rfl, others'⟩
    exact ⟨rfl, ⟨rfl, rfl⟩, fun c other => ⟨others' c other, others c other⟩⟩
  · rintro ⟨rfl, ⟨rfl, rfl⟩, others⟩
    exact ⟨rfl, ⟨rfl, fun c other => (others c other).2⟩, rfl, fun c other => (others c other).1⟩

/-- An event is a deed for its bearer, and leaves everything else as it is. -/
theorem next_iff_product :
    Next alice s event s' ↔
      s'.ledger = s.ledger ∧ Product (Does alice) s.holding event s'.holding := by
  obtain ⟨b, deed⟩ := event
  cases deed <;> simp only [Next, Guard, primed, holding_update, Product, Does, State.holding] <;>
    tauto

omit [DecidableEq Bearer] in
theorem state_eq_iff : s' = s ↔ s'.ledger = s.ledger ∧ s'.holding = s.holding := by
  obtain ⟨ledger', holder', state'⟩ := s'
  constructor
  · rintro rfl
    exact ⟨rfl, rfl⟩
  · rintro ⟨rfl, same⟩
    have each : ∀ b, state' b = s.state b ∧ holder' b = s.holder b := fun b =>
      Prod.mk.inj (congrFun same b)
    rw [State.mk.injEq]
    exact ⟨rfl, funext fun b => (each b).2, funext fun b => (each b).1⟩

/-- A run of the specification is an interleaving of what happens to each bearer. -/
theorem takes_iff_product :
    Takes (Next alice) first events last ↔
      last.ledger = first.ledger ∧
        Takes (Product (Does alice)) first.holding events last.holding := by
  induction events using List.reverseRecOn generalizing last with
  | nil => rw [takes_nil, takes_nil, state_eq_iff]
  | append_singleton events event ih =>
      simp only [takes_concat, ih, next_iff_product]
      constructor
      · rintro ⟨middle, ⟨sameBefore, before⟩, same, edge⟩
        exact ⟨same.trans sameBefore, middle.holding, before, edge⟩
      · rintro ⟨same, holdings, before, edge⟩
        exact ⟨⟨first.ledger, fun b => (holdings b).2, fun b => (holdings b).1⟩,
          ⟨rfl, before⟩, same, edge⟩

/-- Transfers from hand to hand, from a first keeper to a last one. -/
inductive Chain : Party → List (Deed Party) → Party → Prop
  | nil {keeper : Party} : Chain keeper [] keeper
  | pass {origin source target : Party} {deeds : List (Deed Party)} :
      Chain origin deeds source → source ≠ target →
        Chain origin (deeds ++ [.transfer source target]) target

/-- The deeds that a bearer can have gone through, and how they leave it. -/
def Custody (treasury alice : Party) (deeds : List (Deed Party)) (holding : Holding Party) :
    Prop :=
  (deeds = [] ∧ holding = (.issued, some treasury)) ∨
  ∃ transfers keeper, Chain alice transfers keeper ∧
    ((deeds = .issue :: transfers ∧
        holding = (if transfers = [] then .held else .transferred, some keeper)) ∨
      (deeds = .issue :: transfers ++ [.redeem] ∧ holding = (.redeemed, none)))

theorem custody_step {deeds : List (Deed Party)} {deed : Deed Party}
    {before after : Holding Party} (custody : Custody treasury alice deeds before)
    (does : Does alice before deed after) : Custody treasury alice (deeds ++ [deed]) after := by
  rcases custody with ⟨rfl, rfl⟩ | ⟨transfers, keeper, chain, ⟨rfl, rfl⟩ | ⟨rfl, rfl⟩⟩
  · cases deed with
    | issue => exact Or.inr ⟨[], alice, .nil, Or.inl ⟨rfl, does.2⟩⟩
    | transfer | redeem => simp [Does, Stage.Live] at does
  · cases deed with
    | issue =>
        simp only [Does] at does
        split at does <;> simp at does
    | transfer source target =>
        obtain ⟨⟨-, isKeeper, other⟩, rfl⟩ := does
        obtain rfl : keeper = source := by simpa using isKeeper
        exact Or.inr ⟨_, target, chain.pass other, Or.inl ⟨by simp, by simp⟩⟩
    | redeem => exact Or.inr ⟨transfers, keeper, chain, Or.inr ⟨by simp, does.2⟩⟩
  · cases deed <;> simp [Does, Stage.Live] at does

theorem exists_custody {deeds : List (Deed Party)} {deed : Deed Party} {after : Holding Party}
    (custody : Custody treasury alice (deeds ++ [deed]) after) :
    ∃ before, Custody treasury alice deeds before ∧ Does alice before deed after := by
  rcases custody with ⟨impossible, -⟩ | ⟨transfers, keeper, chain, ⟨isDeeds, rfl⟩ | ⟨isDeeds, rfl⟩⟩
  · simp at impossible
  · cases chain with
    | nil =>
        obtain ⟨rfl, rfl⟩ : deeds = [] ∧ deed = .issue := by
          simpa [List.append_eq_singleton_iff] using isDeeds
        exact ⟨_, Or.inl ⟨rfl, rfl⟩, rfl, rfl⟩
    | pass chain other =>
        rename_i source transfers
        rw [← List.cons_append] at isDeeds
        obtain ⟨rfl, same⟩ := List.append_inj' isDeeds rfl
        obtain rfl : deed = .transfer source keeper := by simpa using same
        refine ⟨_, Or.inr ⟨transfers, source, chain, Or.inl ⟨rfl, rfl⟩⟩, ⟨?_, rfl, other⟩, by simp⟩
        unfold Stage.Live
        split <;> simp
  · obtain ⟨rfl, same⟩ := List.append_inj' isDeeds rfl
    obtain rfl : deed = .redeem := by simpa using same
    refine ⟨_, Or.inr ⟨transfers, keeper, chain, Or.inl ⟨rfl, rfl⟩⟩, ?_, rfl⟩
    unfold Stage.Live
    split <;> simp

theorem takes_does_iff {deeds : List (Deed Party)} {after : Holding Party} :
    Takes (Does alice) (.issued, some treasury) deeds after ↔
      Custody treasury alice deeds after := by
  induction deeds using List.reverseRecOn generalizing after with
  | nil =>
      rw [takes_nil]
      simp [Custody]
  | append_singleton deeds deed ih =>
      rw [takes_concat]
      constructor
      · rintro ⟨before, taken, does⟩
        exact custody_step (ih.mp taken) does
      · intro custody
        obtain ⟨before, earlier, does⟩ := exists_custody custody
        exact ⟨before, ih.mpr earlier, does⟩

theorem takes_product_custody (initial : Init treasury first) :
    Takes (Product (Does alice)) first.holding events last.holding ↔
      ∀ b, Custody treasury alice (labelsOf b events) (last.state b, last.holder b) := by
  have issued : ∀ b, first.holding b = (.issued, some treasury) := fun b => by
    rw [State.holding, initial.state, initial.holder]
  rw [takes_product_iff]
  simp only [issued, takes_does_iff]
  rfl

/-- The runs of the specification, exactly: a sequence of events is possible if and
only if every bearer goes through a chain of custody, in whatever way the chains
are interleaved.  The chains determine the state that is reached. -/
theorem lifecycle_iff_custody (initial : Init treasury first) :
    Takes (Next alice) first events last ↔
      last.ledger = Set.univ ∧
        ∀ b, Custody treasury alice (labelsOf b events) (last.state b, last.holder b) := by
  rw [takes_iff_product, initial.ledger, takes_product_custody initial]

def unissued (treasury : Party) : State Bearer Party :=
  ⟨Set.univ, fun _ => some treasury, fun _ => .issued⟩

omit [DecidableEq Bearer] in
theorem unissued_init : Init treasury (unissued treasury : State Bearer Party) :=
  ⟨rfl, fun _ => rfl, fun _ => rfl⟩

/-- One bearer is passed on and redeemed while another stays where it was issued. -/
theorem lifecycle_iff_custody_two :
    Takes (Next "Alice") (unissued "Treasury")
      [(true, .issue), (false, .issue), (true, .transfer "Alice" "Bob"), (true, .redeem)]
      ⟨Set.univ, fun b => if b then none else some "Alice",
        fun b => if b then .redeemed else .held⟩ := by
  refine (lifecycle_iff_custody unissued_init).mpr ⟨rfl, fun b => Or.inr ?_⟩
  cases b with
  | true =>
      exact ⟨[.transfer "Alice" "Bob"], "Bob", Chain.nil.pass (by decide), Or.inr ⟨rfl, rfl⟩⟩
  | false => exact ⟨[], "Alice", .nil, Or.inl ⟨rfl, rfl⟩⟩

theorem Chain.no_redeem {origin keeper : Party} {deeds : List (Deed Party)}
    (chain : Chain origin deeds keeper) : Deed.redeem ∉ deeds := by
  induction chain with
  | nil => simp
  | pass _ _ ih => simp [ih]

theorem Custody.redeem_last {deeds before after : List (Deed Party)} {holding : Holding Party}
    (custody : Custody treasury alice deeds holding)
    (redeemed : deeds = before ++ .redeem :: after) : after = [] ∧ Deed.redeem ∉ before := by
  rcases custody with ⟨rfl, -⟩ | ⟨transfers, keeper, chain, ⟨rfl, -⟩ | ⟨rfl, -⟩⟩
  · simp at redeemed
  · have member : Deed.redeem ∈ .issue :: transfers := by simp [redeemed]
    simp [chain.no_redeem] at member
  · rcases List.eq_nil_or_concat' after with rfl | ⟨init, deed, rfl⟩
    · obtain ⟨rfl, -⟩ := List.append_inj' redeemed rfl
      exact ⟨rfl, by simp [chain.no_redeem]⟩
    · have regrouped :
          .issue :: transfers ++ [.redeem] = (before ++ .redeem :: init) ++ [deed] := by
        rw [redeemed]
        simp
      obtain ⟨same, -⟩ := List.append_inj' regrouped rfl
      have member : Deed.redeem ∈ .issue :: transfers := by simp [same]
      simp [chain.no_redeem] at member

theorem exists_next_iff :
    (∃ event s', Next alice s event s') ↔ ∃ b, s.state b ≠ .redeemed := by
  constructor
  · rintro ⟨⟨b, deed⟩, s', guard, -⟩
    refine ⟨b, fun redeemed => ?_⟩
    cases deed <;> simp [Guard, redeemed, Stage.Live] at guard
  · rintro ⟨b, unredeemed⟩
    cases stage : s.state b with
    | issued => exact ⟨(b, .issue), _, stage, rfl⟩
    | held => exact ⟨(b, .redeem), _, Or.inl stage, rfl⟩
    | transferred => exact ⟨(b, .redeem), _, Or.inr stage, rfl⟩
    | redeemed => exact (unredeemed stage).elim

/-- In every run a bearer is redeemed at most once, by its last deed, and nobody
holds it then.  A run can go on until all bearers are redeemed. -/
theorem redeemed_once (initial : Init treasury first)
    (taken : Takes (Next alice) first events last) :
    NoDoubleSpend last ∧
    (∀ b before after, labelsOf b events = before ++ .redeem :: after →
      after = [] ∧ Deed.redeem ∉ before) ∧
    ((∃ event next, Next alice last event next) ↔ ∃ b, last.state b ≠ .redeemed) := by
  have custody := (takes_product_custody initial).mp (takes_iff_product.mp taken).2
  refine ⟨fun b _ redeemed => ?_, fun b _ _ => (custody b).redeem_last, exists_next_iff⟩
  rcases custody b with ⟨-, holding⟩ | ⟨transfers, keeper, -, ⟨-, holding⟩ | ⟨-, holding⟩⟩
  · simp [redeemed] at holding
  · obtain ⟨stage, -⟩ := Prod.mk.inj holding
    rw [redeemed] at stage
    split at stage <;> cases stage
  · exact (Prod.mk.inj holding).2

theorem redeemed_once_two :
    ∃ last, Takes (Next "Alice") (unissued "Treasury" : State Bool String)
        ([(true, .issue)] ++ [(true, .redeem)]) last ∧
      NoDoubleSpend last ∧ last.state true = .redeemed := by
  have issue : Takes (Next "Alice") (unissued "Treasury" : State Bool String)
      ([] ++ [(true, .issue)]) _ := takes_concat.mpr ⟨_, takes_nil.mpr rfl, rfl, rfl⟩
  have redeem : Next "Alice" (primed "Alice" (unissued "Treasury") (true, .issue))
      (true, .redeem) _ := ⟨Or.inl rfl, rfl⟩
  have taken := takes_concat.mpr ⟨_, issue, redeem⟩
  exact ⟨_, taken, (redeemed_once unissued_init taken).1, by simp [primed]⟩

end HabiCore.BearerLifecycle
