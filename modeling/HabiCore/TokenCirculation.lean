import HabiCore.LabelledRuns
import Mathlib.Data.Set.Lattice

/-!
# Circulation of spendable tokens

Holders keep copies of tokens and record the tokens they have spent.  Copies
may be exchanged freely, but only from copies that exist; a spend is recorded
by a holder that has a copy.  Nothing is assumed about how copies travel, so
that any gossip protocol is an instance.

The file shows that a token without a copy stays extinct: nobody holds or
spends it again.  Everything about double spends follows from this fact.
-/

namespace TokenCirculation

open LabelledRuns

variable {Holder Token : Type*}

/-- The copies and the spend records of all holders. -/
structure Holdings (Holder Token : Type*) where
  held : Holder → Set Token
  spent : Holder → Set Token

namespace Holdings

def circulating (holdings : Holdings Holder Token) : Set Token :=
  {token | ∃ holder, token ∈ holdings.held holder}

def spenders (holdings : Holdings Holder Token) (token : Token) : Set Holder :=
  {holder | token ∈ holdings.spent holder}

def NoDoubleSpend (holdings : Holdings Holder Token) : Prop :=
  ∀ token, (holdings.spenders token).Subsingleton

def SpentExtinct (holdings : Holdings Holder Token) : Prop :=
  ∀ holder token, token ∈ holdings.spent holder →
    token ∉ holdings.circulating

end Holdings

/-- The two kinds of steps: copies move, or a holder spends a token. -/
inductive Change (Holder Token : Type*) where
  | moved
  | spend (spender : Holder) (token : Token)

/-- The steps of a circulation.  Copies never appear out of nowhere, and only
a spender's own record of the spent token is added. -/
def Step (before : Holdings Holder Token) :
    Change Holder Token → Holdings Holder Token → Prop
  | .moved, after =>
      after.circulating ⊆ before.circulating ∧ after.spent = before.spent
  | .spend spender token, after =>
      after.circulating ⊆ before.circulating ∧ token ∈ before.held spender ∧
        ∀ holder other, other ∈ after.spent holder ↔
          other ∈ before.spent holder ∨ holder = spender ∧ other = token

variable {before after last : Holdings Holder Token}
  {change : Change Holder Token} {token : Token}

theorem Step.circulating_subset (edge : Step before change after) :
    after.circulating ⊆ before.circulating := by
  cases change with
  | moved => exact edge.1
  | spend spender token => exact edge.1

theorem Step.spent_subset (edge : Step before change after) (holder : Holder) :
    before.spent holder ⊆ after.spent holder := by
  intro other recorded
  cases change with
  | moved => simpa [edge.2] using recorded
  | spend spender token => exact (edge.2.2 holder other).mpr (Or.inl recorded)

theorem Step.spenders_eq_of_extinct (edge : Step before change after)
    (extinct : token ∉ before.circulating) :
    after.spenders token = before.spenders token := by
  ext holder
  change token ∈ after.spent holder ↔ token ∈ before.spent holder
  cases change with
  | moved => rw [edge.2]
  | spend spender spentToken =>
      obtain ⟨-, isHeld, recorded⟩ := edge
      rw [recorded holder token]
      constructor
      · rintro (old | ⟨rfl, rfl⟩)
        · exact old
        · exact (extinct ⟨holder, isHeld⟩).elim
      · exact Or.inl

section Runs

variable {allowed : Holdings Holder Token → Change Holder Token → Prop}

theorem circulating_antitone (reaches : Reaches Step allowed before last) :
    last.circulating ⊆ before.circulating :=
  reaches.relates (fun first final => final.circulating ⊆ first.circulating)
    (fun _ => subset_rfl) (fun _ _ _ first second => second.trans first)
    (fun _ _ _ _ edge => edge.circulating_subset)

theorem spent_monotone (reaches : Reaches Step allowed before last)
    (holder : Holder) : before.spent holder ⊆ last.spent holder :=
  reaches.relates (fun first final => first.spent holder ⊆ final.spent holder)
    (fun _ => subset_rfl) (fun _ _ _ first second => first.trans second)
    (fun _ _ _ _ edge => edge.spent_subset holder)

/-- Extinction is final in every system whose steps only move and spend tokens: the
token stays without copies, and the set of its spenders no longer changes. -/
theorem extinct_of_reaches {State Label : Type*} {step : State → Label → State → Prop}
    {permitted : State → Label → Prop} {first final : State}
    (holdings : State → Holdings Holder Token)
    (circulates : ∀ {state label next}, step state label next →
      ∃ change, Step (holdings state) change (holdings next))
    (extinct : token ∉ (holdings first).circulating)
    (reaches : Reaches step permitted first final) :
    token ∉ (holdings final).circulating ∧
      (holdings final).spenders token = (holdings first).spenders token := by
  refine reaches.invariant (fun state => token ∉ (holdings state).circulating ∧
    (holdings state).spenders token = (holdings first).spenders token) ⟨extinct, rfl⟩ ?_
  rintro state label next - ⟨stillExtinct, sameSpenders⟩ edge
  obtain ⟨change, circulation⟩ := circulates edge
  exact ⟨fun copy => stillExtinct (circulation.circulating_subset copy),
    (circulation.spenders_eq_of_extinct stillExtinct).trans sameSpenders⟩

theorem extinct_forever (extinct : token ∉ before.circulating)
    (reaches : Reaches Step allowed before last) :
    token ∉ last.circulating ∧ last.spenders token = before.spenders token :=
  extinct_of_reaches id (fun edge => ⟨_, edge⟩) extinct reaches

theorem circulating_of_spent_again {firstSpender secondSpender : Holder}
    {beforeFirst afterFirst beforeSecond afterSecond : Holdings Holder Token}
    (_first : Step beforeFirst (.spend firstSpender token) afterFirst)
    (between : Reaches Step allowed afterFirst beforeSecond)
    (second : Step beforeSecond (.spend secondSpender token) afterSecond) :
    token ∈ afterFirst.circulating :=
  circulating_antitone between ⟨secondSpender, second.2.1⟩

end Runs

/-- A step keeps spent tokens extinct when a spend removes every copy. -/
theorem Step.spentExtinct (edge : Step before change after)
    (inv : before.SpentExtinct)
    (removes : ∀ spender token, change = .spend spender token →
      token ∉ after.circulating) :
    after.SpentExtinct := by
  intro holder token recorded copy
  cases change with
  | moved =>
      rw [edge.2] at recorded
      exact inv holder token recorded (edge.1 copy)
  | spend spender spentToken =>
      rcases (edge.2.2 holder token).mp recorded with old | ⟨-, rfl⟩
      · exact inv holder token old (edge.1 copy)
      · exact removes spender token rfl copy

/-- While spent tokens are extinct, no token is spent twice. -/
theorem Step.noDoubleSpend (edge : Step before change after)
    (inv : before.SpentExtinct) (single : before.NoDoubleSpend) :
    after.NoDoubleSpend := by
  intro token first firstSpent second secondSpent
  cases change with
  | moved =>
      simp only [Holdings.spenders, edge.2] at firstSpent secondSpent
      exact single token firstSpent secondSpent
  | spend spender spentToken =>
      have fresh : ∀ holder, spentToken ∉ before.spent holder :=
        fun holder recorded => inv holder spentToken recorded ⟨spender, edge.2.1⟩
      rcases (edge.2.2 first token).mp firstSpent with firstOld | ⟨firstIs, tokenIs⟩ <;>
        rcases (edge.2.2 second token).mp secondSpent with secondOld | ⟨secondIs, tokenIs'⟩
      · exact single token firstOld secondOld
      · exact (fresh first (tokenIs' ▸ firstOld)).elim
      · exact (fresh second (tokenIs ▸ secondOld)).elim
      · exact firstIs.trans secondIs.symm

end TokenCirculation
