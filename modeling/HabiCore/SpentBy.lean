import HabiCore.DebugFormat
import HabiCore.Node

/-!
# The spenders of every bearer

Both Conversion Day implementations enter the spent sets of their participants
into a table from bearers to spenders, and report the bearers with more than
one spender.
-/

namespace HabiCore

/-- `HashMap<String, HashSet<String>>`, from bearers to node ids -/
abbrev SpentBy := StringMap (Finset String)

namespace SpentBy

def spendersOf (spentBy : SpentBy) (bearer : String) : Finset String :=
  (spentBy.lookup bearer).getD ∅

/-- `spent_by.entry(bearer).or_default().insert(nid)` -/
def enter (spentBy : SpentBy) (nid bearer : String) : SpentBy :=
  spentBy.insert bearer (insert nid (spentBy.spendersOf bearer))

/-- The loop over one participant's spent set. -/
def enterAll (spentBy : SpentBy) (nid : String) (bearers : List String) : SpentBy :=
  bearers.foldl (fun spentBy bearer => spentBy.enter nid bearer) spentBy

/-- The loop over all participants, given by their ids and spent sets. -/
def gather (reports : List (String × Finset String)) : SpentBy :=
  reports.foldl (fun spentBy report => spentBy.enterAll report.1 (sorted report.2)) ∅

/-- The sorted conflicts.  Bearers are distinct, so sorting the pairs sorts
them by bearer. -/
def violations (spentBy : SpentBy) : List (String × List String) :=
  (sorted spentBy.keys).filterMap fun bearer =>
    let nids := spentBy.spendersOf bearer
    if 1 < nids.card then some (bearer, sorted nids) else none

variable {spentBy : SpentBy} {nid nid' bearer other : String}

theorem mem_spendersOf_enter :
    nid' ∈ (spentBy.enter nid bearer).spendersOf other ↔
      (nid' = nid ∧ other = bearer) ∨ nid' ∈ spentBy.spendersOf other := by
  by_cases same : other = bearer
  · subst other; simp [enter, spendersOf]
  · simp [enter, spendersOf, same, Finmap.lookup_insert_of_ne]

theorem mem_enter :
    other ∈ spentBy.enter nid bearer ↔ other = bearer ∨ other ∈ spentBy := by
  simp [enter, Finmap.mem_insert]

theorem mem_spendersOf_enterAll (bearers : List String) :
    nid' ∈ (spentBy.enterAll nid bearers).spendersOf other ↔
      (nid' = nid ∧ other ∈ bearers) ∨ nid' ∈ spentBy.spendersOf other := by
  induction bearers generalizing spentBy with
  | nil => simp [enterAll]
  | cons head tail ih =>
      change nid' ∈ ((spentBy.enter nid head).enterAll nid tail).spendersOf other ↔ _
      rw [ih, mem_spendersOf_enter, List.mem_cons]
      tauto

theorem mem_enterAll (bearers : List String) :
    other ∈ spentBy.enterAll nid bearers ↔ other ∈ bearers ∨ other ∈ spentBy := by
  induction bearers generalizing spentBy with
  | nil => simp [enterAll]
  | cons head tail ih =>
      change other ∈ (spentBy.enter nid head).enterAll nid tail ↔ _
      rw [ih, mem_enter, List.mem_cons]
      tauto

private theorem mem_spendersOf_foldl (reports : List (String × Finset String))
    (start : SpentBy) :
    nid ∈ (reports.foldl (fun spentBy report =>
        spentBy.enterAll report.1 (sorted report.2)) start).spendersOf bearer ↔
      (∃ spent, (nid, spent) ∈ reports ∧ bearer ∈ spent) ∨
        nid ∈ start.spendersOf bearer := by
  induction reports generalizing start with
  | nil => simp
  | cons head tail ih =>
      rw [List.foldl_cons, ih, mem_spendersOf_enterAll, mem_sorted]
      constructor
      · rintro (⟨spent, member, recorded⟩ | ⟨rfl, recorded⟩ | earlier)
        · exact Or.inl ⟨spent, List.mem_cons_of_mem _ member, recorded⟩
        · exact Or.inl ⟨head.2, List.mem_cons_self, recorded⟩
        · exact Or.inr earlier
      · rintro (⟨spent, member, recorded⟩ | earlier)
        · rcases List.mem_cons.mp member with isHead | inTail
          · exact Or.inr (Or.inl ⟨congrArg Prod.fst isHead, by
              simpa [← isHead] using recorded⟩)
          · exact Or.inl ⟨spent, inTail, recorded⟩
        · exact Or.inr (Or.inr earlier)

private theorem mem_foldl (reports : List (String × Finset String)) (start : SpentBy) :
    bearer ∈ reports.foldl (fun spentBy report =>
        spentBy.enterAll report.1 (sorted report.2)) start ↔
      (∃ report ∈ reports, bearer ∈ report.2) ∨ bearer ∈ start := by
  induction reports generalizing start with
  | nil => simp
  | cons head tail ih =>
      rw [List.foldl_cons, ih, mem_enterAll, mem_sorted]
      simp only [List.mem_cons, exists_eq_or_imp]
      rw [or_left_comm, or_assoc]

/-- A participant is entered for exactly the bearers it has spent. -/
theorem mem_spendersOf_gather (reports : List (String × Finset String)) :
    nid ∈ (gather reports).spendersOf bearer ↔
      ∃ spent, (nid, spent) ∈ reports ∧ bearer ∈ spent := by
  rw [gather, mem_spendersOf_foldl]
  simp [spendersOf]

/-- The table has a row for exactly the bearers some participant has spent. -/
theorem mem_gather (reports : List (String × Finset String)) :
    bearer ∈ gather reports ↔ ∃ report ∈ reports, bearer ∈ report.2 := by
  rw [gather, mem_foldl]
  simp only [Finmap.notMem_empty, or_false]

theorem mem_of_mem_spendersOf (member : nid ∈ spentBy.spendersOf bearer) :
    bearer ∈ spentBy := by
  cases found : spentBy.lookup bearer with
  | none => simp [spendersOf, found] at member
  | some nids => exact Finmap.mem_of_lookup_eq_some found

theorem violations_eq_nil :
    spentBy.violations = [] ↔
      ∀ bearer, ∀ nid ∈ spentBy.spendersOf bearer,
        ∀ nid' ∈ spentBy.spendersOf bearer, nid = nid' := by
  rw [violations, List.filterMap_eq_nil_iff]
  constructor
  · intro quiet bearer nid first nid' second
    have few := quiet bearer
      (mem_sorted.mpr (Finmap.mem_keys.mpr (mem_of_mem_spendersOf first)))
    by_contra distinct
    have several : 1 < (spentBy.spendersOf bearer).card :=
      Finset.one_lt_card.mpr ⟨nid, first, nid', second, distinct⟩
    simp [several] at few
  · intro single bearer _
    have few : ¬ 1 < (spentBy.spendersOf bearer).card := by
      intro several
      obtain ⟨nid, first, nid', second, distinct⟩ := Finset.one_lt_card.mp several
      exact distinct (single bearer nid first nid' second)
    simp [few]

end SpentBy

end HabiCore
