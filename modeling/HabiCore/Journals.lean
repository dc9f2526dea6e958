import HabiCore.LabelledRuns

/-!
# Journals

A system keeps a journal of what it does.  If one entry tells what has become of
the state before it, then the journal tells everything: where two runs have
written the same, they have come to the same state.
-/

namespace LabelledRuns

variable {State Label Entry : Type*} {step : State → Label → State → Prop}
  {allowed : State → Label → Prop} {Inv : State → Prop} {journal : State → List Entry}
  {first s t last : State} {trace : List (State × Label)}

/-- Every step that changes the state writes one entry, and no two steps from one
state write the same entry with different outcomes. -/
structure Journaled (step : State → Label → State → Prop) (Inv : State → Prop)
    (journal : State → List Entry) : Prop where
  kept : ∀ {s label t}, Inv s → step s label t → Inv t
  written : ∀ {s label t}, Inv s → step s label t →
    t = s ∨ ∃ entry, journal t = journal s ++ [entry]
  determined : ∀ {s label t label' t' entry}, Inv s → step s label t → step s label' t' →
    journal t = journal s ++ [entry] → journal t' = journal s ++ [entry] → t = t'

namespace Journaled

variable (journaled : Journaled step Inv journal)
include journaled

theorem inv_of_run (initially : Inv first) (run : Run step first trace last) : Inv last :=
  run.invariant Inv initially fun _ _ _ _ inv edge => journaled.kept inv edge

theorem prefix_of_run (initially : Inv first) (run : Run step first trace last) :
    journal first <+: journal last := by
  induction run with
  | refl => exact List.prefix_rfl
  | tail run edge ih =>
      rcases journaled.written (journaled.inv_of_run initially run) edge with
        rfl | ⟨entry, written⟩
      · exact ih
      · exact written ▸ ih.trans (List.prefix_append _ _)

/-- A run passes through a state for each beginning of its journal. -/
theorem passes_of_run (initially : Inv first) (run : Run step first trace last)
    (within : ∀ entry ∈ trace, allowed entry.1 entry.2) {written : List Entry}
    (longer : journal first <+: written) (shorter : written <+: journal last) :
    ∃ s, Reaches step allowed first s ∧ Reaches step allowed s last ∧ journal s = written := by
  induction run with
  | refl =>
      exact ⟨first, .refl first, .refl first,
        longer.eq_of_length (Nat.le_antisymm longer.length_le shorter.length_le)⟩
  | @tail trace middle last label run edge ih =>
      have reachesMiddle : Reaches step allowed first middle :=
        ⟨trace, run, fun entry member => within entry (List.mem_append_left _ member)⟩
      have isAllowed : allowed middle label := within (middle, label) (by simp)
      by_cases whole : journal last = written
      · exact ⟨last, reachesMiddle.tail isAllowed edge, .refl last, whole⟩
      · have before : written <+: journal middle := by
          rcases journaled.written (journaled.inv_of_run initially run) edge with
            rfl | ⟨entry, added⟩
          · exact shorter
          · rw [added, List.prefix_concat_iff] at shorter
            exact shorter.resolve_left fun same => whole (added.trans same.symm)
        obtain ⟨s, reaches, onwards, same⟩ :=
          ih (fun entry member => within entry (List.mem_append_left _ member)) before
        exact ⟨s, reaches, onwards.tail isAllowed edge, same⟩

theorem eq_of_unwritten (initially : Inv first) (run : Run step first trace last)
    (unwritten : journal last = journal first) : last = first := by
  induction run with
  | refl => rfl
  | @tail trace middle last label run edge ih =>
      have grown := (journaled.prefix_of_run initially run).length_le
      rcases journaled.written (journaled.inv_of_run initially run) edge with
        rfl | ⟨entry, added⟩
      · exact ih unwritten
      · have added := congrArg List.length (unwritten.symm.trans added)
        rw [List.length_append, List.length_singleton] at added
        omega

theorem exists_last_entry (initially : Inv first) (run : Run step first trace last)
    {written : List Entry} {entry : Entry} (longer : journal first <+: written)
    (ends : journal last = written ++ [entry]) :
    ∃ trace s label, Run step first trace s ∧ journal s = written ∧ step s label last := by
  induction run with
  | refl =>
      have grown := longer.length_le
      rw [ends, List.length_append, List.length_singleton] at grown
      omega
  | @tail trace middle last label run edge ih =>
      rcases journaled.written (journaled.inv_of_run initially run) edge with
        rfl | ⟨entry', added⟩
      · exact ih ends
      · obtain ⟨same, -⟩ := List.append_inj' (added.symm.trans ends) rfl
        exact ⟨trace, middle, label, run, same, edge⟩

/-- Two runs that have written the same have come to the same state. -/
theorem eq_of_journal_eq (initially : Inv first) (run : Run step first trace s)
    {trace' : List (State × Label)} (run' : Run step first trace' t)
    (same : journal s = journal t) : s = t := by
  induction run generalizing t trace' with
  | refl => exact (journaled.eq_of_unwritten initially run' same.symm).symm
  | @tail trace middle last label run edge ih =>
      have inv := journaled.inv_of_run initially run
      rcases journaled.written inv edge with rfl | ⟨entry, added⟩
      · exact ih run' same
      · obtain ⟨trace', middle', label', run'', before, edge'⟩ :=
          journaled.exists_last_entry initially run'
            (journaled.prefix_of_run initially run) (same.symm.trans added)
        obtain rfl := ih run'' before.symm
        exact journaled.determined inv edge edge' added (same.symm.trans added)

/-- A state is a later state of another one exactly if its journal goes on from the
other's. -/
theorem prefix_iff_reaches (initially : Inv first) (reaches : Reaches step allowed first s)
    (reaches' : Reaches step allowed first t) :
    journal s <+: journal t ↔ Reaches step allowed s t := by
  obtain ⟨trace, run, within⟩ := reaches
  obtain ⟨trace', run', within'⟩ := reaches'
  constructor
  · intro before
    obtain ⟨passed, ⟨_, runPassed, -⟩, onwards, same⟩ := journaled.passes_of_run initially run'
      within' (journaled.prefix_of_run initially run) before
    obtain rfl := journaled.eq_of_journal_eq initially runPassed run same
    exact onwards
  · rintro ⟨_, onwards, -⟩
    exact journaled.prefix_of_run (journaled.inv_of_run initially run) onwards

end Journaled

end LabelledRuns
