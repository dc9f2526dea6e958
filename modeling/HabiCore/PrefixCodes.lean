import Mathlib.Data.List.Basic

/-!
# Codes that show where they end

A code of which no word begins another one can be read off the front of any text.
Lists of such words can be read as well, if they are ended by a symbol with which
no word and no separator begins.
-/

namespace PrefixCodes

variable {A γ : Type*} {code : A → List γ} {stop : γ}

/-- A symbol ends the text before it, if that does not contain it. -/
theorem eq_of_marked {x x' rest rest' : List γ} (notIn : stop ∉ x) (notIn' : stop ∉ x')
    (same : x ++ stop :: rest = x' ++ stop :: rest') : x = x' ∧ rest = rest' := by
  induction x generalizing x' with
  | nil =>
      cases x' with
      | nil => exact ⟨rfl, by simpa using same⟩
      | cons c x' => exact (notIn' (by simp_all)).elim
  | cons c x ih =>
      cases x' with
      | nil => exact (notIn (by simp_all)).elim
      | cons c' x' =>
          obtain ⟨rfl, onwards⟩ := List.cons.inj same
          obtain ⟨rfl, sameRest⟩ := ih (fun member => notIn (List.mem_cons_of_mem _ member))
            (fun member => notIn' (List.mem_cons_of_mem _ member)) onwards
          exact ⟨rfl, sameRest⟩

/-- A word can be read off the front of a text in one way. -/
def SelfDelimiting (code : A → List γ) : Prop :=
  ∀ ⦃a b : A⦄ ⦃rest rest' : List γ⦄, code a ++ rest = code b ++ rest' → a = b ∧ rest = rest'

/-- No word is empty or begins with the symbol. -/
def Avoids (stop : γ) (code : A → List γ) : Prop :=
  ∀ a, ∃ first later, code a = first :: later ∧ first ≠ stop

theorem selfDelimiting_of_prefixFree (prefixFree : ∀ a b, code a <+: code b → a = b) :
    SelfDelimiting code := by
  intro a b rest rest' same
  have comparable : code a <+: code b ∨ code b <+: code a :=
    List.prefix_or_prefix_of_prefix (same ▸ List.prefix_append (code a) rest)
      (List.prefix_append (code b) rest')
  obtain rfl : a = b := comparable.elim (prefixFree a b) fun below => (prefixFree b a below).symm
  exact ⟨rfl, List.append_cancel_left same⟩

namespace SelfDelimiting

variable (delimiting : SelfDelimiting code)
include delimiting

theorem opened (opening : List γ) : SelfDelimiting fun a => opening ++ code a := by
  intro a b rest rest' same
  rw [List.append_assoc, List.append_assoc] at same
  exact delimiting (List.append_cancel_left same)

theorem ended (avoids : Avoids stop code) :
    SelfDelimiting fun items : List A => items.flatMap code ++ [stop] := by
  intro items items' rest rest' same
  induction items generalizing items' with
  | nil =>
      cases items' with
      | nil => exact ⟨rfl, by simpa using same⟩
      | cons b others =>
          obtain ⟨first, later, isWord, other⟩ := avoids b
          simp only [List.flatMap_nil, List.nil_append, List.flatMap_cons, isWord,
            List.cons_append, List.cons.injEq] at same
          exact (other same.1.symm).elim
  | cons a items ih =>
      cases items' with
      | nil =>
          obtain ⟨first, later, isWord, other⟩ := avoids a
          simp only [List.flatMap_nil, List.nil_append, List.flatMap_cons, isWord,
            List.cons_append, List.cons.injEq] at same
          exact (other same.1).elim
      | cons b items' =>
          simp only [List.flatMap_cons, List.append_assoc] at same
          obtain ⟨rfl, onwards⟩ := delimiting same
          obtain ⟨rfl, sameRest⟩ := ih (by simpa only [List.append_assoc] using onwards)
          exact ⟨rfl, sameRest⟩

end SelfDelimiting

theorem intercalate_cons (separator word : List γ) (words : List (List γ)) :
    separator.intercalate (word :: words) = word ++ words.flatMap (separator ++ ·) := by
  induction words generalizing word with
  | nil => simp [List.intercalate]
  | cons next words ih => simp [List.intercalate_cons_cons, ih]

/-- A list between separators, up to the symbol that ends it. -/
theorem SelfDelimiting.separated (delimiting : SelfDelimiting code) (avoids : Avoids stop code)
    {first : γ} (later : List γ) (other : first ≠ stop) :
    SelfDelimiting fun items : List A =>
      (first :: later).intercalate (items.map code) ++ [stop] := by
  have tails : SelfDelimiting fun items : List A =>
      items.flatMap (fun a => (first :: later) ++ code a) ++ [stop] :=
    (delimiting.opened (first :: later)).ended fun a => ⟨first, later ++ code a, rfl, other⟩
  have spelled : ∀ (a : A) (items : List A),
      (first :: later).intercalate ((a :: items).map code) ++ [stop] =
        code a ++ (items.flatMap (fun a => (first :: later) ++ code a) ++ [stop]) := by
    intro a items
    rw [List.map_cons, intercalate_cons, List.flatMap_map, List.append_assoc]
  have empty : (first :: later).intercalate (([] : List A).map code) ++ [stop] = [stop] := rfl
  intro items items' rest rest' same
  cases items with
  | nil =>
      cases items' with
      | nil => exact ⟨rfl, by simpa using same⟩
      | cons b others =>
          obtain ⟨start, ending, isWord, differs⟩ := avoids b
          simp only [empty, spelled, isWord, List.cons_append, List.nil_append,
            List.cons.injEq] at same
          exact (differs same.1.symm).elim
  | cons a items =>
      cases items' with
      | nil =>
          obtain ⟨start, ending, isWord, differs⟩ := avoids a
          simp only [empty, spelled, isWord, List.cons_append, List.nil_append,
            List.cons.injEq] at same
          exact (differs same.1).elim
      | cons b items' =>
          simp only [spelled, List.append_assoc] at same
          obtain ⟨rfl, onwards⟩ := delimiting same
          obtain ⟨rfl, sameRest⟩ := tails (by simpa only [List.append_assoc] using onwards)
          exact ⟨rfl, sameRest⟩

end PrefixCodes
