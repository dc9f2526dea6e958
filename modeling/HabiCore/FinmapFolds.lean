import Mathlib.Data.Finmap
import Mathlib.Data.Finset.Sort

/-!
# Loops that fill or update a finite map

Both loops read and write one key per iteration.  Their results are described
by `lookup` alone and depend only on the set of keys the loop visits, so a loop
over a hash table may be modelled by a loop over any enumeration of its keys.
-/

namespace FinmapFolds

variable {Key Value : Type*} [DecidableEq Key]

/-- `for key in keys { map.insert(key, value(key)) }` -/
def insertAll (map : Finmap fun _ : Key => Value) (value : Key → Value)
    (keys : List Key) : Finmap fun _ : Key => Value :=
  keys.foldl (fun map key => map.insert key (value key)) map

theorem lookup_insertAll (map : Finmap fun _ : Key => Value) (value : Key → Value)
    (keys : List Key) (key : Key) :
    (insertAll map value keys).lookup key =
      if key ∈ keys then some (value key) else map.lookup key := by
  induction keys generalizing map with
  | nil => simp [insertAll]
  | cons head tail ih =>
      change (insertAll (map.insert head (value head)) value tail).lookup key = _
      rw [ih]
      by_cases inTail : key ∈ tail
      · simp [inTail]
      · by_cases isHead : key = head
        · subst key; simp [inTail]
        · simp [inTail, isHead, Finmap.lookup_insert_of_ne]

/-- `for key in keys { if let Some(v) = map.get_mut(key) { *v = update(v) } }` -/
def modifyAll (map : Finmap fun _ : Key => Value) (update : Value → Value)
    (keys : List Key) : Finmap fun _ : Key => Value :=
  keys.foldl
    (fun map key =>
      match map.lookup key with
      | some value => map.insert key (update value)
      | none => map)
    map

theorem lookup_modify (map : Finmap fun _ : Key => Value) (update : Value → Value)
    (head key : Key) :
    (match map.lookup head with
      | some value => map.insert head (update value)
      | none => map).lookup key =
      if key = head then (map.lookup key).map update else map.lookup key := by
  cases found : map.lookup head with
  | none =>
      by_cases isHead : key = head
      · subst key; simp [found]
      · simp [isHead]
  | some value =>
      by_cases isHead : key = head
      · subst key; simp [found]
      · simp [isHead, Finmap.lookup_insert_of_ne]

/-- An update that may be repeated acts once on every key the loop visits. -/
theorem lookup_modifyAll (map : Finmap fun _ : Key => Value) (update : Value → Value)
    (idempotent : ∀ value, update (update value) = update value)
    (keys : List Key) (key : Key) :
    (modifyAll map update keys).lookup key =
      if key ∈ keys then (map.lookup key).map update else map.lookup key := by
  induction keys generalizing map with
  | nil => simp [modifyAll]
  | cons head tail ih =>
      change (modifyAll _ update tail).lookup key = _
      rw [ih, lookup_modify]
      by_cases inTail : key ∈ tail <;> by_cases isHead : key = head <;>
        simp [inTail, isHead, Function.comp_def, idempotent]

end FinmapFolds
