import HabiCore.FinmapFolds
import Mathlib.Data.List.Sort
import Mathlib.Data.String.Basic

/-!
# Nodes

Node ids and bearers are strings.  A hash set is a `Finset`, a hash map a
`Finmap`; neither exposes an iteration order.
-/

namespace HabiCore

/-- `HashMap<String, V>` -/
abbrev StringMap (Value : Type) := Finmap fun _ : String => Value

structure Node where
  nodeId : String
  ledger : Finset String
  spent : Finset String
  deriving DecidableEq

def Node.new (nodeId : String) : Node where
  nodeId := nodeId
  ledger := ∅
  spent := ∅

/-- The elements of a hash set, collected into a vector and sorted.  Insertion
sort, unlike the merge sort of `Finset.sort`, can be evaluated by the kernel. -/
def sorted (items : Finset String) : List String :=
  Quot.liftOn items.val (fun list => list.insertionSort (· ≤ ·)) fun _ _ perm =>
    ((List.perm_insertionSort _ _).trans
      (perm.trans (List.perm_insertionSort _ _).symm)).eq_of_pairwise'
        (List.pairwise_insertionSort _ _) (List.pairwise_insertionSort _ _)

theorem coe_sorted (items : Finset String) : (sorted items : Multiset String) = items.val := by
  obtain ⟨⟨list⟩, nodup⟩ := items
  exact Quot.sound (List.perm_insertionSort _ list)

@[simp]
theorem mem_sorted {items : Finset String} {item : String} :
    item ∈ sorted items ↔ item ∈ items := by
  rw [← Multiset.mem_coe, coe_sorted, Finset.mem_val]

theorem nodup_sorted (items : Finset String) : (sorted items).Nodup := by
  rw [← Multiset.coe_nodup, coe_sorted]
  exact items.nodup

theorem pairwise_sorted (items : Finset String) : (sorted items).Pairwise (· < ·) := by
  have weakly : (sorted items).Pairwise (· ≤ ·) := by
    obtain ⟨⟨list⟩, nodup⟩ := items
    exact List.pairwise_insertionSort _ list
  exact (weakly.and (nodup_sorted items)).imp fun bounds => lt_of_le_of_ne bounds.1 bounds.2

theorem filter_sorted (items : Finset String) (keep : String → Prop) [DecidablePred keep] :
    (sorted items).filter (fun item => decide (keep item)) = sorted (items.filter keep) := by
  have strictly : ((sorted items).filter fun item => decide (keep item)).Pairwise (· < ·) :=
    (pairwise_sorted items).filter _
  have same : ((sorted items).filter fun item => decide (keep item)).Perm
      (sorted (items.filter keep)) := by
    rw [List.perm_ext_iff_of_nodup ((nodup_sorted items).filter _) (nodup_sorted _)]
    intro item
    simp
  exact same.eq_of_pairwise' strictly (pairwise_sorted _)

@[simp]
theorem sorted_toFinset (items : Finset String) : (sorted items).toFinset = items := by
  ext item
  simp

end HabiCore
