import Mathlib

set_option autoImplicit false

/-! # Sorting a list and dropping its repetitions

`sortDedup` is the list of the members of a list, in increasing order and each once: sort, then drop
every entry that equals the one before it.
-/

namespace Emane.Lib

variable {α : Type*} [LinearOrder α]

/-- `sort_unstable` and `dedup` in a row. -/
def sortDedup (l : List α) : List α := (l.insertionSort (· ≤ ·)).destutter (· ≠ ·)

theorem sortDedup_eq_dedup (l : List α) : sortDedup l = (l.insertionSort (· ≤ ·)).dedup :=
  (List.pairwise_insertionSort (· ≤ ·) l).destutter_eq_dedup

@[simp]
theorem mem_sortDedup {l : List α} {a : α} : a ∈ sortDedup l ↔ a ∈ l := by
  rw [sortDedup_eq_dedup, List.mem_dedup, List.mem_insertionSort]

theorem pairwise_sortDedup (l : List α) : (sortDedup l).Pairwise (· < ·) := by
  have hle : (sortDedup l).Pairwise (· ≤ ·) :=
    (List.pairwise_insertionSort (· ≤ ·) l).sublist (List.destutter_sublist _ _)
  have hne : (sortDedup l).Pairwise (· ≠ ·) := by
    rw [sortDedup_eq_dedup]
    exact List.nodup_dedup _
  exact (hle.and hne).imp fun h => lt_of_le_of_ne h.1 h.2

end Emane.Lib
