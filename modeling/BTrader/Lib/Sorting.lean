import Mathlib

/-! Sorted lists of numbers. -/
namespace Sorting

theorem ascending (numbers : List Nat) : (numbers.mergeSort (· ≤ ·)).Pairwise (· ≤ ·) := by
  have sorted : (numbers.mergeSort (· ≤ ·)).Pairwise fun p q => decide (p ≤ q) = true := by
    apply List.pairwise_mergeSort
    · intro p q r
      simp only [decide_eq_true_eq]
      exact Nat.le_trans
    · intro p q
      simp only [Bool.or_eq_true, decide_eq_true_eq]
      exact Nat.le_total p q
  exact sorted.imp of_decide_eq_true

/-- Sorting forgets the order. -/
theorem mergeSort_perm {numbers others : List Nat} (perm : numbers.Perm others) :
    numbers.mergeSort (· ≤ ·) = others.mergeSort (· ≤ ·) := by
  apply List.Perm.eq_of_pairwise _ (ascending numbers) (ascending others)
  · exact (List.mergeSort_perm _ _).trans (perm.trans (List.mergeSort_perm _ _).symm)
  · intro p q _ _
    exact Nat.le_antisymm

end Sorting
