import Mathlib

/-! The greatest and the least of what is read off the entries of a list. -/
namespace Extremes

variable {α β : Type*} [LinearOrder β] (p : α → β) {xs : List α} {x : α} {y : β}

omit [LinearOrder β] in
theorem image_concat (xs : List α) (x : α) :
    {y | ∃ a ∈ xs ++ [x], p a = y} = insert (p x) {y | ∃ a ∈ xs, p a = y} := by
  ext y
  simp [or_comm, eq_comm]

theorem isGreatest_concat (greatest : IsGreatest {y | ∃ a ∈ xs, p a = y} y) (x : α) :
    IsGreatest {y | ∃ a ∈ xs ++ [x], p a = y} (max y (p x)) := by
  rw [image_concat, max_comm]
  exact greatest.insert (p x)

theorem isLeast_concat (least : IsLeast {y | ∃ a ∈ xs, p a = y} y) (x : α) :
    IsLeast {y | ∃ a ∈ xs ++ [x], p a = y} (min y (p x)) := by
  rw [image_concat, min_comm]
  exact least.insert (p x)

/-- A running maximum is the greatest of the entries and of what it starts from. -/
theorem foldl_max_isGreatest (xs : List α) (start : β) :
    IsGreatest (insert start {y | ∃ a ∈ xs, p a = y})
      (xs.foldl (fun best a => max best (p a)) start) := by
  induction xs using List.reverseRecOn with
  | nil => simp
  | append_singleton xs x ih =>
    rw [List.foldl_concat, image_concat, Set.insert_comm, max_comm]
    exact ih.insert (p x)

/-- The same with the order turned round. -/
theorem foldl_min_isLeast (xs : List α) (start : β) :
    IsLeast (insert start {y | ∃ a ∈ xs, p a = y})
      (xs.foldl (fun best a => min best (p a)) start) :=
  foldl_max_isGreatest (fun a => OrderDual.toDual (p a)) xs (OrderDual.toDual start)

end Extremes
