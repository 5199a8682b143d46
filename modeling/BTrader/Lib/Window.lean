import Mathlib

/-! A history that is kept up to a bound: the newest entries stay. -/
namespace Window

variable {α β : Type*}

/-- The entry goes in at the back, and the front out where there are too many. -/
def push (bound : ℕ) (held : List α) (x : α) : List α :=
  if bound < (held ++ [x]).length then (held ++ [x]).tail else held ++ [x]

/-- What is kept of a history is what is newest in it. -/
theorem push_rtake {bound : ℕ} (positive : 0 < bound) (history : List α) (x : α) :
    push bound (history.rtake bound) x = (history ++ [x]).rtake bound := by
  unfold push List.rtake
  rw [List.length_append, List.length_append, List.length_drop, List.length_singleton]
  rcases Nat.lt_or_ge history.length bound with short | full
  · rw [if_neg (by omega), Nat.sub_eq_zero_of_le short.le, Nat.sub_eq_zero_of_le (by omega),
      List.drop_zero, List.drop_zero]
  · have one : history.length + 1 - bound = history.length - bound + 1 := by omega
    rw [if_pos (by omega), one, ← List.drop_append_of_le_length (Nat.sub_le _ _), List.tail_drop]

theorem mem_of_mem_rtake {bound : ℕ} {history : List α} {x : α} (member : x ∈ history.rtake bound) :
    x ∈ history :=
  List.mem_of_mem_drop member

theorem length_rtake_le (bound : ℕ) (history : List α) : (history.rtake bound).length ≤ bound := by
  rw [List.rtake, List.length_drop]
  omega

/-- The first entries are the last ones where there are no more of them, or where they come again.
-/
theorem take_eq_rtake_iff (n : ℕ) (xs : List α) :
    xs.take n = xs.rtake n ↔ xs.length ≤ n ∨ ∀ i < n, xs[i]? = xs[i + (xs.length - n)]? := by
  rcases le_or_gt xs.length n with short | long
  · have whole : xs.take n = xs.rtake n := by
      rw [List.rtake, Nat.sub_eq_zero_of_le short, List.drop_zero, List.take_of_length_le short]
    exact iff_of_true whole (Or.inl short)
  · rw [or_iff_right (by omega), List.rtake, List.ext_getElem?_iff]
    refine forall_congr' fun i => ?_
    rw [List.getElem?_take, List.getElem?_drop, Nat.add_comm]
    by_cases inside : i < n
    · rw [if_pos inside, forall_prop_of_true inside]
    · rw [if_neg inside, List.getElem?_eq_none (by omega)]
      exact iff_of_true rfl fun less => absurd less inside

theorem getLast?_rtake {n : ℕ} {xs : List α} {x : α} (last : x ∈ (xs.rtake n).getLast?) :
    xs.getLast? = some x := by
  rw [List.rtake, List.getLast?_drop] at last
  split at last
  · contradiction
  · exact last

section Related
variable {R S : α → β → Prop}

theorem forall₂_concat {xs : List α} {ys : List β} {x : α} {y : β} :
    List.Forall₂ R (xs ++ [x]) (ys ++ [y]) ↔ List.Forall₂ R xs ys ∧ R x y := by
  rw [← List.forall₂_reverse_iff, List.reverse_concat, List.reverse_concat, List.forall₂_cons,
    List.forall₂_reverse_iff, and_comm]

/-- What corresponds to a list with a last entry has one too. -/
theorem forall₂_concat_right {xs : List α} {ys : List β} {y : β}
    (held : List.Forall₂ R xs (ys ++ [y])) :
    ∃ front back, xs = front ++ [back] ∧ List.Forall₂ R front ys ∧ R back y := by
  rcases List.eq_nil_or_concat' xs with rfl | ⟨front, back, rfl⟩
  · have same := held.length_eq
    simp at same
  · exact ⟨front, back, rfl, forall₂_concat.mp held⟩

theorem forall₂_mem {xs : List α} {ys : List β} (held : List.Forall₂ R xs ys) :
    ∀ x ∈ xs, ∃ y ∈ ys, R x y := by
  induction held with
  | nil => simp
  | cons first rest ih =>
    intro x member
    rcases List.mem_cons.mp member with rfl | later
    · exact ⟨_, List.mem_cons_self, first⟩
    · obtain ⟨y, inside, related⟩ := ih x later
      exact ⟨y, List.mem_cons_of_mem _ inside, related⟩

theorem forall₂_congr_mem {xs : List α} {ys : List β} (same : ∀ y ∈ ys, ∀ x, R x y ↔ S x y) :
    List.Forall₂ R xs ys ↔ List.Forall₂ S xs ys := by
  induction ys generalizing xs with
  | nil => rw [List.forall₂_nil_right_iff, List.forall₂_nil_right_iff]
  | cons y ys ih =>
    cases xs with
    | nil => exact iff_of_false nofun nofun
    | cons x xs =>
      rw [List.forall₂_cons, List.forall₂_cons, same y List.mem_cons_self,
        ih fun y' member => same y' (List.mem_cons_of_mem y member)]

/-- Two windows that correspond go on doing so just when the entries do that come in. -/
theorem forall₂_push {bound : ℕ} (positive : 0 < bound) {xs : List α} {ys : List β}
    (held : List.Forall₂ R xs ys)
    {x : α} {y : β} : List.Forall₂ R (push bound xs x) (push bound ys y) ↔ R x y := by
  have same := held.length_eq
  simp only [push, List.length_append, List.length_singleton, same]
  by_cases full : bound < ys.length + 1
  · rw [if_pos full, if_pos full]
    cases held with
    | nil => exact absurd full (by simp; omega)
    | cons first rest =>
      rw [List.cons_append, List.cons_append, List.tail_cons, List.tail_cons, forall₂_concat]
      exact and_iff_right rest
  · rw [if_neg full, if_neg full, forall₂_concat]
    exact and_iff_right held

end Related
end Window
