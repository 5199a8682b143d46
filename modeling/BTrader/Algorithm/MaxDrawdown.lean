import BTrader.Lib.Drawdown

/-! The greatest drawdown, found in one pass over the values. An array and the number of its
values are one list: the list is empty where the number is not positive. -/
namespace BTrader.Algorithm
open Drawdown

/-- A division; none where the divisor is 0. -/
def divide (x y : ℚ) : Option ℚ := if y = 0 then none else some (x / y)

theorem divide_of_ne {x y : ℚ} (ne : y ≠ 0) : divide x y = some (x / y) := if_neg ne

@[simp] theorem divide_isSome_iff {x y : ℚ} : (divide x y).isSome = true ↔ y ≠ 0 := by
  unfold divide
  split <;> simp_all

/-- The variables of the loop. -/
structure Extent where
  peak : ℚ
  trough : ℚ
  maxDd : ℚ
  deriving DecidableEq, Repr

/-- A value in the loop of `max_drawdown`. -/
def Extent.next (s : Extent) (x : ℚ) : Option Extent :=
  if x > s.peak then some { s with peak := x, trough := x }
  else if x < s.trough then
    (divide (s.peak - x) s.peak).map fun dd =>
      { s with trough := x, maxDd := if dd > s.maxDd then dd else s.maxDd }
  else some s

def maxDrawdown : List ℚ → Option ℚ
  | [] => some 0
  | first :: rest => (rest.foldlM Extent.next ⟨first, first, 0⟩).map (·.maxDd)

variable {seen values : List ℚ} {s t : Extent} {x : ℚ}

section Positive

/-- Of positive values, the peak is the greatest and the drawdown the greatest decline. -/
structure Measures (s : Extent) (seen : List ℚ) : Prop where
  peak : Peak seen s.peak
  greatest : IsGreatest (declines seen) s.maxDd
  nonneg : 0 ≤ s.maxDd
  trough : (s.peak - s.trough) / s.peak ≤ s.maxDd

theorem measures_first (x : ℚ) : Measures ⟨x, x, 0⟩ [x] where
  peak := peak_singleton x
  greatest := by
    rw [declines_singleton, sub_self, zero_div]
    exact isGreatest_singleton
  nonneg := le_refl 0
  trough := by rw [sub_self, zero_div]

/-- A value between trough and peak is no new decline, as the trough was one. -/
theorem Measures.next (measures : Measures s seen) (positive : 0 < s.peak) (x : ℚ) :
    ∃ t, s.next x = some t ∧ Measures t (seen ++ [x]) := by
  have top := measures.peak.concat x
  have declined := declines_concat measures.peak x
  have insert {dd : ℚ} (same : (max s.peak x - x) / max s.peak x = dd) :
      IsGreatest (declines (seen ++ [x])) (max dd s.maxDd) := by
    rw [declined, same]
    exact measures.greatest.insert dd
  unfold Extent.next
  split
  · rename_i higher
    rw [max_eq_right higher.le] at top insert
    have none : (x - x) / x = 0 := by rw [sub_self, zero_div]
    have greatest := insert none
    rw [max_eq_right measures.nonneg] at greatest
    exact ⟨_, rfl, top, greatest, measures.nonneg, none.le.trans measures.nonneg⟩
  · rename_i lower
    rw [max_eq_left (not_lt.mp lower)] at top insert
    split
    · have greatest := insert rfl
      have chosen (dd : ℚ) : (if dd > s.maxDd then dd else s.maxDd) = max dd s.maxDd :=
        (max_def_lt s.maxDd dd).symm.trans (max_comm _ _)
      rw [divide_of_ne positive.ne', Option.map_some]
      simp only [chosen]
      refine ⟨_, rfl, top, greatest, ?_, ?_⟩
      · exact measures.nonneg.trans (le_max_right _ _)
      · exact le_max_left _ _
    · rename_i inside
      have less : (s.peak - x) / s.peak ≤ s.maxDd := by
        refine (div_le_div_of_nonneg_right ?_ positive.le).trans measures.trough
        linarith
      have greatest := insert rfl
      rw [max_eq_right less] at greatest
      exact ⟨s, rfl, top, greatest, measures.nonneg, measures.trough⟩

theorem loop_measures (first : ℚ) {rest : List ℚ} (positive : ∀ value ∈ first :: rest, 0 < value) :
    ∃ s, rest.foldlM Extent.next ⟨first, first, 0⟩ = some s ∧ Measures s (first :: rest) := by
  induction rest using List.reverseRecOn with
  | nil => exact ⟨_, rfl, measures_first first⟩
  | append_singleton rest x ih =>
    obtain ⟨s, reached, measures⟩ :=
      ih fun value member => positive value (List.mem_append_left [x] member)
    have peakPos : 0 < s.peak := positive _ (List.mem_append_left [x] measures.peak.1)
    obtain ⟨t, stepped, after⟩ := measures.next peakPos x
    refine ⟨t, ?_, after⟩
    rw [List.foldlM_append, reached]
    simpa using stepped

/-- A fall from a positive value to a positive one is not the whole of it. -/
theorem fall_lt_one (positive : ∀ value ∈ values, 0 < value) {fall : ℚ}
    (inside : fall ∈ falls values) : fall < 1 := by
  obtain ⟨i, j, x, y, -, first, second, rfl⟩ := inside
  have xPos : 0 < x := positive x (List.mem_of_getElem? first)
  have yPos : 0 < y := positive y (List.mem_of_getElem? second)
  rw [div_lt_one xPos]
  linarith

/-- Of positive values, the result is the greatest fall from one to a later one, in relation to
the earlier one. -/
theorem maxDrawdown_isGreatest {returns : List ℚ} (filled : returns ≠ [])
    (positive : ∀ value ∈ returns, 0 < value) :
    ∃ dd, maxDrawdown returns = some dd ∧ IsGreatest (falls returns) dd ∧ 0 ≤ dd ∧ dd < 1 := by
  obtain ⟨first, rest, rfl⟩ := List.exists_cons_of_ne_nil filled
  obtain ⟨s, reached, measures⟩ := loop_measures first positive
  have greatest := isGreatest_falls positive measures.greatest
  refine ⟨s.maxDd, ?_, greatest, measures.nonneg, fall_lt_one positive greatest.1⟩
  rw [maxDrawdown, reached]
  rfl

/-- From 4 to 3, and from 5 to 2. -/
theorem maxDrawdown_five_two :
    ∃ dd, maxDrawdown [4, 3, 5, 2, 4] = some dd ∧ IsGreatest (falls [4, 3, 5, 2, 4]) dd ∧
    0 ≤ dd ∧ dd < 1 :=
  maxDrawdown_isGreatest (by decide) (by decide)

end Positive

section Divisors

/-- What holds of all values whose loop has not divided by 0. -/
structure Follows (s : Extent) (seen : List ℚ) : Prop where
  peak : Peak seen s.peak
  trough : s.trough ≤ s.peak
  zero : s.peak = 0 → s.trough = 0

theorem Follows.next (follows : Follows s seen) (stepped : s.next x = some t) :
    Follows t (seen ++ [x]) := by
  have top := follows.peak.concat x
  unfold Extent.next at stepped
  split at stepped
  · rename_i higher
    cases stepped
    rw [max_eq_right higher.le] at top
    exact ⟨top, le_refl x, id⟩
  · rename_i lower
    rw [max_eq_left (not_lt.mp lower)] at top
    split at stepped
    · obtain ⟨dd, divided, rfl⟩ := Option.map_eq_some_iff.mp stepped
      have nonzero : s.peak ≠ 0 := divide_isSome_iff.mp (Option.isSome_of_eq_some divided)
      exact ⟨top, not_lt.mp lower, fun none => absurd none nonzero⟩
    · cases stepped
      exact ⟨top, follows.trough, follows.zero⟩

/-- The divisor is 0 just when the peak is and the value falls below it. -/
theorem Follows.next_isSome (follows : Follows s seen) (x : ℚ) :
    (s.next x).isSome = true ↔ (Peak seen 0 → 0 ≤ x) := by
  unfold Extent.next
  split
  · rename_i higher
    refine iff_of_true rfl fun top => ?_
    rw [top.unique follows.peak]
    exact higher.le
  · rename_i lower
    split
    · rename_i below
      rw [Option.isSome_map, divide_isSome_iff]
      constructor
      · exact fun nonzero top => absurd (follows.peak.unique top) nonzero
      · intro above none
        have nonneg := above (none ▸ follows.peak)
        rw [follows.zero none] at below
        exact absurd below (not_lt.mpr nonneg)
    · rename_i above
      refine iff_of_true rfl fun top => ?_
      rw [← follows.zero (follows.peak.unique top)]
      exact not_lt.mp above

theorem loop_follows (first : ℚ) {rest : List ℚ}
    (reached : rest.foldlM Extent.next ⟨first, first, 0⟩ = some s) :
    Follows s (first :: rest) := by
  induction rest using List.reverseRecOn generalizing s with
  | nil =>
    cases reached
    exact ⟨peak_singleton first, le_refl first, id⟩
  | append_singleton rest x ih =>
    rw [List.foldlM_append] at reached
    obtain ⟨before, reached, stepped⟩ := Option.bind_eq_some_iff.mp reached
    exact (ih reached).next (by simpa using stepped)

/-- No value falls below a peak of 0. -/
def PeaksDivide (returns : List ℚ) : Prop := ∀ seen x, seen ++ [x] <+: returns → Peak seen 0 → 0 ≤ x

theorem loop_isSome_iff (first : ℚ) (rest : List ℚ) :
    (rest.foldlM Extent.next ⟨first, first, 0⟩).isSome = true ↔ PeaksDivide (first :: rest) := by
  induction rest using List.reverseRecOn with
  | nil =>
    refine iff_of_true rfl fun seen x inside top => ?_
    have short := inside.length_le
    obtain rfl : seen = [] := List.eq_nil_of_length_eq_zero (by simpa using short)
    exact absurd top.1 List.not_mem_nil
  | append_singleton rest x ih =>
    have whole : PeaksDivide (first :: (rest ++ [x])) ↔
        PeaksDivide (first :: rest) ∧ (Peak (first :: rest) 0 → 0 ≤ x) := by
      rw [← List.cons_append]
      constructor
      · intro all
        exact ⟨fun seen y inside => all seen y (inside.trans (List.prefix_append _ _)),
          all _ x (List.prefix_refl _)⟩
      · rintro ⟨before, last⟩ seen y inside
        rcases List.prefix_concat_iff.mp inside with same | earlier
        · obtain ⟨rfl, single⟩ := List.append_inj' same rfl
          obtain rfl : y = x := List.head_eq_of_cons_eq single
          exact last
        · exact before seen y earlier
    rw [whole, ← ih, List.foldlM_append]
    cases reached : rest.foldlM Extent.next ⟨first, first, 0⟩ with
    | none => exact iff_of_false Bool.false_ne_true fun both => Bool.false_ne_true both.1
    | some s =>
      rw [← (loop_follows first reached).next_isSome x]
      simp

/-- The drawdown divides by 0 just when a value falls below a peak of 0. -/
theorem maxDrawdown_isSome_iff (returns : List ℚ) :
    (maxDrawdown returns).isSome = true ↔ PeaksDivide returns := by
  cases returns with
  | nil =>
    refine iff_of_true rfl fun seen x inside => ?_
    have none := List.prefix_nil.mp inside
    simp at none
  | cons first rest => rw [maxDrawdown, Option.isSome_map, loop_isSome_iff]

end Divisors

end BTrader.Algorithm
