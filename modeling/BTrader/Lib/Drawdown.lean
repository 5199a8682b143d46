import BTrader.Lib.Extremes

/-! How far a sequence of values falls below the greatest that it has had. -/
namespace Drawdown

section Peaks
variable {K : Type*} [LinearOrder K] {values : List K} {peak : K}

/-- The greatest of the values. -/
def Peak (values : List K) (peak : K) : Prop := IsGreatest {value | value ∈ values} peak

theorem peak_singleton (value : K) : Peak [value] value := by
  simp [Peak, IsGreatest]

theorem Peak.concat (top : Peak values peak) (value : K) :
    Peak (values ++ [value]) (max peak value) := by
  have read (xs : List K) : {other | other ∈ xs} = {other | ∃ x ∈ xs, id x = other} := by simp
  rw [Peak, read] at top ⊢
  exact Extremes.isGreatest_concat id top value

theorem exists_peak (filled : values ≠ []) : ∃ peak, Peak values peak := by
  induction values using List.reverseRecOn with
  | nil => contradiction
  | append_singleton values value ih =>
    rcases eq_or_ne values [] with rfl | before
    · exact ⟨value, peak_singleton value⟩
    · obtain ⟨peak, top⟩ := ih before
      exact ⟨_, top.concat value⟩

end Peaks

variable {K : Type*} [Field K] [LinearOrder K]

/-- The declines of the values from their running peak, in relation to it. -/
def declines (values : List K) : Set K :=
  {decline | ∃ seen value peak, seen ++ [value] <+: values ∧ Peak (seen ++ [value]) peak ∧
    decline = (peak - value) / peak}

variable {values : List K} {value peak : K}

theorem declines_singleton (value : K) : declines [value] = {(value - value) / value} := by
  ext decline
  constructor
  · rintro ⟨seen, last, peak, inside, top, rfl⟩
    have short := inside.length_le
    obtain rfl : seen = [] := List.eq_nil_of_length_eq_zero (by simpa using short)
    obtain rfl : last = value := by simpa using inside
    rw [List.nil_append] at top
    rw [top.unique (peak_singleton last)]
    rfl
  · rintro rfl
    exact ⟨[], value, value, List.prefix_refl _, peak_singleton value, rfl⟩

/-- One value more brings one decline more. -/
theorem declines_concat (top : Peak values peak) (value : K) : declines (values ++ [value]) =
    insert ((max peak value - value) / max peak value) (declines values) := by
  ext decline
  constructor
  · rintro ⟨seen, last, greatest, inside, topped, rfl⟩
    rcases List.prefix_concat_iff.mp inside with whole | inside
    · obtain ⟨rfl, rfl⟩ : seen = values ∧ last = value := by simpa using whole
      rw [topped.unique (top.concat last)]
      exact Set.mem_insert _ _
    · exact Set.mem_insert_of_mem _ ⟨seen, last, greatest, inside, topped, rfl⟩
  · rintro (rfl | ⟨seen, last, greatest, inside, topped, rfl⟩)
    · exact ⟨values, value, _, List.prefix_refl _, top.concat value, rfl⟩
    · exact ⟨seen, last, greatest, inside.trans (List.prefix_append _ _), topped, rfl⟩

/-- The last value once more brings nothing new. -/
theorem declines_again (top : Peak (values ++ [value]) peak) :
    Peak (values ++ [value] ++ [value]) peak ∧ declines (values ++ [value] ++ [value]) =
      declines (values ++ [value]) := by
  have below : value ≤ peak := top.2 (List.mem_append_right _ (List.mem_singleton_self value))
  have again := top.concat value
  rw [max_eq_left below] at again
  refine ⟨again, ?_⟩
  rw [declines_concat top, max_eq_left below]
  exact Set.insert_eq_of_mem ⟨values, value, peak, List.prefix_refl _, top, rfl⟩

/-- The falls from any value to one that is not before it, in relation to the earlier one. -/
def falls (values : List K) : Set K :=
  {fall | ∃ (i j : ℕ) (x y : K), i ≤ j ∧ values[i]? = some x ∧ values[j]? = some y ∧
    fall = (x - y) / x}

theorem declines_subset_falls (values : List K) : declines values ⊆ falls values := by
  rintro decline ⟨seen, value, peak, ⟨rest, rfl⟩, top, rfl⟩
  obtain ⟨i, bound, same⟩ := List.getElem_of_mem top.1
  refine ⟨i, seen.length, peak, value, ?_, ?_, ?_, rfl⟩
  · rw [List.length_append, List.length_singleton] at bound
    exact Nat.le_of_lt_succ bound
  · rw [List.getElem?_append_left bound, List.getElem?_eq_getElem bound, same]
  · simp

/-- From positive values, no fall is greater than the one from the peak. -/
theorem fall_le_decline [IsStrictOrderedRing K] (positive : ∀ value ∈ values, 0 < value) {fall : K}
    (inside : fall ∈ falls values) : ∃ decline ∈ declines values, fall ≤ decline := by
  obtain ⟨i, j, x, y, le, first, second, rfl⟩ := inside
  have parts : values.take (j + 1) = values.take j ++ [y] := by
    rw [List.take_add_one, second]
    rfl
  have early : x ∈ values.take j ++ [y] := by
    have kept : (values.take (j + 1))[i]? = some x := by
      rw [List.getElem?_take_of_lt (Nat.lt_succ_of_le le), first]
    rw [← parts]
    exact List.mem_of_getElem? kept
  obtain ⟨peak, top⟩ :=
    exists_peak (List.append_ne_nil_of_right_ne_nil (values.take j) (List.cons_ne_nil y []))
  have above : x ≤ peak := top.2 early
  have xPos : 0 < x := positive x (List.mem_of_getElem? first)
  have yPos : 0 < y := positive y (List.mem_of_getElem? second)
  refine ⟨(peak - y) / peak, ⟨values.take j, y, peak, parts ▸ List.take_prefix _ _, top, rfl⟩, ?_⟩
  rw [sub_div, sub_div, div_self xPos.ne', div_self (xPos.trans_le above).ne']
  exact sub_le_sub_left (div_le_div_of_nonneg_left yPos.le xPos above) 1

/-- The greatest decline is the greatest fall. -/
theorem isGreatest_falls [IsStrictOrderedRing K] (positive : ∀ value ∈ values, 0 < value)
    {greatest : K}
    (top : IsGreatest (declines values) greatest) : IsGreatest (falls values) greatest := by
  refine ⟨declines_subset_falls values top.1, fun fall inside => ?_⟩
  obtain ⟨decline, among, le⟩ := fall_le_decline positive inside
  exact le.trans (top.2 among)

end Drawdown
