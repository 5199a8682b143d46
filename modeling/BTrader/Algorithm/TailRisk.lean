import BTrader.Algorithm.MaxDrawdown
import BTrader.Core.Types

/-! The value at risk, and the average of the returns below it. -/
namespace BTrader.Algorithm

/-- What both functions give back 0 for. -/
def Invalid (returns : List ℚ) (confidenceLevel : ℚ) : Prop :=
  returns.length ≤ 0 ∨ confidenceLevel ≤ 0 ∨ confidenceLevel ≥ 1

instance (returns : List ℚ) (confidenceLevel : ℚ) : Decidable (Invalid returns confidenceLevel) :=
  inferInstanceAs (Decidable (_ ∨ _))

def sortedReturns (returns : List ℚ) : List ℚ := returns.mergeSort fun x y => x ≤ y

/-- The index is an `int`, which drops the part behind the point. -/
def tailIndex (returns : List ℚ) (confidenceLevel : ℚ) : ℤ :=
  let index := castInt64 ((1 - confidenceLevel) * returns.length)
  if index < 0 then 0 else index

/-- None where the index is outside of the vector. -/
def valueAtRisk (returns : List ℚ) (confidenceLevel : ℚ) : Option ℚ :=
  if Invalid returns confidenceLevel then some 0
  else (sortedReturns returns)[(tailIndex returns confidenceLevel).toNat]?

/-- The sum of the first values; none where there are not as many. -/
def sumFirst (values : List ℚ) (count : ℕ) : Option ℚ :=
  (List.range count).foldlM (fun sum i => values[i]?.map fun value => sum + value) 0

def expectedShortfall (returns : List ℚ) (confidenceLevel : ℚ) : Option ℚ :=
  if Invalid returns confidenceLevel then some 0
  else
    (sumFirst (sortedReturns returns) (tailIndex returns confidenceLevel).toNat).bind fun sum =>
      divide sum (tailIndex returns confidenceLevel)

variable {returns values : List ℚ} {confidenceLevel : ℚ}

theorem sumFirst_eq {count : ℕ} (le : count ≤ values.length) :
    sumFirst values count = some (values.take count).sum := by
  unfold sumFirst
  induction count with
  | zero => rfl
  | succ count ih =>
    have here : values[count]? = some values[count] := List.getElem?_eq_getElem le
    have next : values.take (count + 1) = values.take count ++ [values[count]] := by
      rw [List.take_add_one, here]
      rfl
    rw [List.range_succ, List.foldlM_append, ih (Nat.le_of_succ_le le), next, List.sum_append]
    simp [here]

theorem sortedReturns_pairwise (returns : List ℚ) : (sortedReturns returns).Pairwise (· ≤ ·) := by
  have sorted : (sortedReturns returns).Pairwise fun x y => decide (x ≤ y) = true := by
    apply List.pairwise_mergeSort
    · intro x y z
      simpa using le_trans
    · intro x y
      simpa using le_total x y
  exact sorted.imp fun le => by simpa using le

/-- The average of what comes first in a sorted list is not above what comes next. -/
theorem average_first_le (sorted : values.Pairwise (· ≤ ·)) {count : ℕ} (some : 0 < count)
    (bound : count < values.length) :
    (values.take count).sum / count ≤ values[count] := by
  have below : ∀ value ∈ values.take count, value ≤ values[count] := by
    intro value member
    obtain ⟨i, inside, rfl⟩ := List.mem_iff_getElem.mp member
    rw [List.length_take] at inside
    rw [List.getElem_take]
    exact List.pairwise_iff_getElem.mp sorted i count (by omega) bound (by omega)
  have total := List.sum_le_card_nsmul _ _ below
  rw [List.length_take_of_le bound.le, nsmul_eq_mul] at total
  rw [div_le_iff₀ (Nat.cast_pos.mpr some), mul_comm]
  exact total

theorem tailIndex_bounds (filled : returns ≠ []) (above : 0 < confidenceLevel)
    (below : confidenceLevel < 1) :
    tailIndex returns confidenceLevel = ⌊(1 - confidenceLevel) * returns.length⌋ ∧
      0 ≤ tailIndex returns confidenceLevel ∧ tailIndex returns confidenceLevel <
        returns.length := by
  have positive : (0 : ℚ) < returns.length := Nat.cast_pos.mpr (List.length_pos_of_ne_nil filled)
  have nonneg : 0 ≤ (1 - confidenceLevel) * returns.length :=
    mul_nonneg (sub_nonneg.mpr below.le) positive.le
  have floor : tailIndex returns confidenceLevel = ⌊(1 - confidenceLevel) * returns.length⌋ := by
    rw [tailIndex, castInt64_nonneg_eq nonneg]
    exact if_neg (not_lt.mpr (Int.floor_nonneg.mpr nonneg))
  rw [floor]
  refine ⟨rfl, Int.floor_nonneg.mpr nonneg, Int.floor_lt.mpr ?_⟩
  have less : (1 - confidenceLevel) * returns.length < 1 * returns.length :=
    mul_lt_mul_of_pos_right (by linarith) positive
  rwa [one_mul] at less

/-- Both are defined, and in order, just when the tail has a whole return. -/
theorem tail_risk_iff (filled : returns ≠ []) (above : 0 < confidenceLevel)
    (below : confidenceLevel < 1) :
    (∃ shortfall risk, expectedShortfall returns confidenceLevel = some shortfall ∧
      valueAtRisk returns confidenceLevel = some risk ∧ shortfall ≤ risk) ↔
      1 ≤ (1 - confidenceLevel) * returns.length := by
  obtain ⟨floor, nonneg, inside⟩ := tailIndex_bounds filled above below
  obtain ⟨count, counted⟩ := Int.eq_ofNat_of_zero_le nonneg
  have valid : ¬ Invalid returns confidenceLevel := by
    rintro (none | low | high)
    · exact filled (List.eq_nil_of_length_eq_zero (Nat.le_zero.mp none))
    · exact absurd above (not_lt.mpr low)
    · exact absurd below (not_lt.mpr high)
  have bound : count < (sortedReturns returns).length := by
    rw [sortedReturns, List.length_mergeSort]
    omega
  have risk : valueAtRisk returns confidenceLevel = some (sortedReturns returns)[count] := by
    rw [valueAtRisk, if_neg valid, counted]
    exact List.getElem?_eq_getElem bound
  have shortfall : expectedShortfall returns confidenceLevel =
      divide ((sortedReturns returns).take count).sum count := by
    rw [expectedShortfall, if_neg valid, counted, Int.toNat_natCast, sumFirst_eq bound.le]
    rfl
  have whole : 0 < count ↔ 1 ≤ (1 - confidenceLevel) * returns.length := by
    have least : 1 ≤ ⌊(1 - confidenceLevel) * returns.length⌋ ↔
        1 ≤ (1 - confidenceLevel) * returns.length := by
      rw [Int.le_floor, Int.cast_one]
    rw [← least, ← floor, counted]
    omega
  rw [← whole, risk, shortfall]
  constructor
  · rintro ⟨shortfall, _, divided, -, -⟩
    have nonzero := divide_isSome_iff.mp (Option.isSome_of_eq_some divided)
    exact Nat.pos_of_ne_zero (Nat.cast_ne_zero.mp nonzero)
  · intro some
    refine ⟨_, _, divide_of_ne (Nat.cast_ne_zero.mpr some.ne'), rfl, ?_⟩
    exact average_first_le (sortedReturns_pairwise returns) some bound

/-- Of one return, no half is whole. -/
theorem no_tail : ¬ ∀ (returns : List ℚ) (confidenceLevel : ℚ), returns ≠ [] → 0 < confidenceLevel →
    confidenceLevel < 1 →
    ∃ shortfall risk, expectedShortfall returns confidenceLevel = some shortfall ∧
      valueAtRisk returns confidenceLevel = some risk ∧ shortfall ≤ risk := by
  intro right
  obtain ⟨shortfall, _, divided, -, -⟩ := right [1] (1 / 2) (by decide) (by norm_num) (by norm_num)
  have index : tailIndex [1] (1 / 2) = 0 := by decide +kernel
  have valid : ¬ Invalid [1] (1 / 2) := by decide +kernel
  rw [expectedShortfall, if_neg valid, index] at divided
  cases divided

/-- Half of two returns is the lower one. -/
theorem tail_of_two : ∃ shortfall risk, expectedShortfall [2, 1] (1 / 2) = some shortfall ∧
    valueAtRisk [2, 1] (1 / 2) = some risk ∧ shortfall ≤ risk :=
  (tail_risk_iff (by decide) (by norm_num) (by norm_num)).mpr (by norm_num)

end BTrader.Algorithm
