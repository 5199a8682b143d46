import Mathlib

/-! Equally spaced points on the integers, and the ones next to a given integer. -/
namespace Grid

/-- The points `phase`, `phase ± period`, and so on. -/
def On (period phase x : Int) : Prop := period ∣ x - phase

variable {period : Int} (phase t : Int)

/-- Two different points are a period apart. -/
theorem On.apart {x y : Int} (left : On period phase x) (right : On period phase y)
    (before : x < y) :
    x + period ≤ y := by
  have divides : period ∣ y - x := by
    have difference := Int.dvd_sub right left
    rwa [sub_sub_sub_cancel_right] at difference
  have bound := Int.le_of_dvd (by omega) divides
  omega

theorem floor_on : On period phase (t - (t - phase) % period) := by
  have exact' : t - (t - phase) % period - phase = (t - phase) - (t - phase) % period := by ring
  rw [On, exact']
  exact Int.dvd_self_sub_emod

theorem isGreatest_floor (pos : 0 < period) :
    IsGreatest {x | On period phase x ∧ x ≤ t} (t - (t - phase) % period) := by
  have lower := Int.emod_nonneg (t - phase) pos.ne'
  have upper := Int.emod_lt_of_pos (t - phase) pos
  refine ⟨⟨floor_on phase t, by omega⟩, ?_⟩
  rintro x ⟨on, below⟩
  by_contra above
  have := On.apart phase (floor_on phase t) on (by omega)
  omega

theorem isLeast_above (pos : 0 < period) :
    IsLeast {x | On period phase x ∧ t < x} (t - (t - phase) % period + period) := by
  have lower := Int.emod_nonneg (t - phase) pos.ne'
  have upper := Int.emod_lt_of_pos (t - phase) pos
  have on : On period phase (t - (t - phase) % period + period) := by
    have shift : t - (t - phase) % period + period - phase = t - (t - phase) % period - phase +
        period := by ring
    rw [On, shift]
    exact dvd_add_self_right.mpr (floor_on phase t)
  refine ⟨⟨on, by omega⟩, ?_⟩
  rintro x ⟨here, above⟩
  exact On.apart phase (floor_on phase t) here (by omega)

theorem isLeast_ceil (pos : 0 < period) :
    IsLeast {x | On period phase x ∧ t ≤ x} (t - 1 - (t - 1 - phase) % period + period) := by
  have same : {x | On period phase x ∧ t ≤ x} = {x | On period phase x ∧ t - 1 < x} := by
    ext x
    exact and_congr_right fun _ => by omega
  rw [same]
  exact isLeast_above phase (t - 1) pos

theorem isGreatest_iff (pos : 0 < period) (x : Int) :
    IsGreatest {x | On period phase x ∧ x ≤ t} x ↔ x = t - (t - phase) % period := by
  constructor
  · intro greatest
    exact greatest.unique (isGreatest_floor phase t pos)
  · rintro rfl
    exact isGreatest_floor phase t pos

theorem isLeast_above_iff (pos : 0 < period) (x : Int) :
    IsLeast {x | On period phase x ∧ t < x} x ↔ x = t - (t - phase) % period + period := by
  constructor
  · intro least
    exact least.unique (isLeast_above phase t pos)
  · rintro rfl
    exact isLeast_above phase t pos

theorem isLeast_ceil_iff (pos : 0 < period) (x : Int) :
    IsLeast {x | On period phase x ∧ t ≤ x} x ↔ x = t - 1 - (t - 1 - phase) % period + period := by
  constructor
  · intro least
    exact least.unique (isLeast_ceil phase t pos)
  · rintro rfl
    exact isLeast_ceil phase t pos

end Grid
