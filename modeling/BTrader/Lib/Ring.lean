import Mathlib

/-! A ring of slots numbered from 1: the items 1, 2, .. take the slots one after another,
lap after lap, so that each slot holds the newest item that fell to it. -/

namespace Ring

variable {size p q : Nat}

def slot (size p : Nat) : Nat := (p - 1) % size + 1

theorem slot_pos (size p : Nat) : 1 ≤ slot size p := Nat.le_add_left _ _

theorem slot_le (positive : 1 ≤ size) (p : Nat) : slot size p ≤ size := Nat.mod_lt _ positive

/-- In the first lap an item has the slot of its own number. -/
theorem slot_first (lower : 1 ≤ p) (upper : p ≤ size) : slot size p = p := by
  rw [slot, Nat.mod_eq_of_lt (by omega)]
  omega

theorem slot_succ (positive : 1 ≤ size) (lower : 1 ≤ p) :
    slot size (p + 1) = if slot size p < size then slot size p + 1 else 1 := by
  have before : slot size p = (p - 1) % size + 1 := rfl
  have bound : (p - 1) % size < size := Nat.mod_lt _ positive
  have step : slot size (p + 1) = ((p - 1) % size + 1) % size + 1 := by
    rw [slot, show p + 1 - 1 = p - 1 + 1 by omega, Nat.mod_add_mod]
  rw [step, before]
  by_cases inside : (p - 1) % size + 1 < size
  · rw [if_pos inside, Nat.mod_eq_of_lt inside]
  · have full : (p - 1) % size + 1 = size := by omega
    rw [if_neg inside, full, Nat.mod_self]

theorem slot_lap (size : Nat) (lower : 1 ≤ p) : slot size (p + size) = slot size p := by
  rw [slot, slot, show p + size - 1 = p - 1 + size by omega, Nat.add_mod_right]

/-- The laps before an item, and the items of its own lap up to it. -/
theorem laps_add_slot (size : Nat) (lower : 1 ≤ p) : size * ((p - 1) / size) + slot size p = p := by
  rw [slot, ← Nat.add_assoc, Nat.div_add_mod]
  omega

/-- A lap ends in the last slot. -/
theorem slot_lap_end (positive : 1 ≤ size) (q : Nat) : slot size (size * (q + 1)) = size := by
  rw [slot, Nat.mul_succ, show size * q + size - 1 = size - 1 + size * q by omega,
    Nat.add_mul_mod_self_left, Nat.mod_eq_of_lt (by omega)]
  omega

/-- The next one begins in the first. -/
theorem slot_lap_begin (size q : Nat) : slot size (size * q + 1) = 1 := by
  rw [slot, Nat.add_sub_cancel, Nat.mul_mod_right]

/-- Items less than a lap apart have slots of their own. -/
theorem slot_ne (lower : 1 ≤ p) (later : p < q) (lap : q < p + size) :
    slot size p ≠ slot size q := by
  intro same
  have remainders : (p - 1) % size = (q - 1) % size := Nat.succ_injective same
  have divides : size ∣ (q - 1) - (p - 1) := (Nat.modEq_iff_dvd' (by omega)).mp remainders
  have := Nat.le_of_dvd (by omega) divides
  omega

/-- What the last items of a list of lists hold is the end of what all of them hold. -/
theorem flatten_drop_suffix {α : Type} (pages : List (List α)) (n : Nat) :
    (pages.drop n).flatten <:+ pages.flatten := by
  refine ⟨(pages.take n).flatten, ?_⟩
  rw [← List.flatten_append, List.take_append_drop]

end Ring
