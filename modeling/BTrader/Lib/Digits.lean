import Mathlib

/-! Numbers written in a base of at most sixteen, and read again. -/
namespace Digits

/-- The value of a digit, of either case; no other character has one. -/
def value (c : Char) : Option Nat :=
  if c.isDigit then some (c.toNat - 48)
  else if 'a' ≤ c ∧ c ≤ 'f' then some (c.toNat - 87)
  else if 'A' ≤ c ∧ c ≤ 'F' then some (c.toNat - 55)
  else none

/-- The digits of the base at the front of a text. -/
def leading (base : Nat) (text : List Char) : List Char :=
  text.takeWhile fun c => (value c).any (· < base)

def read (base : Nat) (digits : List Char) : Nat :=
  digits.foldl (fun n c => base * n + (value c).getD 0) 0

variable {base n : Nat}

theorem value_digitChar (small : n < 16) : value n.digitChar = some n := by
  interval_cases n <;> decide

theorem read_append (digits more : List Char) :
    read base (digits ++ more) =
      more.foldl (fun n c => base * n + (value c).getD 0) (read base digits) := by
  rw [read, List.foldl_append, ← read]

theorem read_toDigits (lower : 1 < base) (upper : base ≤ 16) (n : Nat) :
    read base (Nat.toDigits base n) = n := by
  induction n using Nat.strong_induction_on with
  | h n ih =>
    rw [Nat.toDigits_eq_if lower]
    split
    · simp [read, value_digitChar (by omega : n < 16)]
    · rename_i large
      have smaller : n / base < n := Nat.div_lt_self (by omega) lower
      have last : n % base < 16 := (Nat.mod_lt n (by omega)).trans_le upper
      rw [read_append, ih _ smaller]
      simp [value_digitChar last, Nat.div_add_mod]

theorem read_replicate_zero (count : Nat) (digits : List Char) :
    read base (List.replicate count '0' ++ digits) = read base digits := by
  have zeros : read base (List.replicate count '0') = 0 := by
    induction count with
    | zero => rfl
    | succ count ih =>
      rw [List.replicate_succ', read_append, ih]
      rfl
  rw [read_append, zeros, read]

/-- What is written in a base are digits of it. -/
theorem digit_toDigits (lower : 1 < base) (upper : base ≤ 16) (n : Nat) :
    ∀ c ∈ Nat.toDigits base n, (value c).any (· < base) = true := by
  induction n using Nat.strong_induction_on with
  | h n ih =>
    intro c member
    rw [Nat.toDigits_eq_if lower] at member
    split at member
    · rename_i small
      rw [List.mem_singleton.mp member, value_digitChar (by omega)]
      simpa using small
    · rename_i large
      have below : n % base < base := Nat.mod_lt n (by omega)
      rcases List.mem_append.mp member with front | last
      · exact ih _ (Nat.div_lt_self (by omega) lower) c front
      · rw [List.mem_singleton.mp last, value_digitChar (by omega)]
        simpa using below

theorem leading_digits {digits : List Char} (all : ∀ c ∈ digits, (value c).any (· < base) = true) :
    leading base digits = digits := List.takeWhile_eq_self_iff.mpr all

end Digits
