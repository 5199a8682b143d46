import Mathlib

/-! Clock readings. A process adds the steady time since its base was sampled to the
system time of the base; the base and the steady reading are arguments. -/
namespace BTrader.Infra

def nanosecondsPerSecond : Int := 1000000000
def millisecondsPerSecond : Int := 1000
def nanosecondsPerMillisecond : Int := 1000000

structure TimeSpec where
  sec : Int
  nano : Int
  deriving DecidableEq, Repr

namespace TimeSpec

instance : Neg TimeSpec := ⟨fun t => ⟨-t.sec, -t.nano⟩⟩

instance : Add TimeSpec := ⟨fun t that =>
  let nano := t.nano + that.nano
  ⟨t.sec + that.sec + nano.tdiv nanosecondsPerSecond, nano.tmod nanosecondsPerSecond⟩⟩

instance : Sub TimeSpec := ⟨fun t that => t + -that⟩

def toNano (t : TimeSpec) : Int := t.sec * nanosecondsPerSecond + t.nano

def toMili (t : TimeSpec) : Int :=
  t.sec * millisecondsPerSecond + t.nano.tdiv nanosecondsPerMillisecond

end TimeSpec

structure TimePointInfo where
  systemClockCount : TimeSpec
  steadyClockCount : TimeSpec
  deriving DecidableEq, Repr

inductive TimeUnit where
  | nano | milli | sec
  deriving DecidableEq, Repr

/-- The sum that all readings of the current time start with. -/
def elapsed (base : TimePointInfo) (steady : TimeSpec) : TimeSpec :=
  base.systemClockCount + (steady - base.steadyClockCount)

def nowInNano (base : TimePointInfo) (steady : TimeSpec) : Int := (elapsed base steady).toNano

def nowInSec (base : TimePointInfo) (steady : TimeSpec) : Int := (elapsed base steady).sec

def nowInMili (base : TimePointInfo) (steady : TimeSpec) : Int := (elapsed base steady).toMili

def nowTime (unit : TimeUnit) (base : TimePointInfo) (steady : TimeSpec) : Int :=
  match unit with
  | .nano => nowInNano base steady
  | .milli => nowInMili base steady
  | .sec => nowInSec base steady

/-! The two clocks of a machine: instants are steady nanoseconds, the system clock is
ahead of them by a constant offset. -/

/-- What a clock shows at that many nanoseconds. -/
def clockAt (nanos : Int) : TimeSpec := ⟨nanos / nanosecondsPerSecond, nanos % nanosecondsPerSecond⟩

/-- A base sampled at one instant. -/
def baseAt (offset instant : Int) : TimePointInfo := ⟨clockAt (instant + offset), clockAt instant⟩

def TimeUnit.tick : TimeUnit → Int
  | .nano => 1
  | .milli => nanosecondsPerMillisecond
  | .sec => nanosecondsPerSecond

/-- The nanosecond part of the sum is negative: what is cut off rounds the time up. -/
def RoundsUp (base : TimePointInfo) (steady : TimeSpec) : Prop :=
  base.systemClockCount.nano + steady.nano < base.steadyClockCount.nano

instance (base : TimePointInfo) (steady : TimeSpec) : Decidable (RoundsUp base steady) :=
  inferInstanceAs (Decidable (_ < _))

theorem add_eq (t that : TimeSpec) : t + that =
    ⟨t.sec + that.sec + (t.nano + that.nano).tdiv nanosecondsPerSecond,
      (t.nano + that.nano).tmod nanosecondsPerSecond⟩ := rfl

/-- Division of a negative number rounds towards zero. -/
theorem tdiv_of_neg (neg : x < 0) (d : Int) : x.tdiv d = -(-x / d) := by
  rw [← Int.tdiv_eq_ediv_of_nonneg (by omega), Int.neg_tdiv, neg_neg]

/-- A nanosecond part of less than a second either way is not carried. -/
theorem carry_small (lower : -1000000000 < x) (upper : x < 1000000000) :
    x.tdiv nanosecondsPerSecond = 0 ∧ x.tmod nanosecondsPerSecond = x := by
  have none : x.tdiv nanosecondsPerSecond = 0 := by
    unfold nanosecondsPerSecond
    rcases lt_or_ge x 0 with neg | nonneg
    · rw [tdiv_of_neg neg]
      omega
    · rw [Int.tdiv_eq_ediv_of_nonneg nonneg]
      omega
  exact ⟨none, by rw [Int.tmod_def, none, mul_zero, sub_zero]⟩

theorem carry_nonneg {x : Int} (nonneg : 0 ≤ x) :
    x.tdiv nanosecondsPerSecond = x / 1000000000 ∧ x.tmod nanosecondsPerSecond = x % 1000000000 :=
  ⟨Int.tdiv_eq_ediv_of_nonneg nonneg, Int.tmod_eq_emod_of_nonneg nonneg⟩

theorem clockAt_sub (t i : Int) :
    clockAt t - clockAt i = ⟨t / 1000000000 - i / 1000000000, t % 1000000000 - i % 1000000000⟩ := by
  have small := carry_small (x := t % 1000000000 + -(i % 1000000000)) (by omega) (by omega)
  change clockAt t + (⟨-(i / 1000000000), -(i % 1000000000)⟩ : TimeSpec) = _
  rw [add_eq]
  change (⟨t / 1000000000 + -(i / 1000000000) +
    (t % 1000000000 + -(i % 1000000000)).tdiv nanosecondsPerSecond,
    (t % 1000000000 + -(i % 1000000000)).tmod nanosecondsPerSecond⟩ : TimeSpec) = _
  rw [small.1, small.2, TimeSpec.mk.injEq]
  omega

theorem roundsUp_iff (offset instant t : Int) : RoundsUp (baseAt offset instant) (clockAt t) ↔
    (instant + offset) % 1000000000 + t % 1000000000 < instant % 1000000000 := Iff.rfl

/-- The sum of the readings is exact; its nanosecond part is negative when it rounds up. -/
theorem elapsed_eq (offset instant t : Int) :
    elapsed (baseAt offset instant) (clockAt t) =
      if RoundsUp (baseAt offset instant) (clockAt t) then
        ⟨(t + offset) / 1000000000 + 1, (t + offset) % 1000000000 - 1000000000⟩
      else ⟨(t + offset) / 1000000000, (t + offset) % 1000000000⟩ := by
  let x := (instant + offset) % 1000000000 + (t % 1000000000 - instant % 1000000000)
  have sum : elapsed (baseAt offset instant) (clockAt t) =
      ⟨(instant + offset) / 1000000000 + (t / 1000000000 - instant / 1000000000) +
        x.tdiv nanosecondsPerSecond, x.tmod nanosecondsPerSecond⟩ := by
    change clockAt (instant + offset) + (clockAt t - clockAt instant) = _
    rw [clockAt_sub, add_eq]
    rfl
  have test := roundsUp_iff offset instant t
  rw [sum]
  split
  · rename_i up
    have negative := test.mp up
    obtain ⟨carried, left⟩ := carry_small (x := x) (by omega) (by omega)
    rw [carried, left, TimeSpec.mk.injEq]
    omega
  · rename_i down
    have positive := mt test.mpr down
    obtain ⟨carried, left⟩ := carry_nonneg (x := x) (by omega)
    rw [carried, left, TimeSpec.mk.injEq]
    omega

/-- The time in a unit is the exact time cut to its tick, downwards or upwards. -/
theorem nowTime_eq (unit : TimeUnit) (offset instant t : Int) :
    nowTime unit (baseAt offset instant) (clockAt t) =
      if RoundsUp (baseAt offset instant) (clockAt t) then -(-(t + offset) / unit.tick)
      else (t + offset) / unit.tick := by
  have exact' := elapsed_eq offset instant t
  split
  · rename_i up
    rw [if_pos up] at exact'
    have test := (roundsUp_iff offset instant t).mp up
    cases unit with
    | nano =>
      simp only [nowTime, nowInNano, exact', TimeSpec.toNano, TimeUnit.tick, nanosecondsPerSecond]
      omega
    | milli =>
      have cut := tdiv_of_neg (x := (t + offset) % 1000000000 - 1000000000) (by omega) 1000000
      simp only [nowTime, nowInMili, exact', TimeSpec.toMili, TimeUnit.tick,
        nanosecondsPerMillisecond, millisecondsPerSecond, cut]
      omega
    | sec =>
      simp only [nowTime, nowInSec, exact', TimeUnit.tick, nanosecondsPerSecond]
      omega
  · rename_i down
    rw [if_neg down] at exact'
    cases unit with
    | nano =>
      simp only [nowTime, nowInNano, exact', TimeSpec.toNano, TimeUnit.tick, nanosecondsPerSecond]
      omega
    | milli =>
      have cut :=
        Int.tdiv_eq_ediv_of_nonneg (a := (t + offset) % 1000000000) (by omega) (b := 1000000)
      simp only [nowTime, nowInMili, exact', TimeSpec.toMili, TimeUnit.tick,
        nanosecondsPerMillisecond, millisecondsPerSecond, cut]
      omega
    | sec => simp only [nowTime, nowInSec, exact', TimeUnit.tick, nanosecondsPerSecond]

/-- The two instants are in one tick of the system clock, and the first one is not its beginning. -/
def InOneTick (unit : TimeUnit) (offset t₁ t₂ : Int) : Prop :=
  (t₁ + offset) / unit.tick = (t₂ + offset) / unit.tick ∧ (t₁ + offset) % unit.tick ≠ 0

/-- A later reading in another process is not smaller, unless only the first one is rounded
up and both are in one tick. -/
theorem nowTime_le_iff (unit : TimeUnit) (offset b₁ b₂ : Int) {t₁ t₂ : Int} (later : t₁ ≤ t₂) :
    nowTime unit (baseAt offset b₁) (clockAt t₁) ≤ nowTime unit (baseAt offset b₂) (clockAt t₂) ↔
      ¬ (RoundsUp (baseAt offset b₁) (clockAt t₁) ∧ ¬ RoundsUp (baseAt offset b₂) (clockAt t₂) ∧
        InOneTick unit offset t₁ t₂) := by
  rw [nowTime_eq, nowTime_eq, InOneTick]
  cases unit <;> simp only [TimeUnit.tick, nanosecondsPerMillisecond, nanosecondsPerSecond] <;>
    split <;> split <;> simp only [*, true_and, false_and, not_true_eq_false,
      not_false_eq_true, iff_true] <;>
    omega

/-- One process never reads a smaller time later. -/
theorem nowTime_mono (unit : TimeUnit) (offset b : Int) {t₁ t₂ : Int} (later : t₁ ≤ t₂) :
    nowTime unit (baseAt offset b) (clockAt t₁) ≤ nowTime unit (baseAt offset b) (clockAt t₂) := by
  rw [nowTime_le_iff unit offset b b later, roundsUp_iff, roundsUp_iff, InOneTick]
  cases unit <;> simp only [TimeUnit.tick, nanosecondsPerMillisecond, nanosecondsPerSecond]
    <;> omega

end BTrader.Infra

namespace BTrader

/-- A time that an `int64_t` holds. -/
def IsInt64 (time : Int) : Prop := -2 ^ 63 ≤ time ∧ time < 2 ^ 63

theorem IsInt64.ofInt_le_iff (left : IsInt64 s) (right : IsInt64 t) :
    Int64.ofInt s ≤ Int64.ofInt t ↔ s ≤ t := by
  rw [Int64.le_iff_toInt_le, Int64.toInt_ofInt_of_le left.1 left.2,
    Int64.toInt_ofInt_of_le right.1 right.2]

end BTrader
