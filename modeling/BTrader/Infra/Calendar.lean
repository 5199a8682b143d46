import BTrader.Infra.Time
import BTrader.Lib.Grid

/-! Minutes, calendar days and trading days. Each function has a copy for each unit; the days
begin and end at Beijing time. -/
namespace BTrader.Infra

def secondsPerMinute : Int := 60
def secondsPerHour : Int := 3600
def secondsPerDay : Int := 86400
def millisecondsPerMinute : Int := 60000
def millisecondsPerHour : Int := 3600000
def millisecondsPerDay : Int := 86400000
def nanosecondsPerMinute : Int := 60000000000
def nanosecondsPerHour : Int := 3600000000000
def nanosecondsPerDay : Int := 86400000000000
def nanoUtcOffset : Int := nanosecondsPerHour * 8
def miliUtcOffset : Int := millisecondsPerHour * 8
def secUtcOffset : Int := secondsPerHour * 8

/-- The next multiple of a minute of that length. -/
def nextMinuteIn (perMinute timestamp : Int) : Int :=
  timestamp - timestamp.tmod perMinute + perMinute

/-- The copies for nanoseconds and for seconds have each other's minute. -/
def nextMinute (unit : TimeUnit) (timestamp : Int) : Int :=
  match unit with
  | .nano => nextMinuteIn secondsPerMinute timestamp
  | .milli => nextMinuteIn millisecondsPerMinute timestamp
  | .sec => nextMinuteIn nanosecondsPerMinute timestamp

def tradingDayEndIn (perDay perHour perMinute utcOffset now timestamp : Int) : Int :=
  let endOffset := 15 * perHour + 30 * perMinute
  let tradingDay := timestamp - timestamp.tmod perDay - utcOffset + endOffset
  if tradingDay < now then tradingDay + perDay else tradingDay

/-- `now` is the reading of the clock in the unit. -/
def nextTradingDayEnd (unit : TimeUnit) (now timestamp : Int) : Int :=
  match unit with
  | .nano =>
    tradingDayEndIn nanosecondsPerDay nanosecondsPerHour nanosecondsPerMinute
      nanoUtcOffset now timestamp
  | .milli =>
    tradingDayEndIn millisecondsPerDay millisecondsPerHour millisecondsPerMinute
      miliUtcOffset now timestamp
  | .sec => tradingDayEndIn secondsPerDay secondsPerHour secondsPerMinute secUtcOffset now timestamp

def dayStartIn (perDay utcOffset timestamp : Int) : Int :=
  timestamp - timestamp.tmod perDay - utcOffset

def calendarDayStart (unit : TimeUnit) (timestamp : Int) : Int :=
  match unit with
  | .nano => dayStartIn nanosecondsPerDay nanoUtcOffset timestamp
  | .milli => dayStartIn millisecondsPerDay miliUtcOffset timestamp
  | .sec => dayStartIn secondsPerDay secUtcOffset timestamp

/-- `strptime` is the timestamp the library makes of the date. -/
def strptimerange {τ : Type} (strptime : τ → String → Int) (unit : TimeUnit) (now : Int)
    (timeString : τ) (format : String) : Int × Int :=
  let startTime := calendarDayStart unit (strptime timeString format)
  (startTime, nextTradingDayEnd unit now startTime)

namespace TimeUnit

/-- A second, in each unit. -/
def second : TimeUnit → Int
  | nano => nanosecondsPerSecond
  | milli => millisecondsPerSecond
  | sec => 1

def minute (unit : TimeUnit) : Int := 60 * unit.second
def hour (unit : TimeUnit) : Int := 3600 * unit.second
def day (unit : TimeUnit) : Int := 24 * unit.hour

/-- The three copies, in numbers. -/
theorem lengths (unit : TimeUnit) :
    (unit.minute = 60000000000 ∧ unit.hour = 3600000000000 ∧ unit.day = 86400000000000) ∨
      (unit.minute = 60000 ∧ unit.hour = 3600000 ∧ unit.day = 86400000) ∨
      (unit.minute = 60 ∧ unit.hour = 3600 ∧ unit.day = 86400) := by
  cases unit <;> decide

theorem day_pos (unit : TimeUnit) : 0 < unit.day := by cases unit <;> decide

end TimeUnit

/-- Midnight in Beijing is 16:00 UTC. -/
def Midnight (unit : TimeUnit) : Int → Prop := Grid.On unit.day (16 * unit.hour)

/-- 15:30 in Beijing is 7:30 UTC. -/
def TradingEnd (unit : TimeUnit) : Int → Prop := Grid.On unit.day (7 * unit.hour + 30 * unit.minute)

section Equations

/-- Division rounds towards zero, so that a remainder has the sign of its number. -/
theorem tmod_of_neg {x : Int} (neg : x < 0) (d : Int) : x.tmod d = -(-x % d) := by
  rw [Int.tmod_def, tdiv_of_neg neg, Int.emod_def]
  ring

theorem calendarDayStart_eq (unit : TimeUnit) (timestamp : Int) :
    calendarDayStart unit timestamp = timestamp - timestamp.tmod unit.day - 8 * unit.hour := by
  cases unit <;> rfl

theorem nextTradingDayEnd_eq (unit : TimeUnit) (now timestamp : Int) :
    nextTradingDayEnd unit now timestamp =
      let tradingDay := timestamp - timestamp.tmod unit.day + 7 * unit.hour + 30 * unit.minute
      if tradingDay < now then tradingDay + unit.day else tradingDay := by
  have eight (perDay perHour perMinute : Int) :
      tradingDayEndIn perDay perHour perMinute (perHour * 8) now timestamp =
      let tradingDay := timestamp - timestamp.tmod perDay + 7 * perHour + 30 * perMinute
      if tradingDay < now then tradingDay + perDay else tradingDay := by
    have offsets :
        timestamp - timestamp.tmod perDay - perHour * 8 + (15 * perHour + 30 * perMinute) =
        timestamp - timestamp.tmod perDay + 7 * perHour + 30 * perMinute := by ring
    simp only [tradingDayEndIn, offsets]
  cases unit <;> exact eight _ _ _

end Equations

section DayStart
variable (unit : TimeUnit) {timestamp : Int}

theorem calendarDayStart_nonneg (nonneg : 0 ≤ timestamp) :
    calendarDayStart unit timestamp = timestamp - timestamp % unit.day - 8 * unit.hour := by
  rw [calendarDayStart_eq, Int.tmod_eq_emod_of_nonneg nonneg]

/-- The result is right in the first 16 hours of a UTC day. -/
theorem isGreatest_dayStart (nonneg : 0 ≤ timestamp) :
    IsGreatest {m | Midnight unit m ∧ m ≤ timestamp} (calendarDayStart unit timestamp) ↔
      timestamp % unit.day < 16 * unit.hour := by
  have greatest :=
    Grid.isGreatest_iff (16 * unit.hour) timestamp unit.day_pos (calendarDayStart unit timestamp)
  rw [← Midnight, calendarDayStart_nonneg unit nonneg] at greatest
  rw [calendarDayStart_nonneg unit nonneg, greatest]
  rcases unit.lengths with ⟨_, hour, day⟩ | ⟨_, hour, day⟩ | ⟨_, hour, day⟩
    <;> rw [hour, day] <;> omega

theorem dayStart_bounds (nonneg : 0 ≤ timestamp) :
    calendarDayStart unit timestamp ≤ timestamp ∧
      timestamp < calendarDayStart unit timestamp + unit.day ↔
      timestamp % unit.day < 16 * unit.hour := by
  rw [calendarDayStart_nonneg unit nonneg]
  rcases unit.lengths with ⟨_, hour, day⟩ | ⟨_, hour, day⟩ | ⟨_, hour, day⟩
    <;> rw [hour, day] <;> omega

theorem dayStart_mono (nonneg : 0 ≤ timestamp) {later : Int} (le : timestamp ≤ later) :
    calendarDayStart unit timestamp ≤ calendarDayStart unit later := by
  rw [calendarDayStart_nonneg unit nonneg, calendarDayStart_nonneg unit (nonneg.trans le)]
  rcases unit.lengths with ⟨_, hour, day⟩ | ⟨_, hour, day⟩ | ⟨_, hour, day⟩
    <;> rw [hour, day] <;> omega

/-- The second time takes a day off, unless the first result is before the epoch. -/
theorem dayStart_twice (nonneg : 0 ≤ timestamp) :
    calendarDayStart unit (calendarDayStart unit timestamp) = calendarDayStart unit timestamp ↔
      timestamp < unit.day := by
  have first := calendarDayStart_nonneg unit nonneg
  by_cases early : timestamp < unit.day
  · have start : calendarDayStart unit timestamp = -(8 * unit.hour) := by
      rw [first, Int.emod_eq_of_lt nonneg early]
      ring
    have negative : -(8 * unit.hour) < 0 := by
      rcases unit.lengths with ⟨_, hour, _⟩ | ⟨_, hour, _⟩ | ⟨_, hour, _⟩ <;> omega
    refine iff_of_true ?_ early
    rw [start, calendarDayStart_eq, tmod_of_neg negative]
    rcases unit.lengths with ⟨_, hour, day⟩ | ⟨_, hour, day⟩ | ⟨_, hour, day⟩
      <;> rw [hour, day] <;> omega
  · have after : 0 ≤ calendarDayStart unit timestamp := by
      rw [first]
      rcases unit.lengths with ⟨_, hour, day⟩ | ⟨_, hour, day⟩ | ⟨_, hour, day⟩ <;>
        simp only [hour, day] at early ⊢ <;> omega
    refine iff_of_false ?_ early
    rw [calendarDayStart_nonneg unit after, first]
    rcases unit.lengths with ⟨_, hour, day⟩ | ⟨_, hour, day⟩ | ⟨_, hour, day⟩
      <;> rw [hour, day] <;> omega

end DayStart

/-- The start of the day is right just before 16:00 UTC, the time at which the day begins in
Beijing. It is monotone. Applied twice it gives the same on the first day of the epoch only. -/
theorem calendarDayStart_iff (unit : TimeUnit) {timestamp : Int} (nonneg : 0 ≤ timestamp) :
    (IsGreatest {m | Midnight unit m ∧ m ≤ timestamp} (calendarDayStart unit timestamp) ↔
        timestamp % unit.day < 16 * unit.hour) ∧
      (calendarDayStart unit timestamp ≤ timestamp ∧
        timestamp < calendarDayStart unit timestamp + unit.day ↔
        timestamp % unit.day < 16 * unit.hour) ∧
      (∀ later, timestamp ≤ later → calendarDayStart unit timestamp ≤ calendarDayStart unit later) ∧
      (calendarDayStart unit (calendarDayStart unit timestamp) = calendarDayStart unit timestamp ↔
        timestamp < unit.day) :=
  ⟨isGreatest_dayStart unit nonneg, dayStart_bounds unit nonneg,
    fun _ le => dayStart_mono unit nonneg le, dayStart_twice unit nonneg⟩

/-- At 20:00 UTC on a day of 2023. -/
theorem calendarDayStart_evening :
    (IsGreatest {m | Midnight .sec m ∧ m ≤ 1700078400} (calendarDayStart .sec 1700078400) ↔
        1700078400 % TimeUnit.sec.day < 16 * TimeUnit.sec.hour) ∧
      (calendarDayStart .sec 1700078400 ≤ 1700078400 ∧
          1700078400 < calendarDayStart .sec 1700078400 + TimeUnit.sec.day ↔
        1700078400 % TimeUnit.sec.day < 16 * TimeUnit.sec.hour) ∧
      (∀ later, 1700078400 ≤ later → calendarDayStart .sec 1700078400 ≤
        calendarDayStart .sec later) ∧
      (calendarDayStart .sec (calendarDayStart .sec 1700078400) = calendarDayStart .sec 1700078400 ↔
        1700078400 < TimeUnit.sec.day) :=
  calendarDayStart_iff .sec (by decide)

/-- The next day has begun in Beijing, but the result is the day before. -/
theorem dayStart_late : ¬ ∀ (unit : TimeUnit) (timestamp : Int), 0 ≤ timestamp →
    IsGreatest {m | Midnight unit m ∧ m ≤ timestamp} (calendarDayStart unit timestamp) := by
  intro claim
  have early := (isGreatest_dayStart .sec (by decide)).mp (claim .sec 1700078400 (by decide))
  exact absurd early (by decide)

/-- 15:30 in Beijing of the UTC day of the timestamp, which the result is compared from. -/
def dayEnd (unit : TimeUnit) (timestamp : Int) : Int :=
  timestamp - timestamp.tmod unit.day + 7 * unit.hour + 30 * unit.minute

/-- The two times have one date in Beijing. -/
def SameDay (unit : TimeUnit) (s t : Int) : Prop :=
  (s - 16 * unit.hour) / unit.day = (t - 16 * unit.hour) / unit.day

section DayEnd
variable (unit : TimeUnit) {now timestamp : Int}

theorem nextTradingDayEnd_cases (now timestamp : Int) : nextTradingDayEnd unit now timestamp =
    if dayEnd unit timestamp < now then dayEnd unit timestamp + unit.day
    else dayEnd unit timestamp :=
  nextTradingDayEnd_eq unit now timestamp

/-- The result is right when the clock and the timestamp are on the same side of 15:30. -/
theorem isLeast_dayEnd (nonneg : 0 ≤ timestamp) :
    IsLeast {e | TradingEnd unit e ∧ timestamp ≤ e} (nextTradingDayEnd unit now timestamp) ↔
      (timestamp ≤ dayEnd unit timestamp ↔ now ≤ dayEnd unit timestamp) := by
  have least := Grid.isLeast_ceil_iff (7 * unit.hour + 30 * unit.minute) timestamp unit.day_pos
    (nextTradingDayEnd unit now timestamp)
  rw [← TradingEnd] at least
  rw [least, nextTradingDayEnd_cases, dayEnd, Int.tmod_eq_emod_of_nonneg nonneg]
  rcases unit.lengths with ⟨minute, hour, day⟩ | ⟨minute, hour, day⟩ | ⟨minute, hour, day⟩ <;>
    rw [minute, hour, day] <;> split <;> omega

/-- Two clocks give one result when they are on the same side of 15:30. -/
theorem dayEnd_clocks (first second : Int) :
    nextTradingDayEnd unit first timestamp = nextTradingDayEnd unit second timestamp ↔
      (first ≤ dayEnd unit timestamp ↔ second ≤ dayEnd unit timestamp) := by
  have := unit.day_pos
  rw [nextTradingDayEnd_cases, nextTradingDayEnd_cases]
  split <;> split <;> omega

theorem dayEnd_mono (nonneg : 0 ≤ timestamp) {later : Int} (le : timestamp ≤ later) :
    nextTradingDayEnd unit now timestamp ≤ nextTradingDayEnd unit now later := by
  rw [nextTradingDayEnd_cases, nextTradingDayEnd_cases, dayEnd, dayEnd,
    Int.tmod_eq_emod_of_nonneg nonneg, Int.tmod_eq_emod_of_nonneg (nonneg.trans le)]
  rcases unit.lengths with ⟨minute, hour, day⟩ | ⟨minute, hour, day⟩ | ⟨minute, hour, day⟩ <;>
    rw [minute, hour, day] <;> split <;> split <;> omega

/-- The start and the end of the day, from the days that the division leaves of a timestamp. -/
theorem whole_days (timestamp : Int) :
    ∃ k, calendarDayStart unit timestamp = unit.day * k - 8 * unit.hour ∧
    dayEnd unit timestamp = unit.day * k + 7 * unit.hour + 30 * unit.minute ∧
    (timestamp < unit.day → k ≤ 0) ∧ (unit.day ≤ timestamp → 1 ≤ k) := by
  have whole : timestamp - timestamp.tmod unit.day = unit.day * timestamp.tdiv unit.day := by
    rw [Int.tmod_def]
    ring
  refine ⟨timestamp.tdiv unit.day, ?_, ?_, ?_, ?_⟩
  · rw [calendarDayStart_eq, whole]
  · rw [dayEnd, whole]
  · intro early
    rcases lt_or_ge timestamp 0 with negative | nonneg
    · have := Int.ediv_nonneg (by omega : 0 ≤ -timestamp) unit.day_pos.le
      rw [tdiv_of_neg negative]
      omega
    · rw [Int.tdiv_eq_zero_of_lt nonneg early]
  · intro late
    rw [Int.tdiv_eq_ediv_of_nonneg (unit.day_pos.le.trans late)]
    exact (Int.le_ediv_iff_mul_le unit.day_pos).mpr (by omega)

/-- A start that is before the epoch is in the UTC day it is rounded to, any other one in the
day before. -/
theorem dayEnd_start (timestamp : Int) : dayEnd unit (calendarDayStart unit timestamp) =
    if timestamp < unit.day then dayEnd unit timestamp else dayEnd unit timestamp - unit.day := by
  obtain ⟨k, start, ended, early, late⟩ := whole_days unit timestamp
  split
  · rename_i first
    have below := early first
    have before : calendarDayStart unit timestamp < 0 := by
      rw [start]
      rcases unit.lengths with ⟨_, hour, day⟩ | ⟨_, hour, day⟩ | ⟨_, hour, day⟩
        <;> rw [hour, day] <;> omega
    rw [ended, dayEnd, tmod_of_neg before, start]
    rcases unit.lengths with ⟨minute, hour, day⟩ | ⟨minute, hour, day⟩ | ⟨minute, hour, day⟩ <;>
      rw [minute, hour, day] <;> omega
  · rename_i next
    have above := late (by omega)
    have after : 0 ≤ calendarDayStart unit timestamp := by
      rw [start]
      rcases unit.lengths with ⟨_, hour, day⟩ | ⟨_, hour, day⟩ | ⟨_, hour, day⟩
        <;> rw [hour, day] <;> omega
    rw [ended, dayEnd, Int.tmod_eq_emod_of_nonneg after, start]
    rcases unit.lengths with ⟨minute, hour, day⟩ | ⟨minute, hour, day⟩ | ⟨minute, hour, day⟩ <;>
      rw [minute, hour, day] <;> omega

/-- The range of a date whose start is positive. -/
theorem range_positive {parsed : Int} (positive : 0 < calendarDayStart unit parsed) (now : Int) :
    0 < nextTradingDayEnd unit now (calendarDayStart unit parsed) ∧
      (calendarDayStart unit parsed < nextTradingDayEnd unit now (calendarDayStart unit parsed) ↔
        dayEnd unit parsed - unit.day < now) := by
  obtain ⟨k, start, ended, early, late⟩ := whole_days unit parsed
  have next : ¬ parsed < unit.day := by
    intro first
    have below := early first
    rw [start] at positive
    rcases unit.lengths with ⟨_, hour, day⟩ | ⟨_, hour, day⟩ | ⟨_, hour, day⟩
      <;> rw [hour, day] at positive <;> omega
  have above := late (by omega)
  rw [nextTradingDayEnd_cases, dayEnd_start, if_neg next, start, ended]
  rcases unit.lengths with ⟨minute, hour, day⟩ | ⟨minute, hour, day⟩ | ⟨minute, hour, day⟩ <;>
    rw [minute, hour, day] <;> split <;> omega

/-- What `strptimerange` makes of a date: the end is on the day of the start when the clock is
behind 15:30 of the day before, or, on the first day of the epoch and before it, when the clock is
not behind 15:30 of the day. -/
theorem range_iff (parsed : Int) :
    let startTime := calendarDayStart unit parsed
    (startTime < nextTradingDayEnd unit now startTime ∧
      SameDay unit startTime (nextTradingDayEnd unit now startTime)) ↔
      if parsed < unit.day then now ≤ dayEnd unit parsed
      else dayEnd unit parsed - unit.day < now := by
  intro startTime
  obtain ⟨k, start, ended, _⟩ := whole_days unit parsed
  have started : startTime = unit.day * k - 8 * unit.hour := start
  rw [nextTradingDayEnd_cases, dayEnd_start, SameDay, started, ended]
  rcases unit.lengths with ⟨minute, hour, day⟩ | ⟨minute, hour, day⟩ | ⟨minute, hour, day⟩ <;>
    rw [minute, hour, day] <;> split <;> split <;> omega

end DayEnd

/-- The end of the trading day is right just when the clock is on the same side of that day's
15:30 as the timestamp; any two clocks on the two sides give different results. It is monotone for
each clock. The range of a date is in one day when the clock is behind the 15:30 the end is
compared from; on the first day of the epoch and before it, when it is not. -/
theorem nextTradingDayEnd_iff (unit : TimeUnit) {timestamp : Int}
    (nonneg : 0 ≤ timestamp) (now : Int) :
    (IsLeast {e | TradingEnd unit e ∧ timestamp ≤ e} (nextTradingDayEnd unit now timestamp) ↔
        (timestamp ≤ dayEnd unit timestamp ↔ now ≤ dayEnd unit timestamp)) ∧
      (∀ other, nextTradingDayEnd unit now timestamp = nextTradingDayEnd unit other timestamp ↔
        (now ≤ dayEnd unit timestamp ↔ other ≤ dayEnd unit timestamp)) ∧
      (∀ later, timestamp ≤ later → nextTradingDayEnd unit now timestamp ≤
        nextTradingDayEnd unit now later) ∧
      ∀ (strptime : String → String → Int) (timeString format : String),
        let range := strptimerange strptime unit now timeString format
        let parsed := strptime timeString format
        range.1 < range.2 ∧ SameDay unit range.1 range.2 ↔
          if parsed < unit.day then now ≤ dayEnd unit parsed
          else dayEnd unit parsed - unit.day < now := by
  refine ⟨isLeast_dayEnd unit nonneg, fun other => dayEnd_clocks unit now other,
    fun later le => dayEnd_mono unit nonneg le, ?_⟩
  intro strptime timeString format range parsed
  exact range_iff unit parsed

/-- A timestamp of today, after the close, and the clock at the same time. -/
theorem nextTradingDayEnd_evening :
    (IsLeast {e | TradingEnd .sec e ∧ 1700078400 ≤ e}
      (nextTradingDayEnd .sec 1700078400 1700078400) ↔
        (1700078400 ≤ dayEnd .sec 1700078400 ↔ 1700078400 ≤ dayEnd .sec 1700078400)) ∧
      (∀ other, nextTradingDayEnd .sec 1700078400 1700078400 =
        nextTradingDayEnd .sec other 1700078400 ↔
        (1700078400 ≤ dayEnd .sec 1700078400 ↔ other ≤ dayEnd .sec 1700078400)) ∧
      (∀ later, 1700078400 ≤ later →
        nextTradingDayEnd .sec 1700078400 1700078400 ≤ nextTradingDayEnd .sec 1700078400 later) ∧
      ∀ (strptime : String → String → Int) (timeString format : String),
        let range := strptimerange strptime .sec 1700078400 timeString format
        let parsed := strptime timeString format
        range.1 < range.2 ∧ SameDay .sec range.1 range.2 ↔
          if parsed < TimeUnit.sec.day then 1700078400 ≤ dayEnd .sec parsed
          else dayEnd .sec parsed - TimeUnit.sec.day < 1700078400 :=
  nextTradingDayEnd_iff .sec (by decide) 1700078400

/-- A morning of the past gets the end of the day after it. -/
theorem dayEnd_late : ¬ ∀ (unit : TimeUnit) (timestamp now : Int), 0 ≤ timestamp →
    IsLeast {e | TradingEnd unit e ∧ timestamp ≤ e} (nextTradingDayEnd unit now timestamp) := by
  intro claim
  have sides := (isLeast_dayEnd .sec (by decide)).mp (claim .sec 1700006400 1700078400 (by decide))
  exact absurd sides (by decide)

section Coherence

/-- The three copies give one instant for a whole number of seconds. -/
def Coherent (f : TimeUnit → Int → Int) (s : Int) : Prop :=
  f .nano (s * 1000000000) = 1000000 * f .milli (s * 1000) ∧
    1000000 * f .milli (s * 1000) = 1000000000 * f .sec s

theorem tmod_nonneg {s : Int} (nonneg : 0 ≤ s) (scale : Int) (pos : 0 < scale) (d : Int) :
    (s * scale).tmod d = s * scale % d :=
  Int.tmod_eq_emod_of_nonneg (Int.mul_nonneg nonneg pos.le)

/-- With the minutes of the others, neither nanoseconds nor seconds agree with milliseconds. -/
theorem nextMinute_incoherent {s : Int} (nonneg : 0 ≤ s) : ¬ Coherent nextMinute s := by
  rintro ⟨first, _⟩
  simp only [nextMinute, nextMinuteIn, secondsPerMinute, millisecondsPerMinute,
    tmod_nonneg nonneg _ (by decide : (0 : Int) < 1000000000),
    tmod_nonneg nonneg _ (by decide : (0 : Int) < 1000)] at first
  omega

theorem isLeast_nextMinute (unit : TimeUnit) {timestamp : Int} (nonneg : 0 ≤ timestamp) :
    IsLeast {m | Grid.On unit.minute 0 m ∧ timestamp < m} (nextMinute unit timestamp) ↔
      unit = .milli ∨ nanosecondsPerMinute - secondsPerMinute ≤
        timestamp % nanosecondsPerMinute := by
  cases unit with
  | nano =>
    rw [Grid.isLeast_above_iff 0 timestamp (by decide)]
    simp only [nextMinute, nextMinuteIn, Int.tmod_eq_emod_of_nonneg nonneg, secondsPerMinute,
      nanosecondsPerMinute]
    change _ = timestamp - (timestamp - 0) % 60000000000 + 60000000000 ↔ _
    simp only [reduceCtorEq, false_or]
    omega
  | milli =>
    rw [Grid.isLeast_above_iff 0 timestamp (by decide)]
    simp only [nextMinute, nextMinuteIn, Int.tmod_eq_emod_of_nonneg nonneg,
      millisecondsPerMinute, sub_zero]
    change _ = timestamp - timestamp % 60000 + 60000 ↔ _
    simp
  | sec =>
    rw [Grid.isLeast_above_iff 0 timestamp (by decide)]
    simp only [nextMinute, nextMinuteIn, Int.tmod_eq_emod_of_nonneg nonneg, secondsPerMinute,
      nanosecondsPerMinute]
    change _ = timestamp - (timestamp - 0) % 60 + 60 ↔ _
    simp only [reduceCtorEq, false_or]
    omega

/-- The day of a whole second is the same in each unit. -/
theorem day_coherent {s : Int} (nonneg : 0 ≤ s) :
    s * 1000000000 - (s * 1000000000).tmod TimeUnit.nano.day =
      1000000000 * (s - s.tmod TimeUnit.sec.day) ∧
      s * 1000 - (s * 1000).tmod TimeUnit.milli.day = 1000 * (s - s.tmod TimeUnit.sec.day) := by
  rw [tmod_nonneg nonneg _ (by decide), tmod_nonneg nonneg _ (by decide),
    Int.tmod_eq_emod_of_nonneg nonneg]
  change s * 1000000000 - s * 1000000000 % 86400000000000 = 1000000000 * (s - s % 86400) ∧
    s * 1000 - s * 1000 % 86400000 = 1000 * (s - s % 86400)
  omega

theorem dayStart_coherent {s : Int} (nonneg : 0 ≤ s) : Coherent calendarDayStart s := by
  obtain ⟨nano, milli⟩ := day_coherent nonneg
  have hours : TimeUnit.nano.hour = 3600000000000 ∧ TimeUnit.milli.hour = 3600000 ∧
      TimeUnit.sec.hour = 3600 := by
    decide
  simp only [Coherent, calendarDayStart_eq, nano, milli, hours]
  omega

/-- A reading has less than a second in nanoseconds, either way. -/
theorem elapsed_small (base : TimePointInfo) (steady : TimeSpec) :
    -1000000000 < (elapsed base steady).nano ∧ (elapsed base steady).nano < 1000000000 := by
  generalize sum : base.systemClockCount.nano + (steady - base.steadyClockCount).nano = x
  have read : (elapsed base steady).nano = x.tmod 1000000000 := by rw [← sum]; rfl
  rw [read]
  exact ⟨Int.lt_tmod_of_pos x (by decide), Int.tmod_lt_of_pos x (by decide)⟩

/-- The copies of the trading day's end agree unless the clock is inside the second that begins
with it. -/
theorem dayEnd_coherent {s : Int} (nonneg : 0 ≤ s) (base : TimePointInfo) (steady : TimeSpec) :
    Coherent (fun unit => nextTradingDayEnd unit (nowTime unit base steady)) s ↔
      ¬ ((elapsed base steady).sec = dayEnd .sec s ∧ 0 < (elapsed base steady).nano) := by
  obtain ⟨nano, milli⟩ := day_coherent nonneg
  obtain ⟨lower, upper⟩ := elapsed_small base steady
  generalize endEq : dayEnd .sec s = e
  have ends :
      dayEnd .nano (s * 1000000000) = 1000000000 * e ∧ dayEnd .milli (s * 1000) = 1000 * e := by
    have hours : TimeUnit.nano.hour = 3600000000000 ∧ TimeUnit.milli.hour = 3600000 ∧
        TimeUnit.sec.hour = 3600 := by
      decide
    have minutes : TimeUnit.nano.minute = 60000000000 ∧ TimeUnit.milli.minute = 60000 ∧
        TimeUnit.sec.minute = 60 := by
      decide
    rw [← endEq]
    simp only [dayEnd, nano, milli, hours, minutes]
    omega
  have days : TimeUnit.nano.day = 86400000000000 ∧ TimeUnit.milli.day = 86400000 ∧
      TimeUnit.sec.day = 86400 := by
    decide
  simp only [Coherent, nextTradingDayEnd_cases, ends, days, endEq, nowTime, nowInNano,
    nowInMili, nowInSec,
    TimeSpec.toNano, TimeSpec.toMili, nanosecondsPerSecond, millisecondsPerSecond,
      nanosecondsPerMillisecond]
  generalize (elapsed base steady).sec = sec
  generalize (elapsed base steady).nano = part at lower upper ⊢
  -- the milliseconds of the part are cut towards zero
  have cut : part.tdiv 1000000 = if 0 ≤ part then part / 1000000 else -(-part / 1000000) := by
    split
    · rename_i positive
      exact Int.tdiv_eq_ediv_of_nonneg positive
    · exact tdiv_of_neg (by omega) _
  generalize part.tdiv 1000000 = milliseconds at cut ⊢
  have bounds : -1000 < milliseconds ∧ milliseconds < 1000 ∧ (part ≤ 0 → milliseconds ≤ 0) := by
    rw [cut]
    split <;> omega
  rcases lt_trichotomy sec e with before | same | behind
  · have none : ¬ 1000000000 * e < sec * 1000000000 + part ∧
      ¬ 1000 * e < sec * 1000 + milliseconds ∧ ¬ e < sec := by
      omega
    rw [if_neg none.1, if_neg none.2.1, if_neg none.2.2]
    omega
  · -- in this second the reading in seconds is not behind its beginning
    rw [same, if_neg (lt_irrefl e)]
    split <;> split <;> omega
  · have all : 1000000000 * e < sec * 1000000000 + part ∧ 1000 * e < sec * 1000 + milliseconds ∧
      e < sec := by
      omega
    rw [if_pos all.1, if_pos all.2.1, if_pos all.2.2]
    omega

end Coherence

/-- Calendar days are coherent, and so are trading days unless the clock is inside the second that
begins with 15:30. Minutes never are, as two of the copies are right only within the last minute
of their wrong period. -/
theorem units_iff {s : Int} (nonneg : 0 ≤ s) (base : TimePointInfo) (steady : TimeSpec) :
    ¬ Coherent nextMinute s ∧ Coherent calendarDayStart s ∧
      (Coherent (fun unit => nextTradingDayEnd unit (nowTime unit base steady)) s ↔
        ¬ ((elapsed base steady).sec = dayEnd .sec s ∧ 0 < (elapsed base steady).nano)) ∧
      ∀ (unit : TimeUnit) (timestamp : Int), 0 ≤ timestamp →
        (IsLeast {m | Grid.On unit.minute 0 m ∧ timestamp < m} (nextMinute unit timestamp) ↔
          unit = .milli ∨ nanosecondsPerMinute - secondsPerMinute ≤
            timestamp % nanosecondsPerMinute) :=
  ⟨nextMinute_incoherent nonneg, dayStart_coherent nonneg, dayEnd_coherent nonneg base steady,
    fun unit _ nonneg => isLeast_nextMinute unit nonneg⟩

/-- Seven seconds past the epoch, and a clock that stands at 15:30 and a nanosecond. -/
theorem units_at_end :
    ¬ Coherent nextMinute 7 ∧ Coherent calendarDayStart 7 ∧
      (Coherent (fun unit => nextTradingDayEnd unit (nowTime unit ⟨⟨27000, 0⟩, ⟨0, 0⟩⟩ ⟨0, 1⟩)) 7 ↔
        ¬ ((elapsed ⟨⟨27000, 0⟩, ⟨0, 0⟩⟩ ⟨0, 1⟩).sec = dayEnd .sec 7 ∧
          0 < (elapsed ⟨⟨27000, 0⟩, ⟨0, 0⟩⟩ ⟨0, 1⟩).nano)) ∧
      ∀ (unit : TimeUnit) (timestamp : Int), 0 ≤ timestamp →
        (IsLeast {m | Grid.On unit.minute 0 m ∧ timestamp < m} (nextMinute unit timestamp) ↔
          unit = .milli ∨ nanosecondsPerMinute - secondsPerMinute ≤
            timestamp % nanosecondsPerMinute) :=
  units_iff (by decide) ⟨⟨27000, 0⟩, ⟨0, 0⟩⟩ ⟨0, 1⟩

/-- The next minute after the epoch, in seconds: sixty thousand million. -/
theorem minutes_differ : ¬ ∀ s : Int, 0 ≤ s → Coherent nextMinute s := by
  intro claim
  exact absurd (claim 0 (by decide)) (by unfold Coherent; decide)

end BTrader.Infra
