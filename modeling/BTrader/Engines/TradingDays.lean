import Mathlib

/-! The `TradingDay` messages of the md accounts, of which the strategies see one of each
group. -/
namespace BTrader

structure TradingDay where
  timestamp : Int64
  deriving DecidableEq, Repr

/-- The two counters of the engine. -/
structure DayCount where
  tradingMsgCount : UInt32
  mdAccountCount : UInt32
  deriving DecidableEq, Repr

namespace DayCount

/-- As `on_setup` leaves them. -/
def start (mdAccountCount : UInt32) : DayCount := ⟨0, mdAccountCount⟩

/-- `on_trading_day`: the time the strategies are notified with, if they are. -/
def onTradingDay (s : DayCount) (day : TradingDay) : Option Int64 × DayCount :=
  let count := s.tradingMsgCount + 1
  if s.tradingMsgCount ≠ 0 then (none, { s with tradingMsgCount := count % s.mdAccountCount })
  else (some day.timestamp, { s with tradingMsgCount := count })

/-- What comes of each message. -/
def notifications (s : DayCount) : List TradingDay → List (Option Int64)
  | [] => []
  | day :: days => (s.onTradingDay day).1 :: notifications (s.onTradingDay day).2 days

/-- The first message of each group, the groups having that size. -/
def firsts (size : Nat) (days : List TradingDay) : List (Option Int64) :=
  days.mapIdx fun i day => if i % size = 0 then some day.timestamp else none

/-- The first message is never counted off, so that no group is smaller than two. -/
def period (accounts : UInt32) : Nat := max accounts.toNat 2

/-- The counter is at the place in the group. -/
def Counts (s : DayCount) (i : Nat) : Prop := s.tradingMsgCount.toNat = i % period s.mdAccountCount

theorem counts_next {s : DayCount} (positive : 0 < s.mdAccountCount.toNat) (counts : s.Counts i)
    (day : TradingDay) :
    (s.onTradingDay day).1 =
      (if i % period s.mdAccountCount = 0 then some day.timestamp else none) ∧
      (s.onTradingDay day).2.Counts (i + 1) := by
  have bound : period s.mdAccountCount < 2 ^ 32 := by
    have := s.mdAccountCount.toNat_lt
    unfold period
    omega
  have place : i % period s.mdAccountCount < period s.mdAccountCount :=
    Nat.mod_lt _ (by unfold period; omega)
  have next : (i + 1) % period s.mdAccountCount = (i % period s.mdAccountCount + 1) %
      period s.mdAccountCount := by
    rw [Nat.mod_add_mod]
  have count : (s.tradingMsgCount + 1).toNat = i % period s.mdAccountCount + 1 := by
    rw [UInt32.toNat_add, counts]
    exact Nat.mod_eq_of_lt (by change i % period s.mdAccountCount + 1 < 2 ^ 32; omega)
  by_cases zero : s.tradingMsgCount = 0
  · have first : i % period s.mdAccountCount = 0 := by
      rw [← counts, zero]
      rfl
    simp only [onTradingDay, zero, ne_eq, not_true_eq_false, if_false, first, if_true, true_and]
    rw [Counts, next, first]
    exact (Nat.mod_eq_of_lt (Nat.le_max_right _ _)).symm
  · have later : i % period s.mdAccountCount ≠ 0 := by
      rw [← counts]
      exact fun none => zero (UInt32.toNat_inj.mp none)
    simp only [onTradingDay, zero, ne_eq, not_false_eq_true, if_true, later, if_false, true_and]
    change ((s.tradingMsgCount + 1) % s.mdAccountCount).toNat = (i + 1) % period s.mdAccountCount
    rw [next, UInt32.toNat_mod, count]
    -- with one account the period is two, and what is counted in it comes to zero either way
    by_cases one : s.mdAccountCount.toNat = 1
    · have two : period s.mdAccountCount = 2 := by
        rw [period, one]
        rfl
      rw [two, one]
      rw [two] at later
      omega
    · have same : period s.mdAccountCount = s.mdAccountCount.toNat := by
        unfold period
        omega
      rw [same]

theorem notifications_eq {s : DayCount} (positive : 0 < s.mdAccountCount.toNat)
    (counts : s.Counts i) (days : List TradingDay) :
    s.notifications days =
      days.mapIdx fun j day => if (i + j) % period s.mdAccountCount = 0 then some day.timestamp
        else none := by
  induction days generalizing s i with
  | nil => rfl
  | cons day days ih =>
    have step := counts_next positive counts day
    have kept : (s.onTradingDay day).2.mdAccountCount = s.mdAccountCount := by
      unfold onTradingDay
      split <;> rfl
    rw [notifications, step.1, ih (by rwa [kept]) step.2, kept, List.mapIdx_cons]
    simp only [Nat.add_zero, Nat.add_assoc, Nat.add_comm 1]

/-- The strategies are notified once for each group of as many messages as there are accounts,
unless there is one account and more than one message. -/
theorem notifications_iff {accounts : UInt32} (positive : 0 < accounts.toNat)
    (days : List TradingDay) :
    (start accounts).notifications days = firsts accounts.toNat days ↔ 2 ≤ accounts.toNat ∨
      days.length ≤ 1 := by
  have started : (start accounts).Counts 0 := by simp [start, Counts]
  rw [notifications_eq positive started]
  simp only [Nat.zero_add, start]
  constructor
  · intro same
    by_contra other
    obtain ⟨few, many⟩ := not_or.mp other
    have one : accounts.toNat = 1 := by omega
    have second := congrArg (fun notified => notified[1]?) same
    have long : 1 < days.length := by omega
    simp [firsts, period, one, List.getElem?_eq_getElem long] at second
  · rintro (enough | few)
    · rw [firsts, period, Nat.max_eq_left enough]
    · match days with
      | [] => rfl
      | [day] => simp [firsts]

theorem notifications_iff_two :
    (start 2).notifications [⟨1⟩, ⟨1⟩, ⟨2⟩] = firsts 2 [⟨1⟩, ⟨1⟩, ⟨2⟩] :=
  (@notifications_iff 2 (by decide) _).mpr (Or.inl (by decide))

/-- A single account's second trading day is not notified. -/
theorem second_day_dropped :
    ¬ ∀ (accounts : UInt32) (days : List TradingDay), 0 < accounts.toNat →
      (start accounts).notifications days = firsts accounts.toNat days := by
  intro claim
  exact absurd (claim 1 [⟨1⟩, ⟨2⟩] (by decide)) (by decide)

end DayCount
end BTrader
