import BTrader.Lib.Window

/-! The book of single trades: what it holds beside the newest of the ticks that were added. -/
namespace BTrader

structure TickTradeData where
  timestamp : ℤ
  price : ℚ
  volume : ℤ
  direction : String
  tradeId : String
  symbol : String
  deriving DecidableEq, Repr

structure TickTradeBook where
  tickTrades : List TickTradeData
  maxCount : ℤ
  latestPrice : ℚ
  totalVolume : ℤ
  deriving DecidableEq, Repr

namespace TickTradeBook

/-- A new book, with its maximum count set. -/
def make (maxCount : ℤ) : TickTradeBook := ⟨[], maxCount, 0, 0⟩

def add (book : TickTradeBook) (data : TickTradeData) : TickTradeBook :=
  let appended := book.tickTrades ++ [data]
  -- `pop_back`: what is dropped is the tick that has just come
  let held := if book.maxCount < appended.length then appended.dropLast else appended
  { book with
    tickTrades := held
    latestPrice := data.price
    totalVolume := held.foldl (fun total tick => total + tick.volume) 0 }

/-- The book holds the newest of the ticks added, and its figures are those of what it holds. -/
structure Right (book : TickTradeBook) (added : List TickTradeData) : Prop where
  window : book.tickTrades = added.rtake book.maxCount.toNat
  latest : ∀ tick ∈ book.tickTrades.getLast?, book.latestPrice = tick.price
  total : book.totalVolume = (book.tickTrades.map (·.volume)).sum

/-- The book that a run of ticks makes. -/
def ofTicks (maxCount : ℤ) (ticks : List TickTradeData) : TickTradeBook :=
  ticks.foldl add (make maxCount)

theorem total_eq (ticks : List TickTradeData) :
    ticks.foldl (fun total tick => total + tick.volume) 0 = (ticks.map (·.volume)).sum := by
  rw [List.sum_eq_foldl, List.foldl_map]

/-- Once the book is full, its ticks stay. -/
theorem ofTicks_eq (maxCount : ℤ) (ticks : List TickTradeData) : ofTicks maxCount ticks =
    ⟨ticks.take maxCount.toNat, maxCount, (ticks.getLast?.map (·.price)).getD 0,
      ((ticks.take maxCount.toNat).map (·.volume)).sum⟩ := by
  induction ticks using List.reverseRecOn with
  | nil => simp [ofTicks, make]
  | append_singleton ticks tick ih =>
    have step : ofTicks maxCount (ticks ++ [tick]) = (ofTicks maxCount ticks).add tick :=
      List.foldl_concat ..
    rw [step, ih]
    have held : (if maxCount < (ticks.take maxCount.toNat ++ [tick]).length then
        (ticks.take maxCount.toNat ++ [tick]).dropLast else ticks.take maxCount.toNat ++ [tick]) =
        (ticks ++ [tick]).take maxCount.toNat := by
      rw [List.length_append, List.length_take, List.length_singleton, List.dropLast_concat,
        List.take_append]
      by_cases full : maxCount.toNat ≤ ticks.length
      · rw [if_pos (by omega), Nat.sub_eq_zero_of_le full, List.take_zero, List.append_nil]
      · rw [if_neg (by omega), List.take_of_length_le (l := [tick]) (by simp; omega)]
    simp only [add, held, total_eq, List.getLast?_concat, Option.map_some, Option.getD_some]

/-- The book is right just when it never was full, or when each of the ticks it holds is the same
as the one that many places later as there were ticks too many. -/
theorem ofTicks_right_iff (maxCount : ℤ) (ticks : List TickTradeData) :
    (ofTicks maxCount ticks).Right ticks ↔
    ticks.length ≤ maxCount.toNat ∨
      ∀ i < maxCount.toNat, ticks[i]? = ticks[i + (ticks.length - maxCount.toNat)]? := by
  rw [← Window.take_eq_rtake_iff, ofTicks_eq]
  constructor
  · exact fun right => right.window
  · intro same
    refine ⟨same, fun tick last => ?_, rfl⟩
    rw [same] at last
    simp [Window.getLast?_rtake last]

/-- A tick of one unit. -/
def tickAt (price : ℚ) (tradeId : String) : TickTradeData :=
  ⟨0, price, 1, "buy", tradeId, "btcusdt"⟩

/-- The second tick does not replace the first in a book of one, but its price is the latest. -/
theorem second_dropped : ¬ ∀ (maxCount : ℤ) (ticks : List TickTradeData), 1 ≤ maxCount →
    (ofTicks maxCount ticks).Right ticks := by
  intro right
  have window := (right 1 [tickAt 100 "1", tickAt 101 "2"] (le_refl 1)).window
  revert window
  decide

end TickTradeBook
end BTrader
