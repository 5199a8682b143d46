import BTrader.Core.Types

/-! The position book: the long and the short positions by the hash of their
instrument. The maps are only looked up, set and erased by key. -/
namespace BTrader

abbrev Positions := UInt32 → Option Position

structure PositionBook where
  longPositions : Positions
  shortPositions : Positions

namespace PositionBook

def empty : PositionBook := ⟨fun _ => none, fun _ => none⟩

def positions (book : PositionBook) (direction : Direction) : Positions :=
  if direction = .long then book.longPositions else book.shortPositions

/-- Replace the entry of one key on one side. -/
def assign (book : PositionBook) (direction : Direction) (key : UInt32) (entry : Option Position) :
    PositionBook :=
  if direction = .long then
    { book with longPositions := Function.update book.longPositions key entry }
  else { book with shortPositions := Function.update book.shortPositions key entry }

theorem assign_positions (book : PositionBook) (direction d : Direction) (key : UInt32)
    (entry : Option Position) :
    (book.assign direction key entry).positions d =
      if (d = .long ↔ direction = .long) then Function.update (book.positions d) key entry
      else book.positions d := by
  unfold assign positions
  by_cases long : direction = .long
  · by_cases other : d = .long
    · simp [long, other]
    · simp [long, other]
  · by_cases other : d = .long
    · simp [long, other]
    · simp [long, other]

def set (book : PositionBook) (position : Position) : PositionBook :=
  let hashKey := hashInstrument position.exchangeId position.instrumentId
  book.assign position.direction hashKey
    (some (.put (book.positions position.direction hashKey) position))

def get (book : PositionBook) (instrumentId exchangeId : String) (direction : Direction) :
    Option Position :=
  book.positions direction (hashInstrument exchangeId instrumentId)

/-- The side a trade acts on; none for a trade that is neither a buy nor a sell. -/
def positionDirection (trade : Trade) : Option Direction :=
  match trade.side with
  | .buy => some (if trade.offset = .open_ then .long else .short)
  | .sell => some (if trade.offset = .open_ then .short else .long)
  | _ => none

/-- The cost price after a trade: `total_volume` is an `int64_t`. -/
def averagedPrice (position : Position) (trade : Trade) : ℚ :=
  let totalCost := position.positionCostPrice * position.volume
  let newCost := trade.price * trade.volume
  let totalVolume := castInt64 (position.volume + trade.volume)
  if totalVolume > 0 then (totalCost + newCost) / totalVolume else position.positionCostPrice

/-- What becomes of an existing position: none when it is fully closed. -/
def updated (position : Position) (trade : Trade) : Option Position :=
  let position := { position with positionCostPrice := averagedPrice position trade }
  if trade.offset = .open_ then
    some { position with volume := position.volume + trade.volume, updateTime := trade.tradeTime }
  else if position.volume - trade.volume ≤ 0 then none
  else
    some { position with volume := position.volume - trade.volume, updateTime := trade.tradeTime }

def created (direction : Direction) (trade : Trade) : Position where
  updateTime := trade.tradeTime
  tradingDay := trade.tradingDay
  instrumentId := trade.instrumentId
  instrumentType := trade.instrumentType
  exchangeId := trade.exchangeId
  direction := direction
  volume := trade.volume
  positionCostPrice := trade.price
  unrealizedPnl := 0

def update (book : PositionBook) (trade : Trade) : PositionBook :=
  match positionDirection trade with
  | none => book
  | some direction =>
    let hashKey := hashInstrument trade.exchangeId trade.instrumentId
    match book.positions direction hashKey with
    | none => book.assign direction hashKey (some (created direction trade))
    | some position => book.assign direction hashKey (updated position trade)

end PositionBook

/-- The part of the strategy's book a trade changes. -/
structure Book where
  asset : Asset
  positions : PositionBook

namespace Book

def update (book : Book) (trade : Trade) : Book :=
  let avail :=
    match trade.side with
    | .buy => book.asset.avail - trade.price * trade.volume
    | .sell => book.asset.avail + trade.price * trade.volume
    | _ => book.asset.avail
  { book with
    positions := book.positions.update trade
    asset := { book.asset with avail := avail - trade.commission - trade.tax } }

end Book
end BTrader
