import BTrader.Lib.Procedure
import BTrader.Broker.BinanceData

/-! The strategy that trades on two bars in the same direction. Prices and volumes are exact
rationals; the clock is read where a bar comes. -/
namespace BTrader
open Infra

/-- The members of an order that the strategy leaves as they are, and how its two ids are read
once they are copied. A string shorter than its array is read as it is; behind a longer one
whatever follows is read, or overwritten. -/
structure Leftover where
  parentId : UInt64
  frozenPrice : ℚ
  isSwap : Bool
  hedgeFlag : HedgeFlag
  insertTime : Int64
  readIds : String → String → Instrument
  fits : ∀ exchangeId instrumentId, exchangeId.utf8ByteSize < 16 → instrumentId.utf8ByteSize < 32 →
    readIds exchangeId instrumentId = (exchangeId, instrumentId)

namespace ConsecutiveBarStrategy

structure Config where
  minBars : Int32
  maxPosition : ℚ
  stopLoss : ℚ
  takeProfit : ℚ
  riskPerTrade : ℚ
  maxDrawdown : ℚ
  enableQuoteTrading : Bool

structure State where
  barHistory : List Kline
  positionOpened : Bool
  entryPrice : ℚ
  currentPosition : ℚ
  consecutiveUpBars : Nat
  consecutiveDownBars : Nat
  barCount : Int32

end ConsecutiveBarStrategy

/-- `inserted` and `cancelled` are what the executor has been asked for, always for the
institution and the account. A drawdown from a peak of 0 is infinite. -/
structure ConsecutiveBarStrategy where
  config : ConsecutiveBarStrategy.Config
  state : ConsecutiveBarStrategy.State
  symbol : String
  institution : String
  account : String
  lastTradeTime : Int64
  totalPnl : ℚ
  maxDrawdown : WithTop ℚ
  peakEquity : ℚ
  activeOrders : Std.TreeMap UInt64 Order
  tradeHistory : List Trade
  nextOrderId : UInt64
  inserted : List OrderInput
  cancelled : List UInt64

namespace ConsecutiveBarStrategy

def maxBarHistory : Nat := 50

def maxTradeHistory : Nat := 1000

/-- In milliseconds. -/
def minTradeInterval : Int64 := 1000

/-- The constructor. -/
def make : ConsecutiveBarStrategy where
  config := ⟨3, 1000, 2 / 100, 3 / 100, 1 / 100, 10 / 100, false⟩
  state := ⟨[], false, 0, 0, 0, 0, 0⟩
  symbol := ""
  institution := ""
  account := ""
  lastTradeTime := 0
  totalPnl := 0
  maxDrawdown := 0
  peakEquity := 0
  activeOrders := ∅
  tradeHistory := []
  nextOrderId := 1
  inserted := []
  cancelled := []

/-! The configuration. An exception ends it, and leaves what was assigned. -/

abbrev Setup := EStateM JsonFault ConsecutiveBarStrategy

/-- A key that is there is converted and assigned. -/
def parse {α : Type} (cfg : Json) (key : String) (get : Json → Except JsonFault α)
    (assign : ConsecutiveBarStrategy → α → ConsecutiveBarStrategy) : Setup Unit :=
  if cfg.contains key then
    match cfg.index key >>= get with
    | .ok value => modify (assign · value)
    | .error e => throw e
  else pure ()

/-- As `parse`, for a parameter of the configuration. -/
def parseConfig {α : Type} (cfg : Json) (key : String) (get : Json → Except JsonFault α)
    (assign : Config → α → Config) : Setup Unit :=
  parse cfg key get fun s value => { s with config := assign s.config value }

/-- A value that is not positive, or above the bound, becomes the default. -/
def inRange (upper default value : ℚ) : ℚ := if value ≤ 0 ∨ upper < value then default else value

def parseAll (cfg : Json) : Setup Unit := do
  parse cfg "symbol" Json.getString fun s value => { s with symbol := value }
  parse cfg "institution" Json.getString fun s value => { s with institution := value }
  parse cfg "account" Json.getString fun s value => { s with account := value }
  parseConfig cfg "min_bars" Json.getInt fun c value =>
    { c with minBars := if value < 3 then 3 else value }
  parseConfig cfg "max_position" Json.getDouble fun c value =>
    { c with maxPosition := if value ≤ 0 then 1000 else value }
  parseConfig cfg "stop_loss" Json.getDouble fun c value =>
    { c with stopLoss := inRange (1 / 2) (2 / 100) value }
  parseConfig cfg "take_profit" Json.getDouble fun c value =>
    { c with takeProfit := inRange (1 / 2) (3 / 100) value }
  parseConfig cfg "risk_per_trade" Json.getDouble fun c value =>
    { c with riskPerTrade := inRange (1 / 10) (1 / 100) value }
  parseConfig cfg "max_drawdown" Json.getDouble fun c value =>
    { c with maxDrawdown := inRange (1 / 2) (10 / 100) value }
  parseConfig cfg "enable_quote_trading" Json.getBool fun c value =>
    { c with enableQuoteTrading := value }
  modify fun s =>
    if s.config.takeProfit ≤ s.config.stopLoss then
      { s with config := { s.config with stopLoss := s.config.takeProfit * (8 / 10) } }
    else s

def setup (cfg : Json) (s : ConsecutiveBarStrategy) : ConsecutiveBarStrategy :=
  Procedure.after (parseAll cfg) s

/-- The entry price and the histories of orders and trades stay. -/
def preStart (s : ConsecutiveBarStrategy) : ConsecutiveBarStrategy :=
  { s with
    state := { s.state with
      barCount := 0, positionOpened := false, currentPosition := 0, consecutiveUpBars := 0
      consecutiveDownBars := 0, barHistory := [] }
    totalPnl := 0
    maxDrawdown := 0
    peakEquity := 0 }

/-- `push_back`, with the front popped when the history gets too long. -/
def pushBounded {α : Type} (bound : Nat) (history : List α) (x : α) : List α :=
  let history := history ++ [x]
  if bound < history.length then history.tail else history

def updateBarHistory (bar : Kline) (s : ConsecutiveBarStrategy) : ConsecutiveBarStrategy :=
  { s with state :=
    { s.state with barHistory := pushBounded maxBarHistory s.state.barHistory bar } }

def isUp (bar : Kline) : Bool := bar.open_ < bar.close

def isDown (bar : Kline) : Bool := bar.close < bar.open_

/-- Only the last two bars are looked at. -/
def analyzeConsecutiveBars (s : ConsecutiveBarStrategy) : ConsecutiveBarStrategy :=
  let counts :=
    match s.state.barHistory.reverse with
    | current :: previous :: _ =>
      if isUp current then (if isUp previous then 2 else 1, 0)
      else if isDown current then (0, if isDown previous then 2 else 1)
      else (0, 0)
    | _ => (0, 0)
  { s with state :=
    { s.state with consecutiveUpBars := counts.1, consecutiveDownBars := counts.2 } }

def shouldBuy (s : ConsecutiveBarStrategy) : Bool :=
  2 ≤ s.state.consecutiveUpBars && !s.state.positionOpened && s.maxDrawdown ≤ s.config.maxDrawdown

def shouldSell (s : ConsecutiveBarStrategy) : Bool :=
  2 ≤ s.state.consecutiveDownBars && !s.state.positionOpened && s.maxDrawdown ≤ s.config.maxDrawdown

/-- A price of 0 makes the size infinite, which the greatest position limits. -/
def calculatePositionSize (s : ConsecutiveBarStrategy) (price : ℚ) : ℚ :=
  let riskAmount := 100000 * s.config.riskPerTrade
  let positionSize :=
    if price = 0 ∨ s.config.maxPosition < riskAmount / price then s.config.maxPosition
    else riskAmount / price
  if positionSize < 1 then 1 else positionSize

/-! The orders -/

section
variable (leftover : UInt64 → Leftover)

/-- An order is filled in under the next id; `c_str()` ends at the first NUL. -/
def orderInput (s : ConsecutiveBarStrategy) (exchangeId : String) (price volume : ℚ) (side : Side)
    (offset : Offset)
    (volumeCondition : VolumeCondition) (timeCondition : TimeCondition) : OrderInput :=
  let rest := leftover s.nextOrderId
  let ids := rest.readIds (BinanceData.cStr exchangeId) (BinanceData.cStr s.symbol)
  { orderId := s.nextOrderId
    parentId := rest.parentId
    instrumentId := ids.2
    exchangeId := ids.1
    instrumentType := .stock
    limitPrice := price
    frozenPrice := rest.frozenPrice
    volume := volume
    isSwap := rest.isSwap
    side := side
    offset := offset
    hedgeFlag := rest.hedgeFlag
    priceType := .limit
    volumeCondition := volumeCondition
    timeCondition := timeCondition
    insertTime := rest.insertTime }

def insertOrder (input : OrderInput) (s : ConsecutiveBarStrategy) : ConsecutiveBarStrategy :=
  { s with nextOrderId := s.nextOrderId + 1, inserted := s.inserted ++ [input] }

def executeTrade (price : ℚ) (isBuy : Bool) (s : ConsecutiveBarStrategy) : ConsecutiveBarStrategy :=
  s.insertOrder (orderInput leftover s s.institution price (s.calculatePositionSize price)
    (if isBuy then .buy else .sell) .open_ .any .gfd)

def closePosition (price : ℚ) (isBuy : Bool) (s : ConsecutiveBarStrategy) :
    ConsecutiveBarStrategy :=
  if s.state.currentPosition = 0 then s
  else s.insertOrder (orderInput leftover s "DEFAULT_EXCHANGE" price |s.state.currentPosition|
    (if isBuy then .buy else .sell) .close .all .ioc)

/-- A loss and a profit are looked at one after the other. -/
def checkExitConditions (currentPrice : ℚ) (s : ConsecutiveBarStrategy) : ConsecutiveBarStrategy :=
  if !s.state.positionOpened ∨ s.state.entryPrice = 0 then s
  else
    let priceChange := (currentPrice - s.state.entryPrice) / s.state.entryPrice
    let stopped :=
      if s.state.currentPosition > 0 ∧ priceChange < -s.config.stopLoss then
        s.closePosition leftover currentPrice false
      else if s.state.currentPosition < 0 ∧ priceChange > s.config.stopLoss then
        s.closePosition leftover currentPrice true
      else s
    if s.state.currentPosition > 0 ∧ priceChange > s.config.takeProfit then
      stopped.closePosition leftover currentPrice false
    else if s.state.currentPosition < 0 ∧ priceChange < -s.config.takeProfit then
      stopped.closePosition leftover currentPrice true
    else stopped

/-- Orders that are not taken up yet are cancelled. -/
def cancelActive (s : ConsecutiveBarStrategy) : ConsecutiveBarStrategy :=
  { s with
    cancelled := s.cancelled ++ ((s.activeOrders.toList.filter fun entry =>
      entry.2.status = .pending || entry.2.status = .submitted).map Prod.fst) }

def closeAllPositions (s : ConsecutiveBarStrategy) : ConsecutiveBarStrategy :=
  if s.state.currentPosition = 0 then s
  else
    let currentPrice := s.state.barHistory.getLast?.elim 0 fun bar => bar.close
    cancelActive (if currentPrice > 0 then
      s.closePosition leftover currentPrice (s.state.currentPosition < 0) else s)

/-! What the strategy is called with -/

def preStop (s : ConsecutiveBarStrategy) : ConsecutiveBarStrategy :=
  if s.state.positionOpened ∧ s.state.currentPosition ≠ 0 then s.closeAllPositions leftover else s

/-- The arrays of a quote are never empty. -/
theorem levels_pos : 0 < 20 := by decide

def best (levels : Fin 20 → ℚ) : ℚ := levels ⟨0, levels_pos⟩

def onQuote (quote : Quote) (s : ConsecutiveBarStrategy) : ConsecutiveBarStrategy :=
  if s.config.enableQuoteTrading then
    s.checkExitConditions leftover ((best quote.bidPrice + best quote.askPrice) / 2)
  else s

/-- With what is traded, the time is noted. -/
def tradeOnSignal (bar : Kline) (now : Int64) (s : ConsecutiveBarStrategy) :
    ConsecutiveBarStrategy :=
  if s.shouldBuy then { s.executeTrade leftover bar.close true with lastTradeTime := now }
  else if s.shouldSell then { s.executeTrade leftover bar.close false with lastTradeTime := now }
  else s

def onBar (bar : Kline) (now : Int64) (s : ConsecutiveBarStrategy) : ConsecutiveBarStrategy :=
  let s := (s.updateBarHistory bar).analyzeConsecutiveBars
  let s := { s with state := { s.state with barCount := s.state.barCount + 1 } }
  let s := s.checkExitConditions leftover bar.close
  if s.state.barCount ≥ s.config.minBars ∧ now - s.lastTradeTime > minTradeInterval then
    s.tradeOnSignal leftover bar now
  else s

end

def onOrder (order : Order) (s : ConsecutiveBarStrategy) : ConsecutiveBarStrategy :=
  { s with activeOrders :=
      if order.status = .filled ∨ order.status = .cancelled ∨
        order.status = .error then s.activeOrders.erase order.orderId
      else s.activeOrders.insert order.orderId (.put s.activeOrders[order.orderId]? order) }

/-- How far the equity is below the peak; no number where both are 0. -/
def drawdown (peakEquity currentEquity : ℚ) : Option (WithTop ℚ) :=
  if peakEquity ≠ 0 then some ↑((peakEquity - currentEquity) / peakEquity)
  else if currentEquity = 0 then none
  else some ⊤

def updatePnlTracking (trade : Trade) (s : ConsecutiveBarStrategy) : ConsecutiveBarStrategy :=
  if s.state.entryPrice > 0 then
    let pnl :=
      if trade.side = .buy then (trade.price - s.state.entryPrice) * trade.volume
      else (s.state.entryPrice - trade.price) * trade.volume
    let totalPnl := s.totalPnl + pnl
    let currentEquity := 100000 + totalPnl
    let peakEquity := if currentEquity > s.peakEquity then currentEquity else s.peakEquity
    { s with
      totalPnl := totalPnl
      peakEquity := peakEquity
      maxDrawdown := (drawdown peakEquity currentEquity).elim s.maxDrawdown fun drawdown =>
        if s.maxDrawdown < drawdown then drawdown else s.maxDrawdown }
  else s

/-- The position once the trade is counted. -/
def positionAfter (position : ℚ) (trade : Trade) : ℚ :=
  match trade.side with
  | .buy => position + trade.volume
  | .sell => position - trade.volume
  | _ => position

def onTrade (trade : Trade) (s : ConsecutiveBarStrategy) : ConsecutiveBarStrategy :=
  let position := positionAfter s.state.currentPosition trade
  let state :=
    if position ≠ 0 then
      { s.state with
        currentPosition := position
        positionOpened := true
        entryPrice := if |position| = trade.volume then trade.price else s.state.entryPrice }
    else { s.state with currentPosition := position, positionOpened := false, entryPrice := 0 }
  updatePnlTracking trade
    { s with state, tradeHistory := pushBounded maxTradeHistory s.tradeHistory trade }

/-- An entry counts with its volume, if it has any. -/
def counted (entry : Option Position) : ℚ :=
  entry.elim 0 fun position => if position.volume > 0 then position.volume else 0

def calculateNetPosition (positionBook : PositionBook) : ℚ :=
  ∑ key : UInt32, counted (positionBook.longPositions key) -
    ∑ key : UInt32, counted (positionBook.shortPositions key)

def onPositionSyncReset (newBook : PositionBook) (s : ConsecutiveBarStrategy) :
    ConsecutiveBarStrategy :=
  let position := calculateNetPosition newBook
  { s with state :=
      if position ≠ 0 then
        { s.state with
          currentPosition := position
          positionOpened := true
          entryPrice := s.tradeHistory.getLast?.elim s.state.entryPrice Trade.price }
      else { s.state with currentPosition := position, positionOpened := false, entryPrice := 0 } }

end ConsecutiveBarStrategy
end BTrader
