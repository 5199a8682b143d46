import BTrader.Core.PositionBook

/-! The simulated broker. A `Reading` holds what matching one order reads from outside: the
depth on the call board, the drawn price change and the clock, at each place that reads it. -/
namespace BTrader

def minValidPrice : ℚ := 1 / 1000000

def minValidVolume : ℚ := 1 / 1000000

structure Reading where
  depth : InstrumentDepth
  priceChange : ℚ
  idTime : Int64
  tradeTime : Int64
  statusTime : Int64
  positionTime : Int64
  assetTime : Int64

inductive Response where
  | trade (trade : Trade)
  | action (resp : OrderActionResp)
  deriving DecidableEq, Repr

/-- `responses` are what `notify_response` wrote so far. -/
structure BrokerSim where
  activeOrders : Std.TreeMap UInt64 Order
  asset : Asset
  positions : PositionBook
  commissionRate : ℚ
  slippageRate : ℚ
  enableSlippage : Bool
  enableCommission : Bool
  responses : List Response

/-- The `extra` part of the configuration; what is missing takes its default. -/
structure SimulationCfg where
  commissionRate : Option ℚ
  slippageRate : Option ℚ
  enableSlippage : Option Bool
  enableCommission : Option Bool
  initialCapital : Option ℚ

namespace BrokerSim

def defaultInitialCapital : ℚ := 1000000

def defaultCommissionRate : ℚ := 3 / 10000

def defaultSlippageRate : ℚ := 1 / 10000

/-- The constructor. -/
def make (now : Int64) : BrokerSim where
  activeOrders := ∅
  asset := ⟨now, defaultInitialCapital, 0, 0⟩
  positions := .empty
  commissionRate := defaultCommissionRate
  slippageRate := defaultSlippageRate
  enableSlippage := true
  enableCommission := true
  responses := []

def setup (b : BrokerSim) (cfg : SimulationCfg) : BrokerSim :=
  { b with
    commissionRate := cfg.commissionRate.getD defaultCommissionRate
    slippageRate := cfg.slippageRate.getD defaultSlippageRate
    enableSlippage := cfg.enableSlippage.getD true
    enableCommission := cfg.enableCommission.getD true
    asset := { b.asset with avail := cfg.initialCapital.getD b.asset.avail } }

def notifyResponse (b : BrokerSim) (response : Response) : BrokerSim :=
  { b with responses := b.responses ++ [response] }

/-! The orders. -/

def addOrder (b : BrokerSim) (order : Order) : BrokerSim :=
  { b with activeOrders :=
    b.activeOrders.insert order.orderId (.put b.activeOrders[order.orderId]? order) }

def modifyOrder (b : BrokerSim) (orderId : UInt64) (f : Order → Order) : BrokerSim :=
  { b with activeOrders := b.activeOrders.modify orderId f }

def updateOrderStatus (b : BrokerSim) (orderId : UInt64) (status : OrderStatus) (now : Int64) :
    BrokerSim :=
  b.modifyOrder orderId fun order => { order with status := status, updateTime := now }

def removeOrder (b : BrokerSim) (orderId : UInt64) : BrokerSim :=
  { b with activeOrders := b.activeOrders.erase orderId }

/-- A buy is refused when the cash is short of it. -/
def insertOrder (b : BrokerSim) (input : OrderInput) : Bool × BrokerSim :=
  let order := { orderFromInput input input.insertTime input.insertTime with status := .submitted }
  if input.side = .buy ∧ b.asset.avail < input.limitPrice * input.volume then (false, b)
  else (true, b.addOrder order)

def cancelResponse (input : OrderCancel) (errorId : Int32) : Response :=
  .action ⟨input.targetOrderId, input.orderId, errorId, .orderCancel⟩

def cancellable (status : OrderStatus) : Bool :=
  status = .submitted || status = .pending || status = .partialFilledActive

def cancelOrder (b : BrokerSim) (input : OrderCancel) (now : Int64) : Bool × BrokerSim :=
  match b.activeOrders[input.targetOrderId]? with
  | none => (false, b.notifyResponse (cancelResponse input (-2)))
  | some order =>
    if cancellable order.status then
      (true, (b.updateOrderStatus input.targetOrderId .cancelled now).notifyResponse
        (cancelResponse input 0))
    else (false, b.notifyResponse (cancelResponse input (-1)))

/-! The positions and the cash. -/

def updatedPosition (position : Position) (trade : Trade) (now : Int64) : Position :=
  let totalCost := position.volume * position.positionCostPrice
  let newCost := trade.volume * trade.price
  let totalVolume := position.volume + trade.volume
  { position with
    updateTime := now
    positionCostPrice :=
      if totalVolume > 0 then (totalCost + newCost) / totalVolume else position.positionCostPrice
    volume := position.volume + trade.volume }

def createdPosition (trade : Trade) (direction : Direction) (now : Int64) : Position where
  updateTime := now
  tradingDay := trade.tradingDay
  positionCostPrice := trade.price
  volume := trade.volume
  exchangeId := trade.exchangeId
  instrumentId := trade.instrumentId
  instrumentType := trade.instrumentType
  direction := direction
  unrealizedPnl := 0

/-- `update_position` on the book: the position is found by the trade's side alone. -/
def bookTrade (positions : PositionBook) (trade : Trade) (now : Int64) : PositionBook :=
  let direction := side2direction trade.side
  match positions.get trade.instrumentId trade.exchangeId direction with
  | some position =>
    positions.assign direction (hashInstrument trade.exchangeId trade.instrumentId)
      (some (updatedPosition position trade now))
  | none => positions.set (createdPosition trade direction now)

def updatePosition (b : BrokerSim) (trade : Trade) (now : Int64) : BrokerSim :=
  { b with positions := bookTrade b.positions trade now }

def updateAsset (b : BrokerSim) (trade : Trade) (now : Int64) : BrokerSim :=
  let tradeValue := trade.price * trade.volume
  let avail :=
    if trade.side = .buy then b.asset.avail - tradeValue else b.asset.avail + tradeValue
  let asset := { b.asset with avail := avail, updateTime := now }
  { b with asset :=
      if b.enableCommission then
        { asset with
          avail := asset.avail - trade.commission
          accumulatedFee := asset.accumulatedFee + trade.commission }
      else asset }

/-! Matching. -/

def applySlippage (b : BrokerSim) (basePrice : ℚ) (side : Side) : ℚ :=
  if !b.enableSlippage then basePrice
  else if side = .buy then basePrice * (1 + b.slippageRate)
  else basePrice * (1 - b.slippageRate)

def canExecuteOrder (order : Order) (marketPrice : ℚ) : Bool :=
  if order.priceType = .limit then
    if order.side = .buy then marketPrice ≤ order.limitPrice else order.limitPrice ≤ marketPrice
  else true

def checkFundsSufficiency (b : BrokerSim) (order : Order) (price volume : ℚ) : Bool :=
  !(order.side = .buy && b.asset.avail < price * volume)

def generateMarketPrice (order : Order) (priceChange : ℚ) : ℚ :=
  let basePrice := if order.limitPrice ≤ 0 then 100 else order.limitPrice
  basePrice * (1 + priceChange)

def validLevel (level : ℚ × ℚ) : Bool := minValidPrice < level.1 && minValidVolume < level.2

/-- A buy is matched with the asks, any other order with the bids. -/
def buildPriceLevels (depth : InstrumentDepth) (side : Side) : List (ℚ × ℚ) :=
  let level := fun i : Fin 20 =>
    if side = .buy then (depth.askPrice i, depth.askVolume i)
    else (depth.bidPrice i, depth.bidVolume i)
  (((List.finRange 20).filter fun i => i.val < depth.realDepthSize.toNat).map level).filter
    validLevel

/-- The running values of the loop over the price levels. -/
structure Fills where
  remainingVolume : ℚ
  weightedAvgPrice : ℚ
  totalTradedVolume : ℚ
  executedTrades : List (ℚ × ℚ)
  deriving DecidableEq, Repr

def Fills.start (order : Order) : Fills := ⟨order.volumeLeft, 0, 0, []⟩

def Fills.trade (fills : Fills) (finalPrice tradeVolume : ℚ) : Fills where
  remainingVolume := fills.remainingVolume - tradeVolume
  weightedAvgPrice := fills.weightedAvgPrice + finalPrice * tradeVolume
  totalTradedVolume := fills.totalTradedVolume + tradeVolume
  executedTrades := fills.executedTrades ++ [(finalPrice, tradeVolume)]

/-- A level whose price does not match ends the loop, one the cash is short of is skipped. -/
def sweepLevels (b : BrokerSim) (order : Order) : List (ℚ × ℚ) → Fills → Fills
  | [], fills => fills
  | (price, volume) :: levels, fills =>
    if fills.remainingVolume ≤ 0 then fills
    else
      let finalPrice := b.applySlippage price order.side
      if canExecuteOrder order finalPrice then
        let tradeVolume := min fills.remainingVolume volume
        if b.checkFundsSufficiency order finalPrice tradeVolume then
          sweepLevels b order levels (fills.trade finalPrice tradeVolume)
        else sweepLevels b order levels fills
      else fills

/-- A copy into an external id of 32 characters. -/
def externalId (id : String) : String := String.ofList (id.toList.take 31)

def generateSummaryTrade (b : BrokerSim) (order : Order) (avgPrice totalVolume : ℚ)
    (reading : Reading) : Trade :=
  let tradeId := (reading.idTime * 1000000).toUInt64 + order.orderId % 1000000
  { tradeId := tradeId
    orderId := order.orderId
    externalOrderId := externalId ("SIM_" ++ toString order.orderId)
    externalTradeId := externalId ("SIM_" ++ toString tradeId)
    tradeTime := reading.tradeTime
    tradingDay := order.tradingDay
    instrumentId := order.instrumentId
    exchangeId := order.exchangeId
    instrumentType := order.instrumentType
    side := order.side
    offset := order.offset
    hedgeFlag := order.hedgeFlag
    price := avgPrice
    volume := totalVolume
    tax := 0
    commission := if b.enableCommission then avgPrice * totalVolume * b.commissionRate else 0 }

/-- The order is the entry of `orderId` among the active ones. -/
def executeSummaryTrade (b : BrokerSim) (orderId : UInt64) (order : Order) (trade : Trade)
    (reading : Reading) : BrokerSim :=
  let volumeLeft := order.volumeLeft - castInt64 trade.volume
  let b := b.modifyOrder orderId fun order => { order with volumeLeft := volumeLeft }
  let b := b.updateOrderStatus order.orderId
    (if volumeLeft = 0 then .filled else .partialFilledActive) reading.statusTime
  ((b.updatePosition trade reading.positionTime).updateAsset trade reading.assetTime).notifyResponse
    (.trade trade)

def handleNoDepthExecution (b : BrokerSim) (orderId : UInt64) (order : Order) (reading : Reading) :
    BrokerSim :=
  let executionPrice :=
    if order.priceType = .limit then order.limitPrice
    else b.applySlippage (generateMarketPrice order reading.priceChange) order.side
  if order.side = .buy ∧ b.asset.avail < executionPrice * order.volumeLeft then
    b.updateOrderStatus order.orderId .error reading.statusTime
  else
    b.executeSummaryTrade orderId order
      (b.generateSummaryTrade order executionPrice order.volumeLeft reading) reading

def matchOrderWithMarketData (b : BrokerSim) (orderId : UInt64) (order : Order)
    (reading : Reading) :
    BrokerSim :=
  if reading.depth.realDepthSize = 0 then b.handleNoDepthExecution orderId order reading
  else
    let priceLevels := buildPriceLevels reading.depth order.side
    if priceLevels.isEmpty then
      if order.status = .submitted then
        b.modifyOrder orderId fun order =>
          { order with status := .pending, updateTime := reading.statusTime }
      else b
    else
      let fills := sweepLevels b order priceLevels (.start order)
      if fills.totalTradedVolume > 0 then
        let avgPrice := fills.weightedAvgPrice / fills.totalTradedVolume
        b.executeSummaryTrade orderId order
          (b.generateSummaryTrade order avgPrice fills.totalTradedVolume reading) reading
      else b

/-- One turn of the matching loop, at the entry of that key. -/
def matchStep (readings : UInt64 → Reading) (b : BrokerSim) (orderId : UInt64) : BrokerSim :=
  match b.activeOrders[orderId]? with
  | none => b
  | some order =>
    if order.status = .filled ∨ order.status = .cancelled ∨ order.status = .error then b
    else
      let b := b.matchOrderWithMarketData orderId order (readings orderId)
      match b.activeOrders[orderId]? with
      | none => b
      | some order =>
        if order.status = .filled ∨ order.status = .cancelled then b.removeOrder orderId else b

/-- The loop visits the active orders by increasing id; no turn adds one. -/
def processOrderMatching (b : BrokerSim) (readings : UInt64 → Reading) : BrokerSim :=
  b.activeOrders.keys.foldl (matchStep readings) b

end BrokerSim
end BTrader
