import BTrader.Infra.Hash

/-! Orders, trades and positions. A character array is the string it holds, with zeros
behind it; prices and volumes are exact rationals. -/
namespace BTrader

/-- What an array holds when another's string is assigned to it: this is copied without its
NUL, so what was beyond it stays. -/
def assignString (old new : String) : String := .ofList (new.toList ++ old.toList.drop new.length)

@[simp] theorem assignString_empty (s : String) : assignString "" s = s := by simp [assignString]

@[simp] theorem assignString_self (s : String) : assignString s s = s := by
  simp [assignString, String.length_toList.le]

/-- `static_cast<int64_t>`, and the initialisation of an `int64_t`: the part behind the point
is dropped. -/
def castInt64 (x : ℚ) : ℤ := x.num.tdiv x.den

@[simp] theorem castInt64_intCast (n : ℤ) : castInt64 n = n := by simp [castInt64]

theorem castInt64_nonneg_eq {x : ℚ} (nonneg : 0 ≤ x) : castInt64 x = ⌊x⌋ := by
  rw [castInt64, Rat.floor_def']
  exact Int.tdiv_eq_ediv_of_nonneg (Rat.num_nonneg.mpr nonneg)

theorem castInt64_le {x : ℚ} (nonneg : 0 ≤ x) : (castInt64 x : ℚ) ≤ x := by
  rw [castInt64_nonneg_eq nonneg]
  exact Int.floor_le x

inductive InstrumentType where
  | unknown | stock | future | bond | stockOption | techStock | fund | index | repo | warrant
  | iopt | crypto
  deriving DecidableEq, Repr

inductive Side where
  | buy | sell | lock | unlock | exec | drop | purchase | redemption | split | merge | marginTrade
  | shortSell | repayMargin | repayStock | cashRepayMargin | stockRepayStock
  | surplusStockTransfer | guaranteeStockTransferIn | guaranteeStockTransferOut | unknown
  deriving DecidableEq, Repr

inductive Offset where
  | open_ | close | closeToday | closeYesterday
  deriving DecidableEq, Repr

inductive HedgeFlag where
  | speculation | arbitrage | hedge | covered
  deriving DecidableEq, Repr

inductive PriceType where
  | limit | any | fakBest5 | forwardBest | reverseBest | fak | fok | unknown
  deriving DecidableEq, Repr

inductive VolumeCondition where
  | any | min | all
  deriving DecidableEq, Repr

inductive TimeCondition where
  | ioc | gfd | gtc | fok
  deriving DecidableEq, Repr

inductive OrderStatus where
  | unknown | submitted | pending | cancelled | error | filled | partialFilledNotActive
  | partialFilledActive | lost
  deriving DecidableEq, Repr

inductive Direction where
  | long | short | unknown
  deriving DecidableEq, Repr

def side2direction : Side → Direction
  | .buy => .long
  | .sell => .short
  | _ => .unknown

structure OrderInput where
  orderId : UInt64
  parentId : UInt64
  instrumentId : String
  exchangeId : String
  instrumentType : InstrumentType
  limitPrice : ℚ
  frozenPrice : ℚ
  volume : ℚ
  isSwap : Bool
  side : Side
  offset : Offset
  hedgeFlag : HedgeFlag
  priceType : PriceType
  volumeCondition : VolumeCondition
  timeCondition : TimeCondition
  insertTime : Int64
  deriving DecidableEq, Repr

structure OrderCancel where
  orderId : UInt64
  targetOrderId : UInt64
  deriving DecidableEq, Repr

structure Order where
  orderId : UInt64
  parentId : UInt64
  insertTime : Int64
  updateTime : Int64
  tradingDay : String
  instrumentId : String
  exchangeId : String
  instrumentType : InstrumentType
  limitPrice : ℚ
  frozenPrice : ℚ
  volume : ℚ
  volumeLeft : ℚ
  status : OrderStatus
  isSwap : Bool
  side : Side
  offset : Offset
  hedgeFlag : HedgeFlag
  priceType : PriceType
  volumeCondition : VolumeCondition
  timeCondition : TimeCondition
  deriving DecidableEq, Repr

/-- `map[key] = order`, by the entry that was there. -/
def Order.put (old : Option Order) (order : Order) : Order :=
  { order with
    tradingDay := assignString (old.elim "" tradingDay) order.tradingDay
    instrumentId := assignString (old.elim "" instrumentId) order.instrumentId
    exchangeId := assignString (old.elim "" exchangeId) order.exchangeId }

@[simp] theorem Order.put_orderId (old : Option Order) (order : Order) :
    (put old order).orderId = order.orderId := rfl

@[simp] theorem Order.put_status (old : Option Order) (order : Order) :
    (put old order).status = order.status := rfl

/-- The two times are left for the caller to set; the trading day stays empty. -/
def orderFromInput (input : OrderInput) (insertTime updateTime : Int64) : Order where
  orderId := input.orderId
  parentId := input.parentId
  insertTime := insertTime
  updateTime := updateTime
  tradingDay := ""
  instrumentId := input.instrumentId
  exchangeId := input.exchangeId
  instrumentType := input.instrumentType
  limitPrice := input.limitPrice
  frozenPrice := input.frozenPrice
  volume := input.volume
  volumeLeft := input.volume
  status := .pending
  isSwap := input.isSwap
  side := input.side
  offset := input.offset
  hedgeFlag := input.hedgeFlag
  priceType := input.priceType
  volumeCondition := input.volumeCondition
  timeCondition := input.timeCondition

structure Trade where
  tradeId : UInt64
  orderId : UInt64
  externalOrderId : String
  externalTradeId : String
  tradeTime : Int64
  tradingDay : String
  instrumentId : String
  exchangeId : String
  instrumentType : InstrumentType
  side : Side
  offset : Offset
  hedgeFlag : HedgeFlag
  price : ℚ
  volume : ℚ
  tax : ℚ
  commission : ℚ
  deriving DecidableEq, Repr

def Trade.put (old : Option Trade) (trade : Trade) : Trade :=
  { trade with
    externalOrderId := assignString (old.elim "" externalOrderId) trade.externalOrderId
    externalTradeId := assignString (old.elim "" externalTradeId) trade.externalTradeId
    tradingDay := assignString (old.elim "" tradingDay) trade.tradingDay
    instrumentId := assignString (old.elim "" instrumentId) trade.instrumentId
    exchangeId := assignString (old.elim "" exchangeId) trade.exchangeId }

structure Position where
  updateTime : Int64
  tradingDay : String
  instrumentId : String
  instrumentType : InstrumentType
  exchangeId : String
  direction : Direction
  volume : ℚ
  positionCostPrice : ℚ
  unrealizedPnl : ℚ
  deriving DecidableEq, Repr

def Position.put (old : Option Position) (position : Position) : Position :=
  { position with
    tradingDay := assignString (old.elim "" tradingDay) position.tradingDay
    instrumentId := assignString (old.elim "" instrumentId) position.instrumentId
    exchangeId := assignString (old.elim "" exchangeId) position.exchangeId }

@[simp] theorem Position.put_none (position : Position) : put none position = position := by
  simp only [put, Option.elim_none, assignString_empty]

structure Asset where
  updateTime : Int64
  avail : ℚ
  margin : ℚ
  accumulatedFee : ℚ
  deriving DecidableEq, Repr

inductive BrokerRespType where
  | unknown | orderPlace | orderCancel
  deriving DecidableEq, Repr

structure OrderActionResp where
  orderId : UInt64
  orderActionId : UInt64
  errorId : Int32
  respType : BrokerRespType
  deriving DecidableEq, Repr

inductive AccountReqType where
  | status | orderBook | order | positionBook
  deriving DecidableEq, Repr

structure AccountReq where
  id : UInt64
  type : AccountReqType
  instrumentId : String
  targetId : UInt64
  insertTime : Int64
  deriving DecidableEq, Repr

inductive BacktestSyncFlag where
  | marketData | matchOrder
  deriving DecidableEq, Repr

structure BacktestSyncSignal where
  flag : BacktestSyncFlag
  deriving DecidableEq, Repr

inductive BrokerState where
  | pending | idle | disConnected | connected | loggedIn | loginFailed | ready
  deriving DecidableEq, Repr

/-- Depth of a market, at most twenty levels a side. -/
structure InstrumentDepth where
  realDepthSize : UInt32
  bidPrice : Fin 20 → ℚ
  askPrice : Fin 20 → ℚ
  bidVolume : Fin 20 → ℚ
  askVolume : Fin 20 → ℚ

def hashInstrument (exchangeId instrumentId : String) : UInt32 :=
  Infra.hashStr32 instrumentId ^^^ Infra.hashStr32 exchangeId

end BTrader
