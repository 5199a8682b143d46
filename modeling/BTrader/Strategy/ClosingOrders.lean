import BTrader.Lib.Runs
import BTrader.Strategy.NetPosition

/-! The strategy with its book and the broker that fills its orders. -/
namespace BTrader
open Infra PositionBook

/-- What a broker tells of an order that it has filled. -/
structure Report where
  tradeId : UInt64
  orderId : UInt64
  externalOrderId : String
  externalTradeId : String
  tradeTime : Int64
  tradingDay : String
  price : ℚ
  tax : ℚ
  commission : ℚ

/-- The trade has what it is about from the order, and the whole volume. -/
def Report.trade (report : Report) (order : OrderInput) : Trade where
  tradeId := report.tradeId
  orderId := report.orderId
  externalOrderId := report.externalOrderId
  externalTradeId := report.externalTradeId
  tradeTime := report.tradeTime
  tradingDay := report.tradingDay
  instrumentId := order.instrumentId
  exchangeId := order.exchangeId
  instrumentType := order.instrumentType
  side := order.side
  offset := order.offset
  hedgeFlag := order.hedgeFlag
  price := report.price
  volume := order.volume
  tax := report.tax
  commission := report.commission

inductive TradingEvent where
  | bar (bar : Kline) (now : Int64)
  | quote (quote : Quote)
  | order (order : Order)
  | filled (index : Nat) (report : Report)
  | stop

/-- `filled` are the orders filled so far, by their places among those inserted. -/
structure Trading where
  strategy : ConsecutiveBarStrategy
  book : Book
  filled : Finset Nat

namespace ConsecutiveBarStrategy
variable (leftover : UInt64 → Leftover)

def ids (s : ConsecutiveBarStrategy) (orderId : UInt64) (exchangeId : String) : Instrument :=
  (leftover orderId).readIds (BinanceData.cStr exchangeId) (BinanceData.cStr s.symbol)

/-- An order as the strategy makes it: one that opens names the institution, one that closes
the default exchange. -/
structure Own (s : ConsecutiveBarStrategy) (order : OrderInput) : Prop where
  side : order.side = .buy ∨ order.side = .sell
  positive : 0 < order.volume
  ids : (order.exchangeId, order.instrumentId) =
    s.ids leftover order.orderId (if order.offset = .open_ then s.institution
      else "DEFAULT_EXCHANGE")

/-- Own orders are inserted; the position and the names stay. -/
structure Sends (s s' : ConsecutiveBarStrategy) : Prop where
  position : s'.state.currentPosition = s.state.currentPosition
  symbol : s'.symbol = s.symbol
  institution : s'.institution = s.institution
  orders : ∀ order ∈ s'.inserted, order ∈ s.inserted ∨ Own leftover s order

variable {leftover} {s s' s'' : ConsecutiveBarStrategy}

theorem Own.of_names {order : OrderInput} (symbol : s'.symbol = s.symbol)
    (institution : s'.institution = s.institution)
    (own : Own leftover s' order) : Own leftover s order := by
  refine ⟨own.side, own.positive, ?_⟩
  rw [own.ids, ConsecutiveBarStrategy.ids, ConsecutiveBarStrategy.ids, symbol, institution]

namespace Sends

theorem of_same (position : s'.state.currentPosition = s.state.currentPosition)
    (symbol : s'.symbol = s.symbol)
    (institution : s'.institution = s.institution) (inserted : s'.inserted = s.inserted) :
      Sends leftover s s' :=
  ⟨position, symbol, institution, fun _ member => .inl (inserted ▸ member)⟩

theorem refl (s : ConsecutiveBarStrategy) : Sends leftover s s := of_same rfl rfl rfl rfl

theorem trans (first : Sends leftover s s') (second : Sends leftover s' s'') :
    Sends leftover s s'' where
  position := second.position.trans first.position
  symbol := second.symbol.trans first.symbol
  institution := second.institution.trans first.institution
  orders order member := by
    rcases second.orders order member with earlier | own
    · exact first.orders order earlier
    · exact .inr (own.of_names first.symbol first.institution)

theorem ite {p : Prop} [Decidable p] (yes : p → Sends leftover s s')
    (no : ¬ p → Sends leftover s s'') :
    Sends leftover s (if p then s' else s'') := by
  split
  · rename_i holds
    exact yes holds
  · rename_i fails
    exact no fails

end Sends

theorem insertOrder_sends {order : OrderInput} (own : Own leftover s order) :
    Sends leftover s (s.insertOrder order) where
  position := rfl
  symbol := rfl
  institution := rfl
  orders other member := by
    rcases List.mem_append.mp member with earlier | now
    · exact .inl earlier
    · rw [List.mem_singleton.mp now]
      exact .inr own

theorem calculatePositionSize_positive (s : ConsecutiveBarStrategy) (price : ℚ) :
    0 < s.calculatePositionSize price := by
  unfold calculatePositionSize
  dsimp only
  generalize (if price = 0 ∨ s.config.maxPosition < 100000 * s.config.riskPerTrade / price then
    s.config.maxPosition
    else 100000 * s.config.riskPerTrade / price) = size
  split <;> linarith

theorem executeTrade_sends (price : ℚ) (isBuy : Bool) :
    Sends leftover s (s.executeTrade leftover price isBuy) := by
  apply insertOrder_sends
  refine ⟨?_, s.calculatePositionSize_positive price, rfl⟩
  cases isBuy
  · exact .inr rfl
  · exact .inl rfl

theorem closePosition_sends (price : ℚ) (isBuy : Bool) :
    Sends leftover s (s.closePosition leftover price isBuy) := by
  refine .ite (fun _ => .refl s) fun held => insertOrder_sends ⟨?_, abs_pos.mpr held, rfl⟩
  cases isBuy
  · exact .inr rfl
  · exact .inl rfl

theorem checkExitConditions_sends (price : ℚ) :
    Sends leftover s (s.checkExitConditions leftover price) := by
  refine .ite (fun _ => .refl s) fun _ => ?_
  have stopped : Sends leftover s
      (if s.state.currentPosition > 0 ∧ (price - s.state.entryPrice) / s.state.entryPrice <
        -s.config.stopLoss then
        s.closePosition leftover price false
      else if s.state.currentPosition < 0 ∧ (price - s.state.entryPrice) / s.state.entryPrice >
        s.config.stopLoss then
        s.closePosition leftover price true
      else s) :=
    .ite (fun _ => closePosition_sends _ _) fun _ =>
      .ite (fun _ => closePosition_sends _ _) fun _ => .refl s
  refine .ite (fun _ => ?_) fun _ => .ite (fun _ => ?_) fun _ => stopped
  · exact stopped.trans (closePosition_sends _ _)
  · exact stopped.trans (closePosition_sends _ _)

theorem preStop_sends (s : ConsecutiveBarStrategy) : Sends leftover s (s.preStop leftover) := by
  refine .ite (fun _ => .ite (fun _ => .refl s) fun _ => ?_) fun _ => .refl s
  have closed (price : ℚ) : Sends leftover s
      (if price > 0 then s.closePosition leftover price (s.state.currentPosition < 0) else s) :=
    .ite (fun _ => closePosition_sends _ _) fun _ => .refl s
  exact (closed _).trans (.of_same rfl rfl rfl rfl)

theorem onQuote_sends (quote : Quote) : Sends leftover s (s.onQuote leftover quote) :=
  .ite (fun _ => checkExitConditions_sends _) fun _ => .refl s

theorem tradeOnSignal_sends (bar : Kline) (now : Int64) :
    Sends leftover s (s.tradeOnSignal leftover bar now) := by
  have timed (isBuy : Bool) :
      Sends leftover s { s.executeTrade leftover bar.close isBuy with lastTradeTime := now } :=
    (executeTrade_sends bar.close isBuy).trans (.of_same rfl rfl rfl rfl)
  exact .ite (fun _ => timed true) fun _ => .ite (fun _ => timed false) fun _ => .refl s

theorem onBar_sends (bar : Kline) (now : Int64) : Sends leftover s (s.onBar leftover bar now) := by
  have counted : Sends leftover s
      { (s.updateBarHistory bar).analyzeConsecutiveBars with
        state := { (s.updateBarHistory bar).analyzeConsecutiveBars.state with
          barCount := (s.updateBarHistory bar).analyzeConsecutiveBars.state.barCount + 1 } } :=
    .of_same rfl rfl rfl rfl
  have checked := counted.trans (checkExitConditions_sends bar.close)
  exact .ite (fun _ => checked.trans (tradeOnSignal_sends bar now)) fun _ => checked

theorem onOrder_sends (order : Order) : Sends leftover s (s.onOrder order) :=
  .of_same rfl rfl rfl rfl

theorem positionAfter_eq (position : ℚ) (trade : Trade) :
    positionAfter position trade = position + trade.signedVolume := by
  unfold positionAfter Trade.signedVolume
  cases trade.side <;> simp [sub_eq_add_neg]

theorem updatePnlTracking_same (trade : Trade) (s : ConsecutiveBarStrategy) :
    (s.updatePnlTracking trade).state = s.state ∧ (s.updatePnlTracking trade).symbol = s.symbol ∧
      (s.updatePnlTracking trade).institution = s.institution ∧
        (s.updatePnlTracking trade).inserted = s.inserted := by
  unfold updatePnlTracking
  split
  · exact ⟨rfl, rfl, rfl, rfl⟩
  · exact ⟨rfl, rfl, rfl, rfl⟩

theorem onTrade_position (trade : Trade) (s : ConsecutiveBarStrategy) :
    (s.onTrade trade).state.currentPosition = s.state.currentPosition + trade.signedVolume := by
  rw [onTrade, (updatePnlTracking_same trade _).1, ← positionAfter_eq]
  dsimp only
  split <;> rfl

/-- A trade sends nothing. -/
theorem onTrade_same (trade : Trade) (s : ConsecutiveBarStrategy) :
    (s.onTrade trade).symbol = s.symbol ∧ (s.onTrade trade).institution = s.institution ∧
      (s.onTrade trade).inserted = s.inserted :=
  (updatePnlTracking_same trade _).2

/-- The setup sends nothing either. -/
theorem setup_inserted (cfg : Json) : (make.setup cfg).inserted = [] := by
  have parsed {α : Type} (key : String) (get : Json → Except JsonFault α)
      (assign : ConsecutiveBarStrategy → α → ConsecutiveBarStrategy)
      (same : ∀ s value, (assign s value).inserted = s.inserted) :
      Procedure.Keeps (fun s : ConsecutiveBarStrategy => s.inserted = [])
        (parse cfg key get assign) := by
    apply Procedure.keeps_branch
    · cases cfg.index key >>= get with
      | ok value => exact Procedure.keeps_modify fun s none => (same s value).trans none
      | error e => exact Procedure.keeps_throw e
    · exact Procedure.keeps_pure _
  have all :
      Procedure.Keeps (fun s : ConsecutiveBarStrategy => s.inserted = []) (parseAll cfg) := by
    iterate 10 refine Procedure.keeps_bind (parsed _ _ _ fun _ _ => rfl) fun _ => ?_
    refine Procedure.keeps_modify fun s none => ?_
    split <;> exact none
  exact all make rfl

end ConsecutiveBarStrategy

namespace Trading
variable (leftover : UInt64 → Leftover)

/-- The executor's book before the first trade, and the strategy as it is started. -/
def start (cfg : Json) (asset : Asset) : Trading where
  strategy := (ConsecutiveBarStrategy.make.setup cfg).preStart
  book := ⟨asset, .empty⟩
  filled := ∅

/-- The trade that an event brings; an order is filled once. -/
def traded (t : Trading) : TradingEvent → Option Trade
  | .filled index report => if index ∈ t.filled then none
      else t.strategy.inserted[index]?.map report.trade
  | _ => none

/-- The book is brought up to date before the strategy is called. -/
def act (t : Trading) (event : TradingEvent) : Trading :=
  match event with
  | .bar bar now => ⟨t.strategy.onBar leftover bar now, t.book.updateBar bar.toBar, t.filled⟩
  | .quote quote => { t with strategy := t.strategy.onQuote leftover quote }
  | .order order => { t with strategy := t.strategy.onOrder order }
  | .stop => { t with strategy := t.strategy.preStop leftover }
  | .filled index _ =>
    match t.traded event with
    | none => t
    | some trade => ⟨t.strategy.onTrade trade, t.book.update trade, insert index t.filled⟩

/-- All that was sent has been filled. -/
def Settled (t : Trading) : Prop := ∀ index < t.strategy.inserted.length, index ∈ t.filled

/-- The book has the position of the strategy. -/
def Agrees (t : Trading) : Prop := t.book.positions.Follows t.strategy.state.currentPosition

/-- A trade opens and leaves a position, or closes no more than there is under its key, and if
this brings the position to 0, the whole of all there is. -/
def Meets (t : Trading) (trade : Trade) : Prop :=
  t.book.positions.Covers trade ∧
    (t.strategy.state.currentPosition + trade.signedVolume = 0 → t.book.positions.ClosesLast trade)

structure Sound (t : Trading) : Prop where
  positive : t.book.positions.Positive
  own : ∀ order ∈ t.strategy.inserted, t.strategy.Own leftover order

variable {leftover} {t : Trading}

theorem traded_order {event : TradingEvent} {trade : Trade} (made : t.traded event = some trade) :
    ∃ order ∈ t.strategy.inserted, ∃ report : Report, trade = report.trade order := by
  cases event with
  | filled index report =>
    simp only [traded, Option.ite_none_left_eq_some, Option.map_eq_some_iff] at made
    obtain ⟨_, order, found, rfl⟩ := made
    exact ⟨order, List.mem_of_getElem? found, report, rfl⟩
  | _ => contradiction

theorem Sound.proper (sound : t.Sound leftover) {event : TradingEvent} {trade : Trade}
    (made : t.traded event = some trade) : trade.Proper := by
  obtain ⟨order, member, report, rfl⟩ := traded_order made
  exact ⟨(sound.own order member).side, (sound.own order member).positive⟩

/-- An event brings a trade to both, or keeps the volumes while the strategy sends. -/
theorem act_cases (leftover : UInt64 → Leftover) (t : Trading) (event : TradingEvent) :
    (∃ trade, t.traded event = some trade ∧ (t.act leftover event).book = t.book.update trade ∧
      (t.act leftover event).strategy = t.strategy.onTrade trade) ∨
    (t.traded event = none ∧ SameVolumes t.book.positions (t.act leftover event).book.positions ∧
      t.strategy.Sends leftover (t.act leftover event).strategy) := by
  cases event with
  | bar bar now =>
    exact .inr ⟨rfl, updateBar_volumes _ _, ConsecutiveBarStrategy.onBar_sends bar now⟩
  | quote quote => exact .inr ⟨rfl, fun _ _ => rfl, ConsecutiveBarStrategy.onQuote_sends quote⟩
  | order order => exact .inr ⟨rfl, fun _ _ => rfl, ConsecutiveBarStrategy.onOrder_sends order⟩
  | stop => exact .inr ⟨rfl, fun _ _ => rfl, ConsecutiveBarStrategy.preStop_sends _⟩
  | filled index report =>
    simp only [act]
    cases made : t.traded (.filled index report) with
    | none => exact .inr ⟨rfl, fun _ _ => rfl, .refl _⟩
    | some trade => exact .inl ⟨trade, rfl, rfl, rfl⟩

theorem act_sound (sound : t.Sound leftover) (event : TradingEvent) :
    (t.act leftover event).Sound leftover := by
  rcases act_cases leftover t event with ⟨trade, made, book, strategy⟩ | ⟨_, volumes, sends⟩
  · obtain ⟨symbol, institution, inserted⟩ := ConsecutiveBarStrategy.onTrade_same trade t.strategy
    constructor
    · rw [book]
      exact update_positive sound.positive (sound.proper made)
    · rw [strategy, inserted]
      intro order member
      exact (sound.own order member).of_names symbol.symm institution.symm
  · constructor
    · exact volumes.positive sound.positive
    · intro order member
      have own : t.strategy.Own leftover order := by
        rcases sends.orders order member with earlier | now
        · exact sound.own order earlier
        · exact now
      exact own.of_names sends.symbol.symm sends.institution.symm

/-- An event leaves the two agreeing just when the trade it brings meets the condition. -/
theorem act_agrees (sound : t.Sound leftover) (event : TradingEvent) (agrees : t.Agrees) :
    (t.act leftover event).Agrees ↔ ∀ trade, t.traded event = some trade → t.Meets trade := by
  rcases act_cases leftover t event with ⟨trade, made, book, strategy⟩ | ⟨none, volumes, sends⟩
  · have step := update_follows_iff sound.positive (sound.proper made) agrees
    simp only [Agrees, book, strategy, made, Option.some.injEq, forall_eq',
      ConsecutiveBarStrategy.onTrade_position]
    exact step
  · rw [Agrees, volumes.follows, sends.position]
    simp only [none, reduceCtorEq, false_implies, implies_true, iff_true]
    exact agrees

theorem start_sound (cfg : Json) (asset : Asset) : (start cfg asset).Sound leftover := by
  constructor
  · intro direction key position there
    cases direction <;> contradiction
  · intro order member
    have none : (start cfg asset).strategy.inserted = [] :=
      ConsecutiveBarStrategy.setup_inserted cfg
    rw [none] at member
    contradiction

theorem start_agrees (cfg : Json) (asset : Asset) : (start cfg asset).Agrees := by
  constructor
  · exact (sub_self _)
  · rintro _ ⟨direction, key, there⟩
    cases direction <;> contradiction

/-- In every run the book has the strategy's position in every state just when every trade
meets the condition. -/
theorem agrees_iff (leftover : UInt64 → Leftover) (cfg : Json) (asset : Asset)
    (events : List TradingEvent) :
    (∀ t ∈ Runs.states (act leftover) (start cfg asset) events, t.Agrees) ↔
      ∀ move ∈ Runs.moves (act leftover) (start cfg asset) events, ∀ trade, move.1.traded move.2 =
        some trade →
        move.1.Meets trade := by
  have kept : ∀ (t : Trading) (event : TradingEvent), t.Sound leftover → True →
      (t.act leftover event).Sound leftover :=
    fun _ event sound _ => act_sound sound event
  have survives : ∀ (t : Trading) (event : TradingEvent), t.Sound leftover → True → t.Agrees →
      ((t.act leftover event).Agrees ↔ ∀ trade, t.traded event = some trade → t.Meets trade) :=
    fun _ event sound _ agrees => act_agrees sound event agrees
  exact Runs.states_iff kept survives (start_sound cfg asset)
    (start_agrees cfg asset) events fun _ _ => trivial

/-! Closing orders have a key of their own -/

/-- Nothing is held under the key of a closing order. -/
structure Unclosed (leftover : UInt64 → Leftover) (s : ConsecutiveBarStrategy)
    (t : Trading) : Prop where
  sound : t.Sound leftover
  symbol : t.strategy.symbol = s.symbol
  institution : t.strategy.institution = s.institution
  clear : ∀ direction orderId,
    t.book.positions.positions direction (s.ids leftover orderId "DEFAULT_EXCHANGE").key = none

section
variable {s : ConsecutiveBarStrategy} {event : TradingEvent} {trade : Trade}

/-- The instrument of a trade is that of an order of the strategy. -/
theorem Unclosed.instrument (unclosed : t.Unclosed leftover s)
    (made : t.traded event = some trade) :
    ∃ orderId, trade.instrument =
      s.ids leftover orderId (if trade.offset = .open_ then s.institution
        else "DEFAULT_EXCHANGE") := by
  obtain ⟨order, member, report, rfl⟩ := traded_order made
  have own := ((unclosed.sound.own order member).of_names unclosed.symbol unclosed.institution).ids
  exact ⟨order.orderId, own⟩

/-- A trade that meets the condition opens. -/
theorem Unclosed.opens (unclosed : t.Unclosed leftover s) (made : t.traded event = some trade)
    (meets : t.Meets trade) :
    trade.offset = .open_ := by
  by_contra closes
  obtain ⟨orderId, instrument⟩ := unclosed.instrument made
  rw [if_neg closes] at instrument
  rcases meets.1 with opens | ⟨direction, position, _, found, _⟩
  · exact closes opens
  · have none := unclosed.clear direction orderId
    rw [← instrument, found] at none
    contradiction

theorem act_unclosed
    (apart :
    ∀ i j, (s.ids leftover i s.institution).key ≠ (s.ids leftover j "DEFAULT_EXCHANGE").key)
    (unclosed : t.Unclosed leftover s)
    (meets : ∀ trade, t.traded event = some trade → t.Meets trade) :
    (t.act leftover event).Unclosed leftover s := by
  have sound := act_sound unclosed.sound event
  rcases act_cases leftover t event with ⟨trade, made, book, strategy⟩ | ⟨_, volumes, sends⟩
  · obtain ⟨symbol, institution, _⟩ := ConsecutiveBarStrategy.onTrade_same trade t.strategy
    obtain ⟨direction, acts, _⟩ := (unclosed.sound.proper made).direction
    obtain ⟨i, instrument⟩ := unclosed.instrument made
    rw [if_pos (unclosed.opens made (meets trade made))] at instrument
    refine ⟨sound, ?_, ?_, fun side j => ?_⟩
    · rw [strategy, symbol, unclosed.symbol]
    · rw [strategy, institution, unclosed.institution]
    · have other : (s.ids leftover j "DEFAULT_EXCHANGE").key ≠ trade.instrument.key := by
        rw [instrument]
        exact (apart i j).symm
      have updated : (t.book.update trade).positions = t.book.positions.update trade := rfl
      rw [book, updated, update_eq _ acts, assign_positions]
      split
      · rw [Function.update_of_ne other]
        exact unclosed.clear side j
      · exact unclosed.clear side j
  · refine ⟨sound, sends.symbol.trans unclosed.symbol, sends.institution.trans unclosed.institution,
      fun side j => ?_⟩
    have same := volumes side (s.ids leftover j "DEFAULT_EXCHANGE").key
    rw [unclosed.clear side j] at same
    exact Option.map_eq_none_iff.mp same

end

/-- Where no closing order has the key of an opening one, only runs in which no closing order is
filled meet the condition. -/
theorem opens_of_meets (leftover : UInt64 → Leftover) (cfg : Json) (asset : Asset)
    (events : List TradingEvent)
    (apart :
      ∀ i j, ((start cfg asset).strategy.ids leftover i
        (start cfg asset).strategy.institution).key ≠
      ((start cfg asset).strategy.ids leftover j "DEFAULT_EXCHANGE").key)
    (meets :
      ∀ move ∈ Runs.moves (act leftover) (start cfg asset) events, ∀ trade, move.1.traded move.2 =
      some trade →
      move.1.Meets trade) :
    ∀ move ∈ Runs.moves (act leftover) (start cfg asset) events, ∀ trade, move.1.traded move.2 =
      some trade →
      trade.offset = .open_ := by
  have first : (start cfg asset).Unclosed leftover (start cfg asset).strategy := by
    refine ⟨start_sound cfg asset, rfl, rfl, fun direction _ => ?_⟩
    cases direction <;> rfl
  have unclosed :=
    Runs.invariant (fun _ _ before meets => act_unclosed apart before meets) first events meets
  intro move member trade made
  exact (unclosed _ (Runs.moves_states _ _ move member).1).opens made (meets move member trade made)

/-! A run with one position -/

/-- An order on a cleared stack: behind the 16 characters of an exchange stands the type of the
instrument, which is 1. -/
def cleared : Leftover where
  parentId := 0
  frozenPrice := 0
  isSwap := false
  hedgeFlag := .speculation
  insertTime := 0
  readIds exchangeId instrumentId :=
    (if exchangeId.utf8ByteSize < 16 then exchangeId else exchangeId ++ "\x01", instrumentId)
  fits exchangeId instrumentId short _ := by rw [if_pos short]

def futures : Json := .object [("symbol", .string "IF"), ("institution", .string "X")]

def rising (close : ℚ) : TradingEvent := .bar ⟨⟨"IF", "X", 1, close⟩, 0, 9, close, 9, 1⟩ 5000

def fill (index : Nat) (price : ℚ) : TradingEvent :=
  .filled index ⟨0, 0, "", "", 1, "", price, 0, 0⟩

def roundTrip : List TradingEvent :=
  [rising 10, rising 10, rising 10, fill 0 10, rising 11, fill 1 11]

/-- A hundred bought at 10 are sold at 11, and the book holds two hundred. -/
theorem roundTrip_holds :
    ¬ ∀ (leftover : UInt64 → Leftover) (cfg : Json) (asset : Asset) (events : List TradingEvent),
      ∀ t ∈ Runs.states (act leftover) (start cfg asset) events, t.Settled → t.Agrees := by
  intro agrees
  let t := roundTrip.foldl (act fun _ => cleared) (start futures ⟨0, 100000, 0, 0⟩)
  have member :
      t ∈ Runs.states (act fun _ => cleared) (start futures ⟨0, 100000, 0, 0⟩) roundTrip :=
      Runs.last_mem _ _
  have settled : t.Settled := by
    have sent : t.strategy.inserted.length = 2 := by decide +kernel
    have both : 0 ∈ t.filled ∧ 1 ∈ t.filled := by decide +kernel
    intro index bound
    rw [sent] at bound
    interval_cases index
    · exact both.1
    · exact both.2
  have flat : t.strategy.state.currentPosition = 0 := by decide +kernel
  have held : (t.book.positions.positions .long (hashInstrument "X" "IF")).isSome := by
    decide +kernel
  exact (agrees _ _ _ _ t member settled).2 flat ⟨.long, _, held⟩

end Trading
end BTrader
