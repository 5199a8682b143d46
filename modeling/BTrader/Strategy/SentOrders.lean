import BTrader.Strategy.ClosingOrders
import BTrader.Strategy.ValidatedSetup

/-! Which orders the strategy sends, and what it leaves as it is while it does. -/
namespace BTrader.ConsecutiveBarStrategy
open Infra

/-- The orders are sent, and what only trades change stays. -/
structure Sent (s s' : ConsecutiveBarStrategy) (orders : List OrderInput) : Prop where
  config : s'.config = s.config
  position : s'.state.currentPosition = s.state.currentPosition
  opened : s'.state.positionOpened = s.state.positionOpened
  entryPrice : s'.state.entryPrice = s.state.entryPrice
  totalPnl : s'.totalPnl = s.totalPnl
  maxDrawdown : s'.maxDrawdown = s.maxDrawdown
  peakEquity : s'.peakEquity = s.peakEquity
  inserted : s'.inserted = s.inserted ++ orders

/-- An order that closes the whole position. -/
structure Closes (s : ConsecutiveBarStrategy) (order : OrderInput) : Prop where
  offset : order.offset = .close
  volume : order.volume = |s.state.currentPosition|
  side : order.side = if 0 < s.state.currentPosition then .sell else .buy

/-- An order that opens a position, of the size that the price allows. -/
structure Opens (s : ConsecutiveBarStrategy) (price : ℚ) (order : OrderInput) : Prop where
  offset : order.offset = .open_
  volume : order.volume = s.calculatePositionSize price
  side : order.side = .buy ∨ order.side = .sell

variable {leftover : UInt64 → Leftover} {s s' s'' : ConsecutiveBarStrategy}

namespace Sent

theorem refl (s : ConsecutiveBarStrategy) : Sent s s [] :=
  ⟨rfl, rfl, rfl, rfl, rfl, rfl, rfl, (List.append_nil _).symm⟩

theorem trans {orders orders' : List OrderInput} (first : Sent s s' orders)
    (second : Sent s' s'' orders') :
    Sent s s'' (orders ++ orders') where
  config := second.config.trans first.config
  position := second.position.trans first.position
  opened := second.opened.trans first.opened
  entryPrice := second.entryPrice.trans first.entryPrice
  totalPnl := second.totalPnl.trans first.totalPnl
  maxDrawdown := second.maxDrawdown.trans first.maxDrawdown
  peakEquity := second.peakEquity.trans first.peakEquity
  inserted := by rw [second.inserted, first.inserted, List.append_assoc]

end Sent

theorem insertOrder_sent (order : OrderInput) : Sent s (s.insertOrder order) [order] :=
  ⟨rfl, rfl, rfl, rfl, rfl, rfl, rfl, rfl⟩

theorem closePosition_sent (held : s.state.currentPosition ≠ 0) (price : ℚ) {isBuy : Bool}
    (side : isBuy = true ↔ ¬ 0 < s.state.currentPosition) :
    ∃ order, Closes s order ∧ Sent s (s.closePosition leftover price isBuy) [order] := by
  refine ⟨orderInput leftover s "DEFAULT_EXCHANGE" price |s.state.currentPosition|
    (if isBuy then .buy else .sell) .close
    .all .ioc, ⟨rfl, rfl, ?_⟩, ?_⟩
  · by_cases long : 0 < s.state.currentPosition
    · have sells : isBuy = false := by simpa [long] using side
      simp [orderInput, sells, long]
    · have buys : isBuy = true := side.mpr long
      simp [orderInput, buys, long]
  · rw [closePosition, if_neg held]
    exact insertOrder_sent _

theorem executeTrade_sent (price : ℚ) (isBuy : Bool) :
    ∃ order, Opens s price order ∧ Sent s (s.executeTrade leftover price isBuy) [order] := by
  refine ⟨_, ⟨rfl, rfl, ?_⟩, insertOrder_sent _⟩
  cases isBuy
  · exact .inr rfl
  · exact .inl rfl

/-- The price, in relation to the entry price. -/
def priceChange (s : ConsecutiveBarStrategy) (price : ℚ) : ℚ :=
  (price - s.state.entryPrice) / s.state.entryPrice

/-- The price is past the stop loss or the take profit of the open position. -/
def exits (s : ConsecutiveBarStrategy) (price : ℚ) : Prop :=
  s.state.positionOpened = true ∧ s.state.entryPrice ≠ 0 ∧
    (0 < s.state.currentPosition ∧
        (s.priceChange price < -s.config.stopLoss ∨ s.config.takeProfit < s.priceChange price) ∨
      s.state.currentPosition < 0 ∧
        (s.config.stopLoss < s.priceChange price ∨ s.priceChange price < -s.config.takeProfit))

theorem checkExitConditions_idle (idle : ¬ (s.state.positionOpened = true ∧ s.state.entryPrice ≠ 0))
    (price : ℚ) :
    s.checkExitConditions leftover price = s := by
  rw [checkExitConditions, if_pos]
  by_contra active
  exact idle (by simpa using active)

/-- What is done on either of two bounds is done once, as a price is never past both. -/
theorem once {α : Type} {stop take : Prop} [Decidable stop] [Decidable take] (apart : stop → ¬ take)
    (f : α → α) (x : α) :
    (if take then f (if stop then f x else x) else if stop then f x else x) = if stop ∨
      take then f x else x := by
  by_cases past : take
  · have inside : ¬ stop := fun stopped => apart stopped past
    simp only [past, inside, or_true, if_true, if_false]
  · simp only [past, or_false, if_false]

/-- With a long position, either bound leads to a sell. -/
theorem checkExitConditions_long (opened : s.state.positionOpened = true)
    (entered : s.state.entryPrice ≠ 0)
    (long : 0 < s.state.currentPosition) (bounded : s.config.Bounded) (price : ℚ) :
    s.checkExitConditions leftover price =
      if s.priceChange price < -s.config.stopLoss ∨ s.config.takeProfit < s.priceChange price then
        s.closePosition leftover price false
      else s := by
  have stop := bounded.stopLoss.1
  have take := bounded.takeProfit.1
  have active : ¬ ((!s.state.positionOpened) = true ∨ s.state.entryPrice = 0) := by
    simp [opened, entered]
  have change : (price - s.state.entryPrice) / s.state.entryPrice = s.priceChange price := rfl
  simp only [checkExitConditions, active, change, long, long.not_gt, true_and, false_and,
    if_false, gt_iff_lt]
  have apart :
      s.priceChange price < -s.config.stopLoss → ¬ s.config.takeProfit < s.priceChange price := by
    intro below above
    linarith
  exact once apart (fun s => s.closePosition leftover price false) s

/-- With a short one, either leads to a buy. -/
theorem checkExitConditions_short (opened : s.state.positionOpened = true)
    (entered : s.state.entryPrice ≠ 0)
    (short : s.state.currentPosition < 0) (bounded : s.config.Bounded) (price : ℚ) :
    s.checkExitConditions leftover price =
      if s.config.stopLoss < s.priceChange price ∨ s.priceChange price < -s.config.takeProfit then
        s.closePosition leftover price true
      else s := by
  have stop := bounded.stopLoss.1
  have take := bounded.takeProfit.1
  have active : ¬ ((!s.state.positionOpened) = true ∨ s.state.entryPrice = 0) := by
    simp [opened, entered]
  have change : (price - s.state.entryPrice) / s.state.entryPrice = s.priceChange price := rfl
  simp only [checkExitConditions, active, change, short, short.not_gt, true_and, false_and,
    if_false, gt_iff_lt]
  have apart :
      s.config.stopLoss < s.priceChange price → ¬ s.priceChange price < -s.config.takeProfit := by
    intro above below
    linarith
  exact once apart (fun s => s.closePosition leftover price true) s

/-- An exit closes the whole position with one order. -/
theorem checkExitConditions_sent (bounded : s.config.Bounded) (price : ℚ) :
    (s.exits price ∧ ∃ order, Closes s order ∧
      Sent s (s.checkExitConditions leftover price) [order]) ∨
      (¬ s.exits price ∧ s.checkExitConditions leftover price = s) := by
  by_cases active : s.state.positionOpened = true ∧ s.state.entryPrice ≠ 0
  · obtain ⟨opened, entered⟩ := active
    rcases lt_trichotomy s.state.currentPosition 0 with short | flat | long
    · rw [checkExitConditions_short opened entered short bounded]
      split
      · rename_i past
        exact .inl ⟨⟨opened, entered, .inr ⟨short, past⟩⟩,
          closePosition_sent short.ne price (by simp [short.le])⟩
      · rename_i inside
        refine .inr ⟨?_, rfl⟩
        rintro ⟨-, -, ⟨long, -⟩ | ⟨-, past⟩⟩
        · exact short.not_gt long
        · exact inside past
    · have none : s.checkExitConditions leftover price = s := by
        simp [checkExitConditions, opened, entered, flat]
      rw [none]
      refine .inr ⟨?_, rfl⟩
      rintro ⟨-, -, ⟨long, -⟩ | ⟨short, -⟩⟩
      · exact long.ne' flat
      · exact short.ne flat
    · rw [checkExitConditions_long opened entered long bounded]
      split
      · rename_i past
        exact .inl ⟨⟨opened, entered, .inl ⟨long, past⟩⟩,
          closePosition_sent long.ne' price (by simp [long])⟩
      · rename_i inside
        refine .inr ⟨?_, rfl⟩
        rintro ⟨-, -, ⟨-, past⟩ | ⟨short, -⟩⟩
        · exact inside past
        · exact long.not_gt short
  · rw [checkExitConditions_idle active]
    exact .inr ⟨fun exits => active ⟨exits.1, exits.2.1⟩, rfl⟩

/-- What comes to the strategy from outside of its own orders. -/
inductive MarketEvent where
  | bar (bar : Kline) (now : Int64)
  | quote (quote : Quote)
  | order (order : Order)

variable (leftover) in
def onMarket (s : ConsecutiveBarStrategy) : MarketEvent → ConsecutiveBarStrategy
  | .bar bar now => s.onBar leftover bar now
  | .quote quote => s.onQuote leftover quote
  | .order order => s.onOrder order

/-- The price at which the strategy trades on the event. -/
def MarketEvent.price : MarketEvent → ℚ
  | .bar kline _ => kline.close
  | .quote levels => (best levels.bidPrice + best levels.askPrice) / 2
  | .order _ => 0

/-- The strategy with the bar in its history, and counted. -/
def withBar (s : ConsecutiveBarStrategy) (bar : Kline) : ConsecutiveBarStrategy :=
  let s := (s.updateBarHistory bar).analyzeConsecutiveBars
  { s with state := { s.state with barCount := s.state.barCount + 1 } }

/-- The event makes the strategy close its position. -/
def Exits (s : ConsecutiveBarStrategy) (event : MarketEvent) : Prop :=
  match event with
  | .bar _ _ => s.exits event.price
  | .quote _ => s.config.enableQuoteTrading = true ∧ s.exits event.price
  | .order _ => False

/-- The event makes the strategy open a position. -/
def Signals (s : ConsecutiveBarStrategy) : MarketEvent → Prop
  | .bar bar now =>
    ((s.withBar bar).state.barCount ≥ (s.withBar bar).config.minBars ∧
        now - (s.withBar bar).lastTradeTime > minTradeInterval) ∧
      ((s.withBar bar).shouldBuy = true ∨ (s.withBar bar).shouldSell = true)
  | .quote _ | .order _ => False

theorem withBar_sent (s : ConsecutiveBarStrategy) (bar : Kline) : Sent s (s.withBar bar) [] :=
  ⟨rfl, rfl, rfl, rfl, rfl, rfl, rfl, (List.append_nil _).symm⟩

/-- While a position is open, there are no signals. -/
theorem signals_flat (event : MarketEvent) (signals : s.Signals event) :
    s.state.positionOpened = false := by
  cases event with
  | bar bar now =>
    have opened := (withBar_sent s bar).opened
    rcases signals.2 with buys | sells
    · rw [← opened]
      simp only [shouldBuy, Bool.and_eq_true, Bool.not_eq_true'] at buys
      exact buys.1.2
    · rw [← opened]
      simp only [shouldSell, Bool.and_eq_true, Bool.not_eq_true'] at sells
      exact sells.1.2
  | quote _ => exact signals.elim
  | order _ => exact signals.elim

theorem tradeOnSignal_sent (bar : Kline) (now : Int64) :
    ((s.shouldBuy = true ∨ s.shouldSell = true) ∧
        ∃ order, Opens s bar.close order ∧ Sent s (s.tradeOnSignal leftover bar now) [order]) ∨
      (¬ (s.shouldBuy = true ∨ s.shouldSell = true) ∧ s.tradeOnSignal leftover bar now = s) := by
  have timed (isBuy : Bool) : ∃ order, Opens s bar.close order ∧
      Sent s { s.executeTrade leftover bar.close isBuy with lastTradeTime := now } [order] := by
    obtain ⟨order, opens, sent⟩ : ∃ order, Opens s bar.close order ∧
        Sent s (s.executeTrade leftover bar.close isBuy) [order] :=
          executeTrade_sent bar.close isBuy
    exact ⟨order, opens,
      ⟨sent.config, sent.position, sent.opened, sent.entryPrice, sent.totalPnl, sent.maxDrawdown,
      sent.peakEquity, sent.inserted⟩⟩
  unfold tradeOnSignal
  split
  · rename_i buys
    exact .inl ⟨.inl buys, timed true⟩
  · rename_i noBuy
    split
    · rename_i sells
      exact .inl ⟨.inr sells, timed false⟩
    · rename_i noSell
      exact .inr ⟨not_or.mpr ⟨noBuy, noSell⟩, rfl⟩

/-- An event makes the strategy close its position or open one, or send nothing. -/
theorem onMarket_sent (bounded : s.config.Bounded) (event : MarketEvent) :
    (s.Exits event ∧ ∃ order, Closes s order ∧ Sent s (s.onMarket leftover event) [order]) ∨
    (s.Signals event ∧ ∃ order, Opens s event.price order ∧
      Sent s (s.onMarket leftover event) [order]) ∨
    (¬ s.Exits event ∧ ¬ s.Signals event ∧ Sent s (s.onMarket leftover event) []) := by
  cases event with
  | bar bar now =>
    have counted := withBar_sent s bar
    have step : s.onMarket leftover (.bar bar now) =
        let t := (s.withBar bar).checkExitConditions leftover bar.close
        if t.state.barCount ≥ t.config.minBars ∧ now - t.lastTradeTime > minTradeInterval then
          t.tradeOnSignal leftover bar now
        else t := rfl
    have within : (s.withBar bar).config.Bounded := bounded
    have checked : ((s.withBar bar).exits bar.close ∧ ∃ order, Closes (s.withBar bar) order ∧
          Sent (s.withBar bar) ((s.withBar bar).checkExitConditions leftover bar.close) [order]) ∨
        (¬ (s.withBar bar).exits bar.close ∧
          (s.withBar bar).checkExitConditions leftover bar.close = s.withBar bar) :=
      checkExitConditions_sent within bar.close
    rw [step]
    rcases checked with ⟨past, order, closes, sent⟩ | ⟨inside, kept⟩
    · -- with the position still open, the signals are not looked at
      have opened :
          ((s.withBar bar).checkExitConditions leftover bar.close).state.positionOpened = true :=
        sent.opened.trans past.1
      have quiet :
          ((s.withBar bar).checkExitConditions leftover bar.close).tradeOnSignal leftover bar now =
          (s.withBar bar).checkExitConditions leftover bar.close := by
        simp [tradeOnSignal, shouldBuy, shouldSell, opened]
      refine .inl ⟨past, order, ⟨closes.offset, closes.volume, closes.side⟩, ?_⟩
      dsimp only
      rw [quiet, ite_self]
      exact counted.trans sent
    · rw [kept]
      dsimp only
      split
      · rename_i timely
        rcases tradeOnSignal_sent bar now with ⟨wanted, order, opens, sent⟩ | ⟨unwanted, same⟩
        · exact .inr (.inl ⟨⟨timely, wanted⟩, order, ⟨opens.offset, opens.volume, opens.side⟩,
            counted.trans sent⟩)
        · rw [same]
          exact .inr (.inr ⟨inside, fun signals => unwanted signals.2, counted⟩)
      · rename_i early
        exact .inr (.inr ⟨inside, fun signals => early signals.1, counted⟩)
  | quote quote =>
    by_cases enabled : s.config.enableQuoteTrading = true
    · have same : s.onMarket leftover (.quote quote) =
        s.checkExitConditions leftover (MarketEvent.quote quote).price :=
        if_pos enabled
      rw [same]
      rcases checkExitConditions_sent bounded (MarketEvent.quote quote).price with ⟨past,
        sent⟩ | ⟨inside, kept⟩
      · exact .inl ⟨⟨enabled, past⟩, sent⟩
      · rw [kept]
        exact .inr (.inr ⟨fun exits => inside exits.2, id, .refl s⟩)
    · have same : s.onMarket leftover (.quote quote) = s := if_neg enabled
      rw [same]
      exact .inr (.inr ⟨fun exits => enabled exits.1, id, .refl s⟩)
  | order order =>
    exact .inr (.inr ⟨id, id, ⟨rfl, rfl, rfl, rfl, rfl, rfl, rfl, (List.append_nil _).symm⟩⟩)

end BTrader.ConsecutiveBarStrategy
