import BTrader.Lib.Drawdown
import BTrader.Strategy.ProfitTracking
import BTrader.Strategy.SentOrders

/-! The equity of the strategy along its trades, and the drawdown that stops it from opening
positions. -/
namespace BTrader.ConsecutiveBarStrategy
open Infra Drawdown

inductive StrategyEvent where
  | market (event : MarketEvent)
  | trade (trade : Trade)

section Runs
variable (leftover : UInt64 → Leftover)

def act (s : ConsecutiveBarStrategy) : StrategyEvent → ConsecutiveBarStrategy
  | .market event => s.onMarket leftover event
  | .trade trade => s.onTrade trade

/-- The strategy as it is started. -/
def started (cfg : Json) : ConsecutiveBarStrategy := (make.setup cfg).preStart

def equity (s : ConsecutiveBarStrategy) : ℚ := 100000 + s.totalPnl

/-- The equity at the start, and after each event. -/
def equities (cfg : Json) (events : List StrategyEvent) : List ℚ :=
  (Runs.states (act leftover) (started cfg) events).map equity

end Runs

/-- A buy or a sell of a positive volume at a positive price. -/
def Priced (trade : Trade) : Prop := trade.Proper ∧ 0 < trade.price

/-- The greatest drawdown is that of the equity, it has been divided by no peak of 0, and no
position is opened once the equity has fallen by more than the bound. -/
structure Gated (s : ConsecutiveBarStrategy) (events : List StrategyEvent)
    (equities : List ℚ) : Prop where
  starts : equities.head? = some 100000
  greatest : ∃ greatest : ℚ, s.maxDrawdown = greatest ∧ IsGreatest (declines equities) greatest
  divides : (∃ trade, .trade trade ∈ events) → s.peakEquity ≠ 0
  gate : ∀ decline ∈ declines equities, s.config.maxDrawdown < decline → s.shouldBuy = false ∧
    s.shouldSell = false

/-- The strategy has the peak of the equity, or has seen no trade yet. -/
structure Tracks (s : ConsecutiveBarStrategy) (events : List StrategyEvent)
    (equities : List ℚ) : Prop where
  bounded : s.config.Bounded
  entered : s.state.currentPosition ≠ 0 → 0 < s.state.entryPrice
  last : ∃ before, equities = before ++ [s.equity]
  peak : ∃ peak, Peak equities peak ∧ 100000 ≤ peak ∧ (s.peakEquity = peak ∨
    (¬ ∃ trade, .trade trade ∈ events) ∧ peak = 100000 ∧ s.peakEquity = 0 ∧ s.totalPnl = 0 ∧
      s.state.currentPosition = 0)
  greatest : ∃ greatest : ℚ, s.maxDrawdown = greatest ∧ IsGreatest (declines equities) greatest

variable {leftover : UInt64 → Leftover} {s : ConsecutiveBarStrategy} {events : List StrategyEvent}
    {values : List ℚ}
  {trade : Trade}

/-- Where a trade leaves an entry price, the equity is compared with its peak. -/
theorem onTrade_compared (entered : 0 < (s.onTrade trade).state.entryPrice) :
    (s.onTrade trade).peakEquity = max s.peakEquity (s.onTrade trade).equity ∧
      (s.onTrade trade).maxDrawdown =
        (drawdown (max s.peakEquity (s.onTrade trade).equity) (s.onTrade trade).equity).elim
          s.maxDrawdown
          (max s.maxDrawdown) := by
  have top {α : Type} [LinearOrder α] (x y : α) : (if x < y then y else x) = max x y := by
    split
    · rename_i below
      exact (max_eq_right below.le).symm
    · rename_i above
      exact (max_eq_left (not_lt.mp above)).symm
  have tracked (t : ConsecutiveBarStrategy) (entered : 0 < t.state.entryPrice) :
      (t.updatePnlTracking trade).peakEquity = max t.peakEquity (t.updatePnlTracking trade).equity ∧
      (t.updatePnlTracking trade).maxDrawdown =
        (drawdown (max t.peakEquity (t.updatePnlTracking trade).equity)
          (t.updatePnlTracking trade).equity).elim
          t.maxDrawdown (max t.maxDrawdown) := by
    simp only [updatePnlTracking, if_pos entered, equity, gt_iff_lt, top, true_and]
  rw [onTrade, (updatePnlTracking_same trade _).1] at entered
  exact tracked _ entered

/-- Where it leaves none, nothing is counted. -/
theorem onTrade_skipped (none : ¬ 0 < (s.onTrade trade).state.entryPrice) :
    (s.onTrade trade).totalPnl = s.totalPnl ∧ (s.onTrade trade).peakEquity = s.peakEquity ∧
      (s.onTrade trade).maxDrawdown = s.maxDrawdown := by
  rw [onTrade, (updatePnlTracking_same trade _).1] at none
  rw [onTrade, updatePnlTracking, if_neg none]
  exact ⟨rfl, rfl, rfl⟩

theorem onTrade_config (trade : Trade) (s : ConsecutiveBarStrategy) :
    (s.onTrade trade).config = s.config := by
  have tracked (t : ConsecutiveBarStrategy) : (t.updatePnlTracking trade).config = t.config := by
    unfold updatePnlTracking
    split <;> rfl
  exact tracked _

theorem signedVolume_abs (proper : trade.Proper) :
    |trade.signedVolume| = trade.volume ∧ trade.signedVolume ≠ 0 := by
  have plain : trade.Plain := ⟨proper.side, proper.positive.le⟩
  have positive : 0 < |trade.signedVolume| := plain.abs_signedVolume.symm ▸ proper.positive
  exact ⟨plain.abs_signedVolume, abs_pos.mp positive⟩

/-- A trade that leaves a position leaves an entry price, as one that starts it sets the price. -/
theorem onTrade_entered (entered : s.state.currentPosition ≠ 0 → 0 < s.state.entryPrice)
    (priced : Priced trade) (left : (s.onTrade trade).state.currentPosition ≠ 0) :
      0 < (s.onTrade trade).state.entryPrice := by
  rw [onTrade_position] at left
  rw [onTrade_entryPrice, if_pos left]
  split
  · exact priced.2
  · rename_i part
    refine entered fun flat => part ?_
    rw [flat, zero_add]
    exact (signedVolume_abs priced.1).1

/-- The first trade gains nothing. -/
theorem onTrade_first (priced : Priced trade) (none : s.totalPnl = 0)
    (flat : s.state.currentPosition = 0) :
    (s.onTrade trade).equity = 100000 := by
  obtain ⟨whole, some⟩ := signedVolume_abs priced.1
  have price : (s.onTrade trade).state.entryPrice = trade.price := by
    rw [onTrade_entryPrice, flat, zero_add, if_pos some, if_pos whole]
  rw [equity, onTrade_totalPnl priced.1.side, price, none, sub_self, zero_mul, ite_self,
    add_zero, add_zero]

/-- An event that brings no trade leaves the totals as they are. -/
theorem Tracks.again (tracks : Tracks s events values) {s' : ConsecutiveBarStrategy}
    {event : StrategyEvent} (config : s'.config = s.config) (totalPnl : s'.totalPnl = s.totalPnl)
    (peakEquity : s'.peakEquity = s.peakEquity) (maxDrawdown : s'.maxDrawdown = s.maxDrawdown)
    (entered : s'.state.currentPosition ≠ 0 → 0 < s'.state.entryPrice)
    (kept : (∀ trade, event ≠ .trade trade) ∧ s'.state.currentPosition = s.state.currentPosition ∨
      s.state.currentPosition ≠ 0) :
    Tracks s' (events ++ [event]) (values ++ [s'.equity]) := by
  have same : s'.equity = s.equity := congrArg (100000 + ·) totalPnl
  obtain ⟨before, rfl⟩ := tracks.last
  obtain ⟨peak, top, high, known⟩ := tracks.peak
  obtain ⟨again, declined⟩ := declines_again top
  rw [same]
  refine ⟨config ▸ tracks.bounded, entered, ⟨_, by rw [same]⟩, ⟨peak, again, high, ?_⟩, ?_⟩
  · rw [peakEquity, totalPnl]
    rcases known with known | ⟨none, low, unset, flat, position⟩
    · exact .inl known
    · rcases kept with ⟨other, stays⟩ | open_
      · refine .inr ⟨?_, low, unset, flat, stays.trans position⟩
        rintro ⟨trade, member⟩
        rcases List.mem_append.mp member with earlier | last
        · exact none ⟨trade, earlier⟩
        · exact other trade (List.mem_singleton.mp last).symm
      · exact absurd position open_
  · rw [declined, maxDrawdown]
    exact tracks.greatest

theorem Tracks.afterMarket (tracks : Tracks s events values) (event : MarketEvent) :
    Tracks (s.onMarket leftover event) (events ++ [.market event])
      (values ++ [(s.onMarket leftover event).equity]) := by
  have sent : ∃ orders, Sent s (s.onMarket leftover event) orders := by
    rcases onMarket_sent tracks.bounded event with ⟨-, order, -, sent⟩ | ⟨-, order, -,
      sent⟩ | ⟨-, -, sent⟩
    · exact ⟨_, sent⟩
    · exact ⟨_, sent⟩
    · exact ⟨_, sent⟩
  obtain ⟨orders, sent⟩ := sent
  refine tracks.again sent.config sent.totalPnl sent.peakEquity sent.maxDrawdown ?_
    (.inl ⟨fun _ => StrategyEvent.noConfusion, sent.position⟩)
  rw [sent.position, sent.entryPrice]
  exact tracks.entered

theorem Tracks.afterTrade (tracks : Tracks s events values) (priced : Priced trade) :
    Tracks (s.onTrade trade) (events ++ [.trade trade]) (values ++ [(s.onTrade trade).equity]) := by
  have config := onTrade_config trade s
  have entered := onTrade_entered tracks.entered priced
  have some : ∃ other, StrategyEvent.trade other ∈ events ++ [.trade trade] := ⟨trade, by simp⟩
  by_cases counted : 0 < (s.onTrade trade).state.entryPrice
  · obtain ⟨peak, top, high, known⟩ := tracks.peak
    obtain ⟨greatest, bound, greatestOf⟩ := tracks.greatest
    obtain ⟨newPeak, newDrawdown⟩ := onTrade_compared counted
    have topped :
        max s.peakEquity (s.onTrade trade).equity = max peak (s.onTrade trade).equity := by
      rcases known with known | ⟨-, low, unset, flat, position⟩
      · rw [known]
      · rw [onTrade_first priced flat position, low, unset]
        norm_num
    have positive : max peak (s.onTrade trade).equity ≠ 0 := by
      have least : 100000 ≤ max peak (s.onTrade trade).equity := high.trans (le_max_left _ _)
      linarith
    rw [topped] at newPeak newDrawdown
    rw [drawdown, if_pos positive] at newDrawdown
    refine ⟨config ▸ tracks.bounded, entered, ⟨values, rfl⟩,
      ⟨_, top.concat _, high.trans (le_max_left _ _), .inl newPeak⟩,
      ⟨max ((max peak (s.onTrade trade).equity - (s.onTrade trade).equity) /
        max peak (s.onTrade trade).equity) greatest, ?_, ?_⟩⟩
    · rw [newDrawdown, Option.elim_some, bound, max_comm]
      rfl
    · rw [declines_concat top]
      exact greatestOf.insert _
  · obtain ⟨totalPnl, peakEquity, maxDrawdown⟩ := onTrade_skipped counted
    refine tracks.again config totalPnl peakEquity maxDrawdown entered (.inr fun flat => ?_)
    have closed : (s.onTrade trade).state.currentPosition = 0 := by
      by_contra left
      exact counted (entered left)
    rw [onTrade_position, flat, zero_add] at closed
    exact (signedVolume_abs priced.1).2 closed

theorem started_tracks (cfg : Json) : Tracks (started cfg) [] [(started cfg).equity] where
  bounded := keeps_bounded cfg make make_bounded
  entered flat := absurd rfl flat
  last := ⟨[], rfl⟩
  peak := by
    have initial : (started cfg).equity = 100000 := add_zero _
    refine ⟨100000, ?_, le_refl _, .inr ⟨?_, rfl, rfl, rfl, rfl⟩⟩
    · rw [initial]
      exact peak_singleton _
    · rintro ⟨trade, none⟩
      exact List.not_mem_nil none
  greatest := by
    refine ⟨0, rfl, ?_⟩
    rw [declines_singleton, sub_self, zero_div]
    exact isGreatest_singleton

/-- What holds of the equities of a run. -/
theorem run_tracks (leftover : UInt64 → Leftover) (cfg : Json) (events : List StrategyEvent)
    (priced : ∀ trade, .trade trade ∈ events → Priced trade) :
    Tracks (events.foldl (act leftover) (started cfg)) events (equities leftover cfg events) := by
  induction events using List.reverseRecOn with
  | nil => exact started_tracks cfg
  | append_singleton events event ih =>
    have tracks := ih fun trade member => priced trade (List.mem_append_left _ member)
    rw [equities, Runs.states_concat, List.map_append, List.foldl_concat]
    cases event with
    | market event => exact tracks.afterMarket event
    | trade trade =>
      exact tracks.afterTrade (priced trade (List.mem_append_right _ (List.mem_singleton_self _)))

/-- In every run of trades at positive prices, whatever else happens between them, the greatest
drawdown is that of the equity, and stops the strategy from opening positions once it is above the
bound. -/
theorem run_gated (leftover : UInt64 → Leftover) (cfg : Json) (events : List StrategyEvent)
    (priced : ∀ trade, .trade trade ∈ events → Priced trade) :
    Gated (events.foldl (act leftover) (started cfg)) events (equities leftover cfg events) := by
  have tracks := run_tracks leftover cfg events priced
  refine ⟨?_, tracks.greatest, fun some => ?_, fun decline inside above => ?_⟩
  · have first : (started cfg).equity = 100000 := add_zero _
    cases events <;> simp [equities, Runs.states, first]
  · obtain ⟨peak, -, high, known | ⟨none, -⟩⟩ := tracks.peak
    · rw [known]
      linarith
    · exact absurd some none
  · obtain ⟨greatest, bound, -, upper⟩ := tracks.greatest
    have beyond : ¬ (events.foldl (act leftover) (started cfg)).maxDrawdown ≤
        ((events.foldl (act leftover) (started cfg)).config.maxDrawdown : WithTop ℚ) := by
      rw [bound, WithTop.coe_le_coe, not_le]
      exact above.trans_le (upper inside)
    simp [shouldBuy, shouldSell, beyond]

/-- 30000 bought at 10, 10000 of them sold at 12, and a bar. -/
def soldHigher : List StrategyEvent :=
  [.trade { boughtAtTen with volume := 30000 }, .trade { soldAt 12 with volume := 10000 },
    .market (.bar ⟨⟨"IF", "X", 1, 9⟩, 0, 9, 9, 9, 1⟩ 5000)]

/-- The sale is counted as a loss, of a fifth of the equity. -/
theorem soldHigher_gated :
    ((soldHigher.take 2).foldl (act fun _ => Trading.cleared) (started Trading.futures)).equity =
      80000 ∧
      Gated (soldHigher.foldl (act fun _ => Trading.cleared) (started Trading.futures)) soldHigher
        (equities (fun _ => Trading.cleared) Trading.futures soldHigher) := by
  refine ⟨by decide +kernel, run_gated _ _ _ fun trade member => ?_⟩
  have either : trade = { boughtAtTen with volume := 30000 } ∨
      trade = { soldAt 12 with volume := 10000 } := by
    simpa [soldHigher] using member
  rcases either with rfl | rfl
  · exact ⟨⟨.inl rfl, by norm_num⟩, by norm_num [boughtAtTen]⟩
  · exact ⟨⟨.inr rfl, by norm_num⟩, by norm_num [soldAt]⟩

end BTrader.ConsecutiveBarStrategy
