import BTrader.Strategy.ClosingOrders

/-! The profit that the strategy keeps count of, beside what its trades paid and brought in. -/
namespace BTrader

/-- A buy or a sell of a volume. -/
structure Trade.Plain (trade : Trade) : Prop where
  side : trade.side = .buy ∨ trade.side = .sell
  nonneg : 0 ≤ trade.volume

/-- The worth of the trades of a side. -/
def turnover (side : Side) (trades : List Trade) : ℚ :=
  ((trades.filter (·.side = side)).map fun trade => trade.price * trade.volume).sum

/-- What trades amount to. `cost` and `volume` are those of the trades that opened the position,
and `missed` has the gain of each trade that closes: twice where that leaves a part of a position
of positive cost. -/
structure Tally where
  position : ℚ
  cash : ℚ
  cost : ℚ
  volume : ℚ
  missed : ℚ

namespace Tally

def empty : Tally := ⟨0, 0, 0, 0, 0⟩

/-- The average price of the trades that opened the position, weighted by volume. -/
def average (tally : Tally) : ℚ := tally.cost / tally.volume

/-- What a trade that closes brings in above the average cost. -/
def gain (tally : Tally) (trade : Trade) : ℚ := (tally.average - trade.price) * trade.signedVolume

def add (tally : Tally) (trade : Trade) : Tally :=
  let position := tally.position + trade.signedVolume
  let cash := tally.cash - trade.price * trade.signedVolume
  if position = 0 then ⟨position, cash, 0, 0, tally.missed + tally.gain trade⟩
  else if |tally.position| < |position| then
    ⟨position, cash, tally.cost + trade.price * trade.volume,
      tally.volume + trade.volume, tally.missed⟩
  else
    ⟨position, cash, tally.cost, tally.volume,
      tally.missed + (if 0 < tally.average then 2 else 1) * tally.gain trade⟩

/-- A trade that adds to a position, or closes just half of it, has its average price. -/
def Fits (tally : Tally) (trade : Trade) : Prop :=
  tally.position ≠ 0 → tally.position + trade.signedVolume ≠ 0 →
    |tally.position| < |tally.position + trade.signedVolume| ∨
      |tally.position + trade.signedVolume| = trade.volume →
    trade.price = tally.average

section Add
variable {tally : Tally} {trade : Trade}

theorem add_closed (closed : tally.position + trade.signedVolume = 0) : tally.add trade =
    ⟨0, tally.cash - trade.price * trade.signedVolume, 0, 0, tally.missed + tally.gain trade⟩ := by
  simp only [add, closed, if_true]

theorem add_opened (left : tally.position + trade.signedVolume ≠ 0)
    (more : |tally.position| < |tally.position + trade.signedVolume|) : tally.add trade =
    ⟨tally.position + trade.signedVolume, tally.cash - trade.price * trade.signedVolume,
      tally.cost + trade.price * trade.volume, tally.volume + trade.volume, tally.missed⟩ := by
  simp only [add, left, more, if_true, if_false]

theorem add_reduced (left : tally.position + trade.signedVolume ≠ 0)
    (less : ¬ |tally.position| < |tally.position + trade.signedVolume|) : tally.add trade =
    ⟨tally.position + trade.signedVolume, tally.cash - trade.price * trade.signedVolume,
      tally.cost, tally.volume,
      tally.missed + (if 0 < tally.average then 2 else 1) * tally.gain trade⟩ := by
  simp only [add, left, less, if_false]

theorem add_position (tally : Tally) (trade : Trade) :
    (tally.add trade).position = tally.position + trade.signedVolume := by
  unfold add
  dsimp only
  split
  · rfl
  · split <;> rfl

theorem add_cash (tally : Tally) (trade : Trade) :
    (tally.add trade).cash = tally.cash - trade.price * trade.signedVolume := by
  unfold add
  dsimp only
  split
  · rfl
  · split <;> rfl

end Add

end Tally

namespace ConsecutiveBarStrategy
variable {s : ConsecutiveBarStrategy} {tally : Tally} {trade : Trade}

theorem onTrade_entryPrice (trade : Trade) (s : ConsecutiveBarStrategy) :
    (s.onTrade trade).state.entryPrice =
    if s.state.currentPosition + trade.signedVolume ≠ 0 then
      if |s.state.currentPosition + trade.signedVolume| = trade.volume then trade.price
      else s.state.entryPrice
    else 0 := by
  rw [onTrade, (updatePnlTracking_same trade _).1, ← positionAfter_eq]
  dsimp only
  split <;> rfl

/-- The profits of a buy and of a sell are of one form. -/
theorem onTrade_totalPnl (side : trade.side = .buy ∨ trade.side = .sell)
    (s : ConsecutiveBarStrategy) :
    (s.onTrade trade).totalPnl = s.totalPnl +
      if 0 < (s.onTrade trade).state.entryPrice then
        (trade.price - (s.onTrade trade).state.entryPrice) * trade.signedVolume
      else 0 := by
  have tracked (t : ConsecutiveBarStrategy) : (t.updatePnlTracking trade).totalPnl = t.totalPnl +
      if 0 < t.state.entryPrice then (trade.price - t.state.entryPrice) * trade.signedVolume
      else 0 := by
    unfold updatePnlTracking
    by_cases positive : 0 < t.state.entryPrice
    · rw [if_pos positive, if_pos positive]
      rcases side with buy | sell
      · simp [buy, Trade.signedVolume]
      · simp only [sell, Trade.signedVolume, reduceCtorEq, if_false]
        ring
    · rw [if_neg positive, if_neg positive, add_zero]
  rw [onTrade, tracked, (updatePnlTracking_same trade _).1]

end ConsecutiveBarStrategy

section Steps
variable {s : ConsecutiveBarStrategy} {tally : Tally} {trade : Trade}

theorem Trade.Plain.abs_signedVolume (plain : trade.Plain) :
    |trade.signedVolume| = trade.volume := by
  rcases plain.side with buy | sell
  · simp [Trade.signedVolume, buy, abs_of_nonneg plain.nonneg]
  · simp [Trade.signedVolume, sell, abs_of_nonneg plain.nonneg]

/-- With the position, a volume adds to it. -/
theorem abs_add_with {p q : ℚ} (along : 0 ≤ p * q) : |p + q| = |p| + |q| :=
  abs_add_eq_add_abs_iff p q |>.mpr (mul_nonneg_iff.mp along)

/-- Against it, a volume that is no greater takes from it. -/
theorem abs_add_against {p q : ℚ} (against : p * q < 0) (covered : |q| ≤ |p|) :
    |p + q| = |p| - |q| := by
  rcases mul_neg_iff.mp against with ⟨long, sold⟩ | ⟨short, bought⟩
  · rw [abs_of_pos long, abs_of_neg sold] at covered ⊢
    rw [abs_of_nonneg (by linarith)]
    ring
  · rw [abs_of_neg short, abs_of_pos bought] at covered ⊢
    rw [abs_of_nonpos (by linarith)]
    ring

/-- A trade that does not turn the position makes it greater or smaller by its volume. -/
theorem Trade.Plain.abs_add (plain : trade.Plain) {position : ℚ}
    (uncrossed : 0 ≤ position * (position + trade.signedVolume)) :
    |position + trade.signedVolume| = |position| + trade.volume ∨
      |position + trade.signedVolume| = |position| - trade.volume := by
  rw [← plain.abs_signedVolume]
  rcases lt_or_ge (position * trade.signedVolume) 0 with less | more
  · have squares : |trade.signedVolume| * |position| ≤ |position| * |position| := by
      rw [abs_mul_abs_self, ← abs_mul, mul_comm, abs_of_neg less]
      linarith
    have covered := le_of_mul_le_mul_right squares (abs_pos.mpr (left_ne_zero_of_mul less.ne))
    exact .inr (abs_add_against less covered)
  · exact .inl (abs_add_with more)

theorem Trade.Plain.grown (plain : trade.Plain) {position : ℚ}
    (uncrossed : 0 ≤ position * (position + trade.signedVolume))
    (more : |position| < |position + trade.signedVolume|) :
    |position + trade.signedVolume| = |position| + trade.volume ∧ 0 < trade.volume := by
  have nonneg := plain.nonneg
  have grown : |position + trade.signedVolume| = |position| + trade.volume := by
    rcases plain.abs_add uncrossed with same | same
    · exact same
    · linarith
  exact ⟨grown, by linarith⟩

/-- The tally has the strategy's position, and a volume that opened it. -/
structure Tally.Follows (tally : Tally) (s : ConsecutiveBarStrategy) : Prop where
  position : tally.position = s.state.currentPosition
  opened : tally.position ≠ 0 → 0 < tally.volume
  flat : tally.position = 0 → tally.cost = 0 ∧ tally.volume = 0

/-- While a position is open, the entry price is the average of what opened it. -/
def Tally.Averaged (tally : Tally) (s : ConsecutiveBarStrategy) : Prop :=
  s.state.currentPosition ≠ 0 → s.state.entryPrice = tally.average

theorem Tally.Follows.add (follows : tally.Follows s) (plain : trade.Plain)
    (uncrossed : 0 ≤ tally.position * (tally.position + trade.signedVolume)) :
    (tally.add trade).Follows (s.onTrade trade) := by
  have position : (tally.add trade).position = (s.onTrade trade).state.currentPosition := by
    rw [Tally.add_position, ConsecutiveBarStrategy.onTrade_position, follows.position]
  by_cases closed : tally.position + trade.signedVolume = 0
  · refine ⟨position, fun left => ?_, fun _ => ?_⟩
    · rw [Tally.add_position] at left
      contradiction
    · rw [Tally.add_closed closed]
      exact ⟨rfl, rfl⟩
  · refine ⟨position, fun _ => ?_, fun flat => ?_⟩
    · by_cases more : |tally.position| < |tally.position + trade.signedVolume|
      · have held : 0 ≤ tally.volume := by
          rcases eq_or_ne tally.position 0 with flat | left
          · exact (follows.flat flat).2.ge
          · exact (follows.opened left).le
        rw [Tally.add_opened closed more]
        exact add_pos_of_nonneg_of_pos held (plain.grown uncrossed more).2
      · have left : tally.position ≠ 0 := by
          intro flat
          rw [flat, abs_zero, zero_add] at more
          rw [flat, zero_add] at closed
          exact more (abs_pos.mpr closed)
        rw [Tally.add_reduced closed more]
        exact follows.opened left
    · rw [Tally.add_position] at flat
      contradiction

/-- The average of a position stays the same where the price is the average. -/
theorem average_stays_iff {cost volume price added : ℚ} (held : 0 < volume) (more : 0 < added) :
    cost / volume = (cost + price * added) / (volume + added) ↔ price = cost / volume := by
  have both : 0 < volume + added := add_pos held more
  rw [div_eq_div_iff held.ne' both.ne', eq_div_iff held.ne']
  constructor
  · intro same
    have scaled : added * (price * volume) = added * cost := by linear_combination -same
    exact mul_left_cancel₀ more.ne' scaled
  · intro same
    linear_combination (-added) * same

/-- The trade that opens a position has the average price. -/
theorem Tally.Follows.average_first (follows : tally.Follows s) (plain : trade.Plain)
    (flat : tally.position = 0) (left : tally.position + trade.signedVolume ≠ 0) :
    (tally.add trade).average = trade.price := by
  have opens : |tally.position| < |tally.position + trade.signedVolume| := by
    rw [abs_eq_zero.mpr flat]
    exact abs_pos.mpr left
  have positive : 0 < trade.volume := by
    rw [← plain.abs_signedVolume]
    rw [flat, zero_add] at left
    exact abs_pos.mpr left
  rw [Tally.add_opened left opens, Tally.average, (follows.flat flat).1, (follows.flat flat).2,
    zero_add, zero_add, mul_div_cancel_right₀ _ positive.ne']

/-- An entry price that is the average stays so just when the trade fits. -/
theorem Tally.averaged_iff (follows : tally.Follows s) (plain : trade.Plain)
    (uncrossed : 0 ≤ tally.position * (tally.position + trade.signedVolume))
    (averaged : tally.Averaged s) :
    (tally.add trade).Averaged (s.onTrade trade) ↔ tally.Fits trade := by
  have entry := ConsecutiveBarStrategy.onTrade_entryPrice trade s
  unfold Averaged Fits
  rw [ConsecutiveBarStrategy.onTrade_position, entry, ← follows.position]
  by_cases closed : tally.position + trade.signedVolume = 0
  · exact iff_of_true (fun left => absurd closed left) fun _ left => absurd closed left
  rw [if_pos closed]
  by_cases flat : tally.position = 0
  · have whole : |tally.position + trade.signedVolume| = trade.volume := by
      rw [flat, zero_add, plain.abs_signedVolume]
    rw [if_pos whole, follows.average_first plain flat closed]
    exact iff_of_true (fun _ => rfl) fun left => absurd flat left
  · have entered : s.state.entryPrice = tally.average := averaged (follows.position ▸ flat)
    have held : 0 < |tally.position| := abs_pos.mpr flat
    simp only [ne_eq, closed, flat, not_false_eq_true, forall_true_left]
    by_cases more : |tally.position| < |tally.position + trade.signedVolume|
    · obtain ⟨grown, added⟩ := plain.grown uncrossed more
      have part : |tally.position + trade.signedVolume| ≠ trade.volume := by linarith
      rw [if_neg part, entered, Tally.add_opened closed more]
      simp only [more, true_or, forall_true_left]
      exact average_stays_iff (follows.opened flat) added
    · rw [Tally.add_reduced closed more]
      simp only [more, false_or]
      split
      · rename_i half
        rw [forall_prop_of_true half]
        rfl
      · rename_i part
        exact iff_of_true entered fun half => absurd half part

/-- The profit counted is the cash with the position at its cost, less the gains that it missed. -/
def Tally.Balances (tally : Tally) (start : ℚ) (s : ConsecutiveBarStrategy) : Prop :=
  s.totalPnl = start + tally.cash + tally.average * tally.position - tally.missed

theorem Tally.Balances.add {start : ℚ} (balances : tally.Balances start s)
    (follows : tally.Follows s)
    (plain : trade.Plain) (uncrossed : 0 ≤ tally.position * (tally.position + trade.signedVolume))
    (fits : tally.Fits trade) (averaged : (tally.add trade).Averaged (s.onTrade trade)) :
    (tally.add trade).Balances start (s.onTrade trade) := by
  have tracked := ConsecutiveBarStrategy.onTrade_totalPnl plain.side s
  have position :
      (s.onTrade trade).state.currentPosition = tally.position + trade.signedVolume := by
    rw [ConsecutiveBarStrategy.onTrade_position, follows.position]
  unfold Balances at balances ⊢
  unfold Averaged at averaged
  rw [position] at averaged
  by_cases closed : tally.position + trade.signedVolume = 0
  · have none : (s.onTrade trade).state.entryPrice = 0 := by
      rw [ConsecutiveBarStrategy.onTrade_entryPrice, ← follows.position,
        if_neg (not_not.mpr closed)]
    rw [none, if_neg (lt_irrefl 0), add_zero] at tracked
    have volume : trade.signedVolume = -tally.position := eq_neg_of_add_eq_zero_right closed
    rw [tracked, balances, Tally.add_closed closed]
    simp only [gain, volume]
    ring
  · rw [averaged closed] at tracked
    rw [tracked, balances]
    by_cases flat : tally.position = 0
    · have first := follows.average_first plain flat closed
      have opens : |tally.position| < |tally.position + trade.signedVolume| := by
        rw [abs_eq_zero.mpr flat]
        exact abs_pos.mpr closed
      rw [first, sub_self, zero_mul, ite_self, Tally.add_opened closed opens, flat]
      dsimp only
      ring
    · by_cases more : |tally.position| < |tally.position + trade.signedVolume|
      · have fit : trade.price = tally.average := fits flat closed (Or.inl more)
        have added := (plain.grown uncrossed more).2
        have same : tally.average = (tally.add trade).average := by
          rw [Tally.add_opened closed more]
          exact (average_stays_iff (follows.opened flat) added).mpr fit
        rw [← same, fit, sub_self, zero_mul, ite_self, Tally.add_opened closed more]
        dsimp only
        rw [fit]
        ring
      · have same : (tally.add trade).average = tally.average := by
          rw [Tally.add_reduced closed more]
          rfl
        rw [same, Tally.add_reduced closed more]
        dsimp only [gain]
        by_cases positive : 0 < tally.average
        · rw [if_pos positive, if_pos positive]
          ring
        · rw [if_neg positive, if_neg positive]
          ring

end Steps

section Runs
variable {trades : List Trade}

/-- Buys and sells that lead from a flat position to a flat one, and turn none on the way. -/
structure RoundTrips (trades : List Trade) : Prop where
  plain : ∀ trade ∈ trades, trade.Plain
  uncrossed : ∀ move ∈ Runs.moves Tally.add .empty trades,
    0 ≤ move.1.position * (move.1.position + move.2.signedVolume)
  closed : (trades.foldl Tally.add .empty).position = 0

/-- The strategy gets a trade, and the tally too. -/
def trackBoth (state : ConsecutiveBarStrategy × Tally) (trade : Trade) :
    ConsecutiveBarStrategy × Tally :=
  (state.1.onTrade trade, state.2.add trade)

theorem trackBoth_snd (state : ConsecutiveBarStrategy × Tally) (trade : Trade) :
    (trackBoth state trade).2 = state.2.add trade := rfl

theorem turnover_concat (side : Side) (trades : List Trade) (trade : Trade) :
    turnover side (trades ++ [trade]) =
    turnover side trades + if trade.side = side then trade.price * trade.volume else 0 := by
  unfold turnover
  rw [List.filter_append, List.map_append, List.sum_append]
  by_cases same : trade.side = side <;> simp [same]

/-- The cash is what the sells brought in less what the buys cost. -/
theorem foldl_cash (plain : ∀ trade ∈ trades, trade.Plain) :
    (trades.foldl Tally.add .empty).cash = turnover .sell trades - turnover .buy trades := by
  induction trades using List.reverseRecOn with
  | nil => simp [Tally.empty, turnover]
  | append_singleton trades trade ih =>
    rw [List.foldl_concat, Tally.add_cash, ih fun other member =>
      plain other (List.mem_append_left _ member), turnover_concat, turnover_concat]
    rcases (plain trade (by simp)).side with buy | sell
    · simp [buy, Trade.signedVolume]
      ring
    · simp [sell, Trade.signedVolume]
      ring

theorem foldl_trackBoth (s : ConsecutiveBarStrategy) (tally : Tally) (trades : List Trade) :
    trades.foldl trackBoth (s, tally) =
      (trades.foldl (fun s trade => s.onTrade trade) s, trades.foldl Tally.add tally) := by
  induction trades generalizing s tally with
  | nil => rfl
  | cons trade trades ih => exact ih _ _

/-- A trade that is plain, and does not turn the position. -/
def Allowed (state : ConsecutiveBarStrategy × Tally) (trade : Trade) : Prop :=
  trade.Plain ∧ 0 ≤ state.2.position * (state.2.position + trade.signedVolume)

theorem trackBoth_follows (state : ConsecutiveBarStrategy × Tally) (trade : Trade)
    (follows : state.2.Follows state.1)
    (allowed : Allowed state trade) : (trackBoth state trade).2.Follows (trackBoth state trade).1 :=
  follows.add allowed.1 allowed.2

theorem trackBoth_averaged (state : ConsecutiveBarStrategy × Tally) (trade : Trade)
    (follows : state.2.Follows state.1)
    (allowed : Allowed state trade) (averaged : state.2.Averaged state.1) :
    (trackBoth state trade).2.Averaged (trackBoth state trade).1 ↔ state.2.Fits trade :=
  Tally.averaged_iff follows allowed.1 allowed.2 averaged

/-- What is known of a run whose trades fit. -/
structure Booked (start : ℚ) (state : ConsecutiveBarStrategy × Tally) : Prop where
  follows : state.2.Follows state.1
  averaged : state.2.Averaged state.1
  balances : state.2.Balances start state.1

theorem trackBoth_booked {start : ℚ} (state : ConsecutiveBarStrategy × Tally) (trade : Trade)
    (booked : Booked start state)
    (able : Allowed state trade ∧ state.2.Fits trade) : Booked start (trackBoth state trade) := by
  have averaged := (trackBoth_averaged state trade booked.follows able.1 booked.averaged).mpr able.2
  exact ⟨trackBoth_follows state trade booked.follows able.1, averaged,
    booked.balances.add booked.follows able.1.1 able.1.2 able.2 averaged⟩

/-- The profit counted is the cash, and the entry price the average, just when each trade that
adds to a position or halves it has its average price, and the gains that are missed cancel out.
-/
theorem profit_iff {s : ConsecutiveBarStrategy} (flat : s.state.currentPosition = 0)
    (round : RoundTrips trades) :
    ((trades.foldl (fun s trade => s.onTrade trade) s).totalPnl =
        s.totalPnl + (turnover .sell trades - turnover .buy trades) ∧
      ∀ state ∈ Runs.states trackBoth (s, .empty) trades, state.2.Averaged state.1) ↔
    (∀ move ∈ Runs.moves Tally.add .empty trades, move.1.Fits move.2) ∧
      (trades.foldl Tally.add .empty).missed = 0 := by
  have seen := Runs.moves_map trackBoth_snd (s, .empty) trades
  have follows : Tally.empty.Follows s :=
    ⟨flat.symm, fun left => absurd rfl left, fun _ => ⟨rfl, rfl⟩⟩
  have averaged : Tally.empty.Averaged s := fun left => absurd flat left
  have allowed : ∀ move ∈ Runs.moves trackBoth (s, .empty) trades, Allowed move.1 move.2 := by
    intro move member
    refine ⟨round.plain _ (Runs.moves_actions _ _ move member),
      round.uncrossed (move.1.2, move.2) ?_⟩
    rw [seen]
    exact List.mem_map_of_mem member
  have entries : (∀ state ∈ Runs.states trackBoth (s, .empty) trades, state.2.Averaged state.1) ↔
      ∀ move ∈ Runs.moves Tally.add .empty trades, move.1.Fits move.2 := by
    rw [seen, List.forall_mem_map]
    exact Runs.states_iff trackBoth_follows trackBoth_averaged follows averaged trades allowed
  rw [and_comm, entries]
  refine and_congr_right fun fits => ?_
  -- with a position that is flat at the end, the cost of the position is none
  have fitting : ∀ move ∈ Runs.moves trackBoth (s, .empty) trades, Allowed move.1 move.2 ∧
      move.1.2.Fits move.2 := by
    intro move member
    refine ⟨allowed move member, fits (move.1.2, move.2) ?_⟩
    rw [seen]
    exact List.mem_map_of_mem member
  have started : Booked s.totalPnl (s, .empty) :=
    ⟨follows, averaged, by simp [Tally.Balances, Tally.empty]⟩
  have ended :=
    (Runs.invariant trackBoth_booked started trades fitting _ (Runs.last_mem _ _)).balances
  rw [foldl_trackBoth] at ended
  unfold Tally.Balances at ended
  dsimp only at ended
  rw [round.closed, foldl_cash round.plain, mul_zero, add_zero] at ended
  rw [ended]
  constructor
  · intro same
    linarith
  · intro none
    linarith

/-- One bought at 10. -/
def boughtAtTen : Trade where
  tradeId := 0
  orderId := 1
  externalOrderId := ""
  externalTradeId := ""
  tradeTime := 1
  tradingDay := ""
  instrumentId := "IF"
  exchangeId := "X"
  instrumentType := .stock
  side := .buy
  offset := .open_
  hedgeFlag := .speculation
  price := 10
  volume := 1
  tax := 0
  commission := 0

/-- The one is sold again. -/
def soldAt (price : ℚ) : Trade :=
  { boughtAtTen with tradeId := 1, orderId := 2, side := .sell, offset := .close, price := price }

theorem soldAt_roundTrips (price : ℚ) : RoundTrips [boughtAtTen, soldAt price] where
  plain := by
    have bought : boughtAtTen.Plain := ⟨.inl rfl, zero_le_one⟩
    have sold : (soldAt price).Plain := ⟨.inr rfl, zero_le_one⟩
    simp [bought, sold]
  uncrossed := by
    simp [Runs.moves, Tally.add, Tally.empty, Trade.signedVolume, boughtAtTen, soldAt]
  closed := by
    simp [Tally.add, Tally.empty, Trade.signedVolume, boughtAtTen, soldAt]

/-- Bought at 10 and sold at 12 makes 2, and counts as nothing. -/
theorem gain_missed :
    ¬ ∀ (s : ConsecutiveBarStrategy) (trades : List Trade), s.state.currentPosition = 0 →
    RoundTrips trades →
    (trades.foldl (fun s trade => s.onTrade trade) s).totalPnl =
        s.totalPnl + (turnover .sell trades - turnover .buy trades) ∧
      ∀ state ∈ Runs.states trackBoth (s, .empty) trades, state.2.Averaged state.1 := by
  intro right
  have counted := (right .make [boughtAtTen, soldAt 12] rfl (soldAt_roundTrips 12)).1
  have nothing :
      ([boughtAtTen, soldAt 12].foldl
        (fun s trade => s.onTrade trade) ConsecutiveBarStrategy.make).totalPnl = 0 := by
    decide +kernel
  have made : turnover .sell [boughtAtTen, soldAt 12] - turnover .buy [boughtAtTen, soldAt 12] =
      2 := by decide +kernel
  rw [nothing, made] at counted
  exact absurd counted (by decide +kernel)

/-- What is sold at the price it was bought for makes no gain to miss. -/
theorem nothing_gained :
    ([boughtAtTen, soldAt 10].foldl
      (fun s trade => s.onTrade trade) ConsecutiveBarStrategy.make).totalPnl =
      ConsecutiveBarStrategy.make.totalPnl +
        (turnover .sell [boughtAtTen, soldAt 10] - turnover .buy [boughtAtTen, soldAt 10]) ∧
    ∀ state ∈ Runs.states trackBoth (ConsecutiveBarStrategy.make, .empty) [boughtAtTen, soldAt 10],
      state.2.Averaged state.1 := by
  have fits :
      ∀ move ∈ Runs.moves Tally.add .empty [boughtAtTen, soldAt 10], move.1.Fits move.2 := by
    simp [Runs.moves, Tally.Fits, Tally.add, Tally.empty, Trade.signedVolume, boughtAtTen, soldAt]
  have missed : ([boughtAtTen, soldAt 10].foldl Tally.add .empty).missed = 0 := by decide +kernel
  exact (profit_iff rfl (soldAt_roundTrips 10)).mpr ⟨fits, missed⟩

end Runs
end BTrader
