import BTrader.Broker.Cash

/-! A limit order is traded at its limit or better. -/
namespace BTrader
namespace BrokerSim

variable {b : BrokerSim} {order : Order}

/-- The levels taken are worth their volume at the limit or better: `sign` is 1 for a buy
and -1 for a sell. -/
theorem cost_limit (sign : ℚ) (levels : List (ℚ × ℚ)) (positive : ∀ level ∈ levels, 0 < level.2)
    (executes :
      ∀ price, canExecuteOrder order price = true → sign * price ≤ sign * order.limitPrice)
        (remaining : ℚ) :
    sign * b.cost order levels remaining ≤ sign * order.limitPrice *
      b.given order levels remaining := by
  induction levels generalizing remaining with
  | nil => simp [cost, given]
  | cons level levels ih =>
    obtain ⟨price, volume⟩ := level
    have rest := ih fun level member => positive level (List.mem_cons_of_mem _ member)
    have offered : 0 < volume := positive _ List.mem_cons_self
    rw [cost, given]
    split
    · simp
    · rename_i able
      rw [not_or, not_le, Bool.not_eq_false] at able
      split
      · have taken : 0 ≤ min remaining volume := (lt_min able.1 offered).le
        have here := mul_le_mul_of_nonneg_right (executes _ able.2) taken
        have later := rest (remaining - min remaining volume)
        linarith only [here, later]
      · exact rest remaining

theorem fillPrice_limit {reading : Reading} {volume : ℚ} (sign : ℚ)
    (limit : order.priceType = .limit)
    (executes :
      ∀ price, canExecuteOrder order price = true → sign * price ≤ sign * order.limitPrice)
    (fill : b.fillVolume order reading = some volume) :
    sign * b.fillPrice order reading ≤ sign * order.limitPrice := by
  unfold fillVolume at fill
  unfold fillPrice
  split at fill
  · rename_i noDepth
    rw [if_pos noDepth, executionPrice, if_pos limit]
  · rename_i depth
    simp only [Option.ite_none_right_eq_some, Option.some.injEq] at fill
    rw [if_neg depth, ← mul_div_assoc, div_le_iff₀ fill.1]
    exact cost_limit sign _ (buildPriceLevels_positive _ _) executes _

/-- The trade is at the limit of the order or better, and not of more than is left. -/
structure Protected (order : Order) (trade : Trade) : Prop where
  buy : order.side = .buy → trade.price ≤ order.limitPrice
  sell : order.side = .sell → order.limitPrice ≤ trade.price
  volume : 0 < trade.volume ∧ trade.volume ≤ order.volumeLeft

theorem tradeOf_protected {reading : Reading} {volume : ℚ} (limit : order.priceType = .limit)
    (wanted : 0 < order.volumeLeft) (fill : b.fillVolume order reading = some volume) :
    Protected order (b.tradeOf order volume reading) := by
  refine ⟨fun buy => ?_, fun sell => ?_, fillVolume_bounds wanted fill⟩
  · have executes (price : ℚ) (able : canExecuteOrder order price = true) :
      1 * price ≤ 1 * order.limitPrice := by
      simpa [canExecuteOrder, limit, buy] using able
    have bound := fillPrice_limit 1 limit executes fill
    rwa [one_mul, one_mul] at bound
  · have executes (price : ℚ) (able : canExecuteOrder order price = true) :
      -1 * price ≤ -1 * order.limitPrice := by
      simpa [canExecuteOrder, limit, sell] using able
    have bound := fillPrice_limit (-1) limit executes fill
    change order.limitPrice ≤ b.fillPrice order reading
    linarith only [bound]

end BrokerSim

namespace Session
open BrokerSim

/-- Every trade of every run is of an active order that was entered by an accepted input, and
protected by its limit where that is a limit order of a positive volume. -/
theorem limit_protected (cfg : SimulationCfg) (now : Int64) (events : List Event) :
    ∀ move ∈ moves ⟨(make now).setup cfg, []⟩ events,
      (move.1.act move.2).broker.trades = move.1.broker.trades ∨
        ∃ (order : Order) (trade : Trade) (input : OrderInput),
          (move.1.act move.2).broker.trades = move.1.broker.trades ++ [trade] ∧
            move.1.broker.activeOrders[trade.orderId]? = some order ∧ input ∈ move.1.accepted ∧
            input.orderId = trade.orderId ∧ EnteredBy order input ∧
            (input.priceType = .limit → 0 < input.volume → Protected order trade) := by
  intro move member
  have kept (s : Session) (action : Action) (entered : s.Entered) (_ : True) :
      (s.act action).Entered :=
    act_entered entered action
  have started : Entered ⟨(make now).setup cfg, []⟩ := entered_start rfl
  have inside := (Runs.moves_states _ _ move member).1
  have entered := Runs.invariant kept started _ (fun _ _ => trivial) _ inside
  cases made : move.1.broker.made move.2 with
  | none => exact .inl (act_unmade entered.traced made).2.1
  | some filled =>
    obtain ⟨order, trade⟩ := filled
    obtain ⟨readings, key, turn, _⟩ := act_made made
    rw [turn] at made
    obtain ⟨volume, entry, _, fill, told⟩ := made_turn made
    obtain ⟨input, known, named, same, some⟩ := entered key order entry
    have own : trade.orderId = key := by
      rw [told]
      exact entered.traced.keyed key order entry
    refine .inr ⟨order, trade, input, ?_, own ▸ entry, known, named.trans own.symm, same,
      fun limit positive => ?_⟩
    · rw [turn]
      exact (act_asset made).1
    · obtain ⟨_, _, _, _, rfl⟩ := same
      rw [told]
      exact tradeOf_protected limit (some positive) fill

/-- A buy of 150 at 11 or better. -/
def limitBuy : OrderInput :=
  { marketOrder 7 .buy .open_ 150 with priceType := .limit, limitPrice := 11 }

/-- 100 are offered at 10, 20 at 11 and 20 at 12. -/
def threeLevels : Reading :=
  { Reading.noDepth with
    depth :=
      ⟨3, fun _ => 0, fun i => if i.val = 0 then 10 else if i.val = 1 then 11 else 12, fun _ => 0,
        fun i => if i.val = 0 then 100 else 20⟩ }

def noSlippage : SimulationCfg := ⟨none, none, some false, none, some 2000⟩

def buyLimited : List Event := [.insert limitBuy, .round fun _ => threeLevels]

/-- Two levels are taken, at 10 and at 11. -/
theorem limit_protected_buy :
    ((buyLimited.foldl handle ((make 0).setup noSlippage)).trades.map fun trade =>
      (trade.price, trade.volume)) =
      [(61 / 6, 120)] ∧
    ∀ move ∈ moves ⟨(make 0).setup noSlippage, []⟩ buyLimited,
      (move.1.act move.2).broker.trades = move.1.broker.trades ∨
        ∃ (order : Order) (trade : Trade) (input : OrderInput),
          (move.1.act move.2).broker.trades = move.1.broker.trades ++ [trade] ∧
            move.1.broker.activeOrders[trade.orderId]? = some order ∧ input ∈ move.1.accepted ∧
            input.orderId = trade.orderId ∧ EnteredBy order input ∧
            (input.priceType = .limit → 0 < input.volume → Protected order trade) :=
  ⟨by decide +kernel, limit_protected noSlippage 0 buyLimited⟩

end Session
end BTrader
