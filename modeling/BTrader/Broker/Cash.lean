import BTrader.Broker.Fills
import BTrader.Broker.BookAgreement

/-! The cash of the broker along a run: where it goes, and when it is short. -/
namespace BTrader

namespace Trade

def worth (trade : Trade) : ℚ := trade.price * trade.volume

end Trade

namespace BrokerSim

/-- What was paid for the trades of one side. -/
def dealt (side : Side) (trades : List Trade) : ℚ :=
  ((trades.filter fun trade => trade.side = side).map Trade.worth).sum

def commissions (trades : List Trade) : ℚ := (trades.map Trade.commission).sum

/-- The commission on what a trade is worth. -/
def feeRate (b : BrokerSim) : ℚ := if b.enableCommission then b.commissionRate else 0

theorem tradeOf_commission (b : BrokerSim) (order : Order) (volume : ℚ) (reading : Reading) :
    (b.tradeOf order volume reading).commission = (b.tradeOf order volume reading).worth *
      b.feeRate := by
  simp only [tradeOf, generateSummaryTrade, Trade.worth, feeRate]
  split
  · rfl
  · exact (mul_zero _).symm

theorem rest_same {b b' : BrokerSim} (same : b'.rest = b.rest) :
    b'.asset = b.asset ∧ b'.trades = b.trades ∧ b'.feeRate = b.feeRate := by
  have asset := congrArg BrokerSim.asset same
  have trades := congrArg BrokerSim.trades same
  have feeRate := congrArg BrokerSim.feeRate same
  exact ⟨asset, trades, feeRate⟩

theorem book_asset {b : BrokerSim} {trade : Trade} (reading : Reading)
    (commission : trade.commission = trade.worth * b.feeRate) :
    (b.book trade reading).asset.avail =
        (if trade.side = .buy then b.asset.avail - trade.worth else b.asset.avail + trade.worth) -
          trade.commission ∧
      (b.book trade reading).asset.accumulatedFee = b.asset.accumulatedFee + trade.commission := by
  simp only [book, notifyResponse, updateAsset, updatePosition, Trade.worth]
  by_cases charged : b.enableCommission
  · simp [charged]
  · have free : trade.commission = 0 := by simp [commission, feeRate, charged]
    simp [charged, free]

theorem book_trades (b : BrokerSim) (trade : Trade) (reading : Reading) :
    (b.book trade reading).trades = b.trades ++ [trade] := by
  change List.filterMap Response.trade? (b.responses ++ [.trade trade]) = _
  rw [List.filterMap_append]
  rfl

end BrokerSim

namespace Session
open BrokerSim

variable {s : Session} {action : Action} {order : Order} {trade : Trade}

theorem act_made (made : s.broker.made action = some (order, trade)) :
    ∃ readings key, action = .turn readings key ∧
      (s.act action).broker.rest = (s.broker.book trade (readings key)).rest := by
  cases action with
  | insert input => contradiction
  | cancel input now => contradiction
  | turn readings key => exact ⟨readings, key, rfl, matchStep_made made⟩

/-- An action that trades nothing leaves the cash and the trades. -/
theorem act_unmade (traced : s.Traced) (unmade : s.broker.made action = none) :
    (s.act action).broker.asset = s.broker.asset ∧ (s.act action).broker.trades = s.broker.trades ∧
      (s.act action).broker.feeRate = s.broker.feeRate := by
  cases action with
  | insert input =>
    apply rest_same
    simp only [act, insertOrder]
    split <;> rfl
  | cancel input now =>
    refine ⟨?_, (Quiet.cancelled s.broker input now).trades, ?_⟩
    all_goals
      simp only [act, cancelOrder]
      split
      · rfl
      · split <;> rfl
  | turn readings key => exact rest_same (matchStep_unmade traced.keyed unmade)

/-- A trade takes what it is worth and the commission from the cash, or adds the one and
takes the other. -/
theorem act_asset (made : s.broker.made action = some (order, trade)) :
    (s.act action).broker.trades = s.broker.trades ++ [trade] ∧
      (s.act action).broker.feeRate = s.broker.feeRate ∧
      (s.act action).broker.asset.avail =
        (if trade.side = .buy then s.broker.asset.avail - trade.worth
          else s.broker.asset.avail + trade.worth) -
          trade.commission ∧
      (s.act action).broker.asset.accumulatedFee = s.broker.asset.accumulatedFee +
        trade.commission := by
  obtain ⟨readings, key, rfl, rest⟩ := act_made made
  obtain ⟨volume, _, _, _, told⟩ := made_turn made
  have commission : trade.commission = trade.worth * s.broker.feeRate := by
    rw [told]
    exact s.broker.tradeOf_commission order volume (readings key)
  obtain ⟨asset, trades, feeRate⟩ := rest_same rest
  obtain ⟨avail, fee⟩ := book_asset (readings key) commission
  rw [asset, trades, feeRate]
  exact ⟨book_trades _ _ _, rfl, avail, fee⟩

/-! Conservation. -/

theorem dealt_append (side : Side) (trades : List Trade) (trade : Trade) :
    dealt side (trades ++ [trade]) = dealt side trades + if trade.side = side then trade.worth
      else 0 := by
  rw [dealt, dealt, List.filter_append, List.map_append, List.sum_append]
  by_cases here : trade.side = side
  · simp [here]
  · simp [here]

theorem commissions_append (trades : List Trade) (trade : Trade) :
    commissions (trades ++ [trade]) = commissions trades + trade.commission := by
  simp [commissions]

/-- The cash is what there was with what the trades made of it, in both books. -/
structure CashConserved (start : Asset) (book : Book) (b : BrokerSim) : Prop where
  avail : b.asset.avail = start.avail - dealt .buy b.trades + dealt .sell b.trades -
    commissions b.trades
  fees : b.asset.accumulatedFee = start.accumulatedFee + commissions b.trades
  strategy : (b.strategyBook book).asset.avail - book.asset.avail = b.asset.avail - start.avail

theorem act_cash {start : Asset} {book : Book} (traced : s.Traced)
    (sides : ∀ input ∈ s.accepted, input.side = .buy ∨ input.side = .sell)
    (kept : CashConserved start book s.broker) :
      CashConserved start book (s.act action).broker := by
  cases made : s.broker.made action with
  | none =>
    obtain ⟨asset, trades, _⟩ := act_unmade traced made
    obtain ⟨avail, fees, strategy⟩ := kept
    constructor
    · rw [asset, trades, avail]
    · rw [asset, trades, fees]
    · rw [strategyBook, trades, asset]
      exact strategy
  | some filled =>
    obtain ⟨order, trade⟩ := filled
    obtain ⟨trades, _, avail, fee⟩ := act_asset made
    obtain ⟨readings, key, rfl, _⟩ := act_made made
    obtain ⟨volume, entry, _, _, told⟩ := made_turn made
    obtain ⟨_, input, member, _, same⟩ := traced key order entry
    have side : trade.side = .buy ∨ trade.side = .sell := by
      rw [told]
      change order.side = .buy ∨ order.side = .sell
      rw [← same]
      exact sides input member
    have untaxed : trade.tax = 0 := by rw [told]; rfl
    have booked : ((s.act (.turn readings key)).broker.strategyBook book).asset.avail =
        (if trade.side = .buy then (s.broker.strategyBook book).asset.avail - trade.worth
          else (s.broker.strategyBook book).asset.avail + trade.worth) - trade.commission := by
      rw [strategyBook, trades, List.foldl_append]
      change (Book.update (s.broker.strategyBook book) trade).asset.avail = _
      simp only [Book.update, untaxed, sub_zero]
      rcases side with side | side <;> simp [side, Trade.worth]
    obtain ⟨before, fees, strategy⟩ := kept
    constructor
    · rw [avail, trades, dealt_append, dealt_append, commissions_append, before]
      rcases side with side | side <;> simp only [side, if_true, if_false, reduceCtorEq] <;> ring
    · rw [fee, trades, commissions_append, fees, add_assoc]
    · rw [booked, avail]
      rcases side with side | side <;> simp only [side, if_true, if_false, reduceCtorEq]
        <;> linarith

/-- In every run of buys and sells the cash, the fees and the cash of the strategy's book are
what the notified trades make them. -/
theorem cash_conserved (cfg : SimulationCfg) (now : Int64) (book : Book) (events : List Event)
    (sides : ∀ input ∈ acceptedBy ⟨(make now).setup cfg, []⟩ events, input.side = .buy ∨
      input.side = .sell) :
    ∀ s ∈ visits ⟨(make now).setup cfg, []⟩ events,
      s.broker.asset.avail = cfg.initialCapital.getD 1000000 - dealt .buy s.broker.trades +
          dealt .sell s.broker.trades - commissions s.broker.trades ∧
        s.broker.asset.accumulatedFee = commissions s.broker.trades ∧
        (s.broker.strategyBook book).asset.avail - book.asset.avail =
          s.broker.asset.avail - cfg.initialCapital.getD 1000000 := by
  let start := ((make now).setup cfg).asset
  let inv (s : Session) := s.Traced ∧ CashConserved start book s.broker
  let enabled (s : Session) (_ : Action) :=
    ∀ input ∈ s.accepted, input.side = .buy ∨ input.side = .sell
  have kept : ∀ s action, inv s → enabled s action → inv (s.act action) :=
    fun s action sound able => ⟨act_traced sound.1 action, act_cash sound.1 able sound.2⟩
  have started : inv ⟨(make now).setup cfg, []⟩ := by
    refine ⟨traced_start rfl, ?_, ?_, ?_⟩
    all_goals simp [trades, make, setup, dealt, commissions, strategyBook, start]
  have allowed : ∀ move ∈ moves ⟨(make now).setup cfg, []⟩ events, enabled move.1 move.2 := by
    intro move member input known
    have grown := (moves_accepted ⟨(make now).setup cfg, []⟩ _).2 move member
    exact sides input (grown.subset ((act_accepted _ _).subset known))
  intro s visited
  obtain ⟨avail, fees, strategy⟩ := (Runs.invariant kept started _ allowed s visited).2
  have none : start.accumulatedFee = 0 := rfl
  rw [none, zero_add] at fees
  exact ⟨avail, fees, strategy⟩

/-- The default configuration. -/
def defaults : SimulationCfg := ⟨none, none, none, none, none⟩

theorem cash_conserved_sell :
    (visits ⟨(make 0).setup defaults, []⟩ sellOne).length = 3 ∧
      ∀ s ∈ visits ⟨(make 0).setup defaults, []⟩ sellOne,
        s.broker.asset.avail = defaults.initialCapital.getD 1000000 - dealt .buy s.broker.trades +
            dealt .sell s.broker.trades - commissions s.broker.trades ∧
          s.broker.asset.accumulatedFee = commissions s.broker.trades ∧
          (s.broker.strategyBook .idle).asset.avail - Book.idle.asset.avail =
            s.broker.asset.avail - defaults.initialCapital.getD 1000000 :=
  ⟨by decide +kernel, cash_conserved defaults 0 .idle sellOne (by decide +kernel)⟩

end Session
end BTrader
