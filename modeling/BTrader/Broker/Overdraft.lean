import BTrader.Broker.Cash

/-! When the cash of the broker stays above nothing. -/
namespace BTrader
namespace BrokerSim

/-- What a turn trades is covered: a buy, with all its levels and the commission, by the cash,
and the commission of any other order by its proceeds and the cash. -/
def Pays (b : BrokerSim) : Action → Prop
  | .turn readings key => ∀ order ∈ b.activeOrders[key]?, ¬ Done order.status →
    b.fillVolume order (readings key) ≠ none →
      if order.side = .buy then b.turnover order (readings key) * (1 + b.feeRate) ≤ b.asset.avail
      else 0 ≤ b.asset.avail + b.turnover order (readings key) * (1 - b.feeRate)
  | _ => True

theorem pays_of_unmade {b : BrokerSim} {action : Action} (unmade : b.made action = none) :
    b.Pays action := by
  cases action with
  | insert input => trivial
  | cancel input now => trivial
  | turn readings key =>
    intro order entry live fill
    obtain ⟨volume, filled⟩ := Option.ne_none_iff_exists'.mp fill
    rw [made_of_fill entry live filled] at unmade
    contradiction

theorem pays_iff {b : BrokerSim} {readings : UInt64 → Reading} {key : UInt64} {order : Order}
    {trade : Trade} (made : b.made (.turn readings key) = some (order, trade)) :
    b.Pays (.turn readings key) ↔
      if trade.side = .buy then trade.worth * (1 + b.feeRate) ≤ b.asset.avail
      else 0 ≤ b.asset.avail + trade.worth * (1 - b.feeRate) := by
  obtain ⟨volume, entry, live, fill, told⟩ := made_turn made
  have worth : trade.worth = b.turnover order (readings key) := by
    rw [told]
    exact fillPrice_mul fill
  have side : trade.side = order.side := by rw [told]; rfl
  rw [worth, side]
  constructor
  · intro pays
    exact pays order entry live (by simp [fill])
  · intro covered other entry' _ _
    cases Option.some.inj (entry.symm.trans entry')
    exact covered

end BrokerSim

namespace Session
open BrokerSim

theorem act_avail {s : Session} {action : Action} (traced : s.Traced)
    (nonneg : 0 ≤ s.broker.asset.avail) :
    0 ≤ (s.act action).broker.asset.avail ↔ s.broker.Pays action := by
  cases made : s.broker.made action with
  | none =>
    rw [(act_unmade traced made).1]
    exact iff_of_true nonneg (pays_of_unmade made)
  | some filled =>
    obtain ⟨order, trade⟩ := filled
    obtain ⟨_, _, avail, _⟩ := act_asset made
    obtain ⟨readings, key, rfl, _⟩ := act_made made
    obtain ⟨volume, _, _, _, told⟩ := made_turn made
    have commission : trade.commission = trade.worth * s.broker.feeRate := by
      rw [told]
      exact s.broker.tradeOf_commission order volume (readings key)
    rw [avail, pays_iff made, commission]
    split
    · constructor <;> intro enough <;> linarith
    · constructor <;> intro enough <;> linarith

/-- From a capital that is not negative, the cash never is if and only if every turn of the run
trades what is covered. -/
theorem no_overdraft_iff (cfg : SimulationCfg) (now : Int64) (events : List Event)
    (capital : 0 ≤ cfg.initialCapital.getD 1000000) :
    (∀ s ∈ visits ⟨(make now).setup cfg, []⟩ events, 0 ≤ s.broker.asset.avail) ↔
      ∀ move ∈ moves ⟨(make now).setup cfg, []⟩ events, move.1.broker.Pays move.2 := by
  have first : 0 ≤ (⟨(make now).setup cfg, []⟩ : Session).broker.asset.avail := capital
  have kept (s : Session) (action : Action) (traced : s.Traced) (_ : True) :
      (s.act action).Traced :=
    act_traced traced action
  have survives (s : Session) (action : Action) (traced : s.Traced) (_ : True)
      (nonneg : 0 ≤ s.broker.asset.avail) :
      0 ≤ (s.act action).broker.asset.avail ↔ s.broker.Pays action := act_avail traced nonneg
  exact Runs.states_iff kept survives (traced_start rfl) first _ fun _ _ => trivial

/-- Two asks of a hundred units at 10. -/
def twoAsks : Reading :=
  { Reading.noDepth with depth := ⟨2, fun _ => 0, fun _ => 10, fun _ => 0, fun _ => 100⟩ }

/-- A capital of 1000, without slippage and commission. -/
def thousand : SimulationCfg := ⟨none, none, some false, some false, some 1000⟩

theorem no_overdraft_iff_one :
    (∀ s ∈ visits ⟨(make 0).setup thousand, []⟩ [.insert (marketOrder 7 .buy .open_ 100),
      .round fun _ => twoAsks],
        0 ≤ s.broker.asset.avail) ↔
      ∀ move ∈ moves ⟨(make 0).setup thousand, []⟩ [.insert (marketOrder 7 .buy .open_ 100),
        .round fun _ => twoAsks],
        move.1.broker.Pays move.2 :=
  no_overdraft_iff thousand 0 _ (by decide +kernel)

/-- Each ask costs all there is, and both are taken. -/
theorem two_levels_overdraw :
    ¬ ∀ s ∈ visits ⟨(make 0).setup thousand, []⟩ [.insert (marketOrder 7 .buy .open_ 200),
      .round fun _ => twoAsks],
      0 ≤ s.broker.asset.avail := by
  decide +kernel

end Session
end BTrader
