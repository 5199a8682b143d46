import BTrader.Broker.Turns

/-! Which levels a turn of the matching loop takes its volume from. -/
namespace BTrader
namespace BrokerSim

variable (b : BrokerSim) (order : Order)

/-- Where the loop is when it has the first levels behind it. -/
def sweepTo (levels : List (ℚ × ℚ)) (fills : Fills) (i : Nat) : Fills :=
  sweepLevels b order (levels.take i) fills

/-- What the level adds to the volume traded. -/
def takenAt (levels : List (ℚ × ℚ)) (fills : Fills) (i : Nat) : ℚ :=
  (b.sweepTo order levels fills (i + 1)).totalTradedVolume -
    (b.sweepTo order levels fills i).totalTradedVolume

/-- What could be taken from the level: the smaller of what is left of the order and its volume. -/
def offeredAt (levels : List (ℚ × ℚ)) (fills : Fills) (i : Nat) : ℚ :=
  min (b.sweepTo order levels fills i).remainingVolume (levels.getD i (0, 0)).2

/-- The cash is short of that, at the price of the level. -/
def ShortAt (levels : List (ℚ × ℚ)) (fills : Fills) (i : Nat) : Prop :=
  order.side = .buy ∧
    b.asset.avail < b.applySlippage (levels.getD i (0, 0)).1 order.side *
      b.offeredAt order levels fills i

/-- The level before is no worse for the side. -/
def BestFirst (side : Side) (levels : List (ℚ × ℚ)) : Prop :=
  levels.Pairwise fun level worse => if side = .buy then level.1 ≤ worse.1 else worse.1 ≤ level.1

instance (side : Side) (levels : List (ℚ × ℚ)) : Decidable (BestFirst side levels) := by
  unfold BestFirst
  infer_instance

variable {b order} {level : ℚ × ℚ} {levels : List (ℚ × ℚ)} {fills : Fills}

/-- The loop goes on to the level and can trade at its price. -/
def Reaches (b : BrokerSim) (order : Order) (fills : Fills) (level : ℚ × ℚ) : Prop :=
  0 < fills.remainingVolume ∧ canExecuteOrder order (b.applySlippage level.1 order.side) = true

/-- What the level leaves. -/
def passed (b : BrokerSim) (order : Order) (fills : Fills) (level : ℚ × ℚ) : Fills :=
  let finalPrice := b.applySlippage level.1 order.side
  let tradeVolume := min fills.remainingVolume level.2
  if b.checkFundsSufficiency order finalPrice tradeVolume then fills.trade finalPrice tradeVolume
  else fills

theorem sweepLevels_reached (reaches : b.Reaches order fills level) :
    sweepLevels b order (level :: levels) fills =
      sweepLevels b order levels (b.passed order fills level) := by
  obtain ⟨wanted, able⟩ := reaches
  rw [sweepLevels, if_neg (not_le.mpr wanted)]
  simp only [able, if_true, passed]
  split <;> rfl

theorem sweepLevels_stopped (stopped : ¬ b.Reaches order fills level) :
    sweepLevels b order (level :: levels) fills = fills := by
  rw [Reaches, not_and_or, not_lt] at stopped
  rw [sweepLevels]
  rcases stopped with done | unable
  · rw [if_pos done]
  · split
    · rfl
    · exact if_neg unable

theorem takenAt_stopped (stopped : ¬ b.Reaches order fills level) (i : Nat) :
    b.takenAt order (level :: levels) fills i = 0 := by
  have same (i : Nat) : b.sweepTo order (level :: levels) fills i = fills := by
    cases i with
    | zero => rfl
    | succ i => exact sweepLevels_stopped stopped
  rw [takenAt, same, same, sub_self]

theorem sweepTo_succ (reaches : b.Reaches order fills level) (i : Nat) :
    b.sweepTo order (level :: levels) fills (i + 1) =
      b.sweepTo order levels (b.passed order fills level) i :=
  sweepLevels_reached reaches

theorem takenAt_succ (reaches : b.Reaches order fills level) (i : Nat) :
    b.takenAt order (level :: levels) fills (i + 1) =
      b.takenAt order levels (b.passed order fills level) i := by
  rw [takenAt, sweepTo_succ reaches, sweepTo_succ reaches, takenAt]

theorem offeredAt_succ (reaches : b.Reaches order fills level) (i : Nat) :
    b.offeredAt order (level :: levels) fills (i + 1) =
      b.offeredAt order levels (b.passed order fills level) i := by
  rw [offeredAt, sweepTo_succ reaches, offeredAt]
  rfl

/-- A level that is reached is taken for what it offers, or the cash is short of it. -/
theorem takenAt_zero (reaches : b.Reaches order fills level) :
    b.takenAt order (level :: levels) fills 0 = b.offeredAt order (level :: levels) fills 0 ∨
      b.takenAt order (level :: levels) fills 0 = 0 ∧
        b.ShortAt order (level :: levels) fills 0 := by
  have after : b.sweepTo order (level :: levels) fills 1 = b.passed order fills level :=
    sweepTo_succ reaches 0
  have before : b.sweepTo order (level :: levels) fills 0 = fills := rfl
  rw [takenAt, ShortAt, offeredAt, after, before, passed]
  by_cases covered :
    b.checkFundsSufficiency order (b.applySlippage level.1 order.side)
      (min fills.remainingVolume level.2)
  · left
    simp only [covered, if_true, Fills.trade, add_sub_cancel_left]
    rfl
  · right
    simp only [covered, Bool.false_eq_true, if_false, sub_self, true_and]
    simpa [checkFundsSufficiency] using covered

/-- Before a level that something is taken from, and at that level, all is taken that is offered
except where the cash is short of a level. -/
theorem takenAt_before (levels : List (ℚ × ℚ)) (fills : Fills) {i j : Nat} (before : i ≤ j)
    (taken : b.takenAt order levels fills j ≠ 0) :
    b.takenAt order levels fills i = b.offeredAt order levels fills i ∨
      b.takenAt order levels fills i = 0 ∧ b.ShortAt order levels fills i := by
  induction levels generalizing fills i j with
  | nil => simp [takenAt, sweepTo] at taken
  | cons level levels ih =>
    by_cases reaches : b.Reaches order fills level
    · cases i with
      | zero => exact takenAt_zero reaches
      | succ i =>
        cases j with
        | zero => contradiction
        | succ j =>
          rw [takenAt_succ reaches] at taken ⊢
          have later := ih (b.passed order fills level) (Nat.le_of_succ_le_succ before) taken
          rw [ShortAt, offeredAt_succ reaches]
          exact later
    · exact absurd (takenAt_stopped reaches j) taken

/-- Whatever the depth, a turn takes from a level only when it took from every level before it
what that offered, or the cash was short of what it offered. -/
theorem price_priority (b : BrokerSim) (order : Order) (depth : InstrumentDepth) {i j : Nat}
    (before : i ≤ j)
    (taken : b.takenAt order (buildPriceLevels depth order.side) (.start order) j ≠ 0) :
    b.takenAt order (buildPriceLevels depth order.side) (.start order) i =
        b.offeredAt order (buildPriceLevels depth order.side) (.start order) i ∨
      b.takenAt order (buildPriceLevels depth order.side) (.start order) i = 0 ∧
        b.ShortAt order (buildPriceLevels depth order.side) (.start order) i :=
  takenAt_before _ _ before taken

/-- A market order to buy twenty. -/
def twenty : Order :=
  ⟨1, 0, 0, 0, "", "BTC", "X", .crypto, 0, 0, 20, 20, .submitted, false, .buy, .open_,
    .speculation, .any, .any, .gfd⟩

/-- Much for ten each, and a little for eleven each. -/
def dear : InstrumentDepth where
  realDepthSize := 2
  bidPrice := 0
  askPrice i := if i = 0 then 10 else 11
  bidVolume := 0
  askVolume i := if i = 0 then 100 else 5

/-- A broker without slippage and with that cash. -/
def withCash (avail : ℚ) : BrokerSim := ⟨∅, ⟨0, avail, 0, 0⟩, .empty, 0, 0, false, false, []⟩

theorem price_priority_dear :
    (withCash 150).takenAt twenty (buildPriceLevels dear .buy) (.start twenty) 0 =
        (withCash 150).offeredAt twenty (buildPriceLevels dear .buy) (.start twenty) 0 ∨
      (withCash 150).takenAt twenty (buildPriceLevels dear .buy) (.start twenty) 0 = 0 ∧
        (withCash 150).ShortAt twenty (buildPriceLevels dear .buy) (.start twenty) 0 :=
  price_priority (withCash 150) twenty dear (i := 0) (j := 1) (by decide) (by decide +kernel)

/-- Ten each is too much for twenty, eleven each is not for five. -/
theorem level_skipped :
    ¬ ∀ (b : BrokerSim) (order : Order) (depth : InstrumentDepth),
      BestFirst order.side (buildPriceLevels depth order.side) →
      ∀ i j, i < j → b.takenAt order (buildPriceLevels depth order.side) (.start order) j ≠ 0 →
        b.takenAt order (buildPriceLevels depth order.side) (.start order) i =
          b.offeredAt order (buildPriceLevels depth order.side) (.start order) i := by
  intro claim
  have filled :=
    claim (withCash 150) twenty dear (by decide +kernel) 0 1 (by decide) (by decide +kernel)
  exact absurd filled (by decide +kernel)

end BrokerSim
end BTrader
