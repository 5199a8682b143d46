import BTrader.Broker.BrokerSim

/-! What one turn of the matching loop does to the orders, the positions and the
responses, told by the volume it fills. -/
namespace BTrader
namespace BrokerSim

/-- The volume these price levels give an order that still wants `remaining`. -/
def given (b : BrokerSim) (order : Order) : List (ℚ × ℚ) → ℚ → ℚ
  | [], _ => 0
  | (price, volume) :: levels, remaining =>
    let finalPrice := b.applySlippage price order.side
    let taken := min remaining volume
    if remaining ≤ 0 ∨ canExecuteOrder order finalPrice = false then 0
    else if b.checkFundsSufficiency order finalPrice taken then
      taken + b.given order levels (remaining - taken)
    else b.given order levels remaining

theorem sweepLevels_total (b : BrokerSim) (order : Order) (levels : List (ℚ × ℚ)) (fills : Fills) :
    (sweepLevels b order levels fills).totalTradedVolume =
      fills.totalTradedVolume + b.given order levels fills.remainingVolume := by
  induction levels generalizing fills with
  | nil => simp [sweepLevels, given]
  | cons level levels ih =>
    obtain ⟨price, volume⟩ := level
    rw [sweepLevels, given]
    by_cases done : fills.remainingVolume ≤ 0
    · simp [done]
    · by_cases able : canExecuteOrder order (b.applySlippage price order.side)
      · simp only [done, able, Bool.true_eq_false, or_self, if_false, if_true]
        split
        · rw [ih]
          exact add_assoc _ _ _
        · exact ih fills
      · simp [done, able]

theorem sweepLevels_start (b : BrokerSim) (order : Order) (levels : List (ℚ × ℚ)) :
    (sweepLevels b order levels (.start order)).totalTradedVolume =
      b.given order levels order.volumeLeft := by
  rw [sweepLevels_total]
  exact zero_add _

theorem given_bounds (b : BrokerSim) (order : Order) (levels : List (ℚ × ℚ))
    (positive : ∀ level ∈ levels, 0 < level.2) (remaining : ℚ) (wanted : 0 ≤ remaining) :
    0 ≤ b.given order levels remaining ∧ b.given order levels remaining ≤ remaining := by
  induction levels generalizing remaining with
  | nil => exact ⟨le_refl _, wanted⟩
  | cons level levels ih =>
    obtain ⟨price, volume⟩ := level
    have offered : 0 < volume := positive _ List.mem_cons_self
    have rest := ih fun level member => positive level (List.mem_cons_of_mem _ member)
    rw [given]
    split
    · exact ⟨le_refl _, wanted⟩
    · split
      · have taken : 0 ≤ min remaining volume := le_min wanted offered.le
        have left := rest (remaining - min remaining volume) (sub_nonneg.mpr (min_le_left _ _))
        constructor
        · exact add_nonneg taken left.1
        · linarith only [left.2]
      · exact rest remaining wanted

theorem buildPriceLevels_positive (depth : InstrumentDepth) (side : Side) :
    ∀ level ∈ buildPriceLevels depth side, 0 < level.2 := by
  intro level member
  have valid := (List.mem_filter.mp member).2
  simp only [validLevel, Bool.and_eq_true, decide_eq_true_eq] at valid
  exact lt_trans (by norm_num [minValidVolume]) valid.2

/-- The price an order gets without any depth. -/
def executionPrice (b : BrokerSim) (order : Order) (reading : Reading) : ℚ :=
  if order.priceType = .limit then order.limitPrice
  else b.applySlippage (generateMarketPrice order reading.priceChange) order.side

/-- The volume a turn fills of an order, none when it makes no trade. -/
def fillVolume (b : BrokerSim) (order : Order) (reading : Reading) : Option ℚ :=
  if reading.depth.realDepthSize = 0 then
    if order.side = .buy ∧
      b.asset.avail < b.executionPrice order reading * order.volumeLeft then none
    else some order.volumeLeft
  else
    let volume := b.given order (buildPriceLevels reading.depth order.side) order.volumeLeft
    if volume > 0 then some volume else none

theorem fillVolume_bounds {b : BrokerSim} {order : Order} {reading : Reading} {volume : ℚ}
    (wanted : 0 < order.volumeLeft) (fill : b.fillVolume order reading = some volume) :
    0 < volume ∧ volume ≤ order.volumeLeft := by
  unfold fillVolume at fill
  split at fill
  · split at fill
    · contradiction
    · cases fill
      exact ⟨wanted, le_refl _⟩
  · simp only [Option.ite_none_right_eq_some, Option.some.injEq] at fill
    obtain ⟨some, rfl⟩ := fill
    exact ⟨some, (given_bounds b order _ (buildPriceLevels_positive _ _) _ wanted.le).2⟩

/-- What these price levels cost an order that still wants `remaining`. -/
def cost (b : BrokerSim) (order : Order) : List (ℚ × ℚ) → ℚ → ℚ
  | [], _ => 0
  | (price, volume) :: levels, remaining =>
    let finalPrice := b.applySlippage price order.side
    let taken := min remaining volume
    if remaining ≤ 0 ∨ canExecuteOrder order finalPrice = false then 0
    else if b.checkFundsSufficiency order finalPrice taken then
      finalPrice * taken + b.cost order levels (remaining - taken)
    else b.cost order levels remaining

theorem sweepLevels_weighted (b : BrokerSim) (order : Order) (levels : List (ℚ × ℚ))
    (fills : Fills) :
    (sweepLevels b order levels fills).weightedAvgPrice =
      fills.weightedAvgPrice + b.cost order levels fills.remainingVolume := by
  induction levels generalizing fills with
  | nil => simp [sweepLevels, cost]
  | cons level levels ih =>
    obtain ⟨price, volume⟩ := level
    rw [sweepLevels, cost]
    by_cases done : fills.remainingVolume ≤ 0
    · simp [done]
    · by_cases able : canExecuteOrder order (b.applySlippage price order.side)
      · simp only [done, able, Bool.true_eq_false, or_self, if_false, if_true]
        split
        · rw [ih]
          exact add_assoc _ _ _
        · exact ih fills
      · simp [done, able]

/-- What all that a turn fills is worth. -/
def turnover (b : BrokerSim) (order : Order) (reading : Reading) : ℚ :=
  if reading.depth.realDepthSize = 0 then b.executionPrice order reading * order.volumeLeft
  else b.cost order (buildPriceLevels reading.depth order.side) order.volumeLeft

/-- The price of the trade: with depth the average over the levels taken. -/
def fillPrice (b : BrokerSim) (order : Order) (reading : Reading) : ℚ :=
  if reading.depth.realDepthSize = 0 then b.executionPrice order reading
  else
    b.cost order (buildPriceLevels reading.depth order.side) order.volumeLeft /
      b.given order (buildPriceLevels reading.depth order.side) order.volumeLeft

theorem fillPrice_mul {b : BrokerSim} {order : Order} {reading : Reading} {volume : ℚ}
    (fill : b.fillVolume order reading = some volume) :
    b.fillPrice order reading * volume = b.turnover order reading := by
  unfold fillVolume at fill
  unfold fillPrice turnover
  split at fill
  · rename_i noDepth
    rw [if_pos noDepth, if_pos noDepth]
    split at fill
    · contradiction
    · cases fill
      rfl
  · rename_i depth
    simp only [Option.ite_none_right_eq_some, Option.some.injEq] at fill
    obtain ⟨some, rfl⟩ := fill
    rw [if_neg depth, if_neg depth, div_mul_cancel₀ _ some.ne']

/-- The trade that a turn makes of an order. -/
def tradeOf (b : BrokerSim) (order : Order) (volume : ℚ) (reading : Reading) : Trade :=
  b.generateSummaryTrade order (b.fillPrice order reading) volume reading

theorem matchOrder_trade {b : BrokerSim} {order : Order} {reading : Reading} {volume : ℚ}
    (key : UInt64) (fill : b.fillVolume order reading = some volume) :
    b.matchOrderWithMarketData key order reading =
      b.executeSummaryTrade key order (b.tradeOf order volume reading) reading := by
  unfold fillVolume at fill
  unfold matchOrderWithMarketData tradeOf fillPrice
  split at fill
  · rename_i noDepth
    rw [if_pos noDepth, if_pos noDepth]
    split at fill
    · contradiction
    · rename_i funds
      cases fill
      exact if_neg funds
  · rename_i depth
    simp only [Option.ite_none_right_eq_some, Option.some.injEq] at fill
    obtain ⟨some, rfl⟩ := fill
    rw [if_neg depth, if_neg depth]
    have offered : (buildPriceLevels reading.depth order.side).isEmpty = false := by
      cases levels : buildPriceLevels reading.depth order.side with
      | nil => simp [levels, given] at some
      | cons level rest => rfl
    have paid :
        (sweepLevels b order (buildPriceLevels reading.depth order.side)
          (.start order)).weightedAvgPrice =
        b.cost order (buildPriceLevels reading.depth order.side) order.volumeLeft := by
      rw [sweepLevels_weighted]
      exact zero_add _
    simp only [offered, Bool.false_eq_true, if_false, sweepLevels_start, paid]
    exact if_pos some

/-- A turn that fills a volume makes one trade of it. -/
theorem matchOrder_fill {b : BrokerSim} {order : Order} {reading : Reading} {volume : ℚ}
    (key : UInt64) (fill : b.fillVolume order reading = some volume) :
    ∃ price, b.matchOrderWithMarketData key order reading =
      b.executeSummaryTrade key order (b.generateSummaryTrade order price volume reading) reading :=
  ⟨b.fillPrice order reading, matchOrder_trade key fill⟩

/-- A buy that is short of cash without any depth goes into error. -/
theorem matchOrder_short {b : BrokerSim} {key : UInt64} {order : Order} {reading : Reading}
    (same : order.orderId = key) (noDepth : reading.depth.realDepthSize = 0)
    (fill : b.fillVolume order reading = none) :
    b.matchOrderWithMarketData key order reading =
      b.updateOrderStatus key .error reading.statusTime := by
  unfold fillVolume at fill
  unfold matchOrderWithMarketData
  rw [if_pos noDepth] at fill ⊢
  split at fill
  · rename_i short
    rw [← same]
    exact if_pos short
  · contradiction

/-- With depth an order that is not filled at most becomes pending. -/
theorem matchOrder_waits {b : BrokerSim} {key : UInt64} {order : Order} {reading : Reading}
    (depth : reading.depth.realDepthSize ≠ 0) (fill : b.fillVolume order reading = none) :
    b.matchOrderWithMarketData key order reading = b ∨
      b.matchOrderWithMarketData key order reading =
        b.updateOrderStatus key .pending reading.statusTime := by
  unfold fillVolume at fill
  unfold matchOrderWithMarketData
  rw [if_neg depth] at fill ⊢
  have nothing :
      ¬ b.given order (buildPriceLevels reading.depth order.side) order.volumeLeft > 0 := by
    intro some
    simp [some] at fill
  simp only [sweepLevels_start, nothing, if_false]
  split
  · split
    · exact .inr rfl
    · exact .inl rfl
  · exact .inl rfl

/-- Otherwise it changes at most the status of the order, to an error or to pending. -/
theorem matchOrder_none_cases {b : BrokerSim} {key : UInt64} {order : Order} {reading : Reading}
    (same : order.orderId = key) (fill : b.fillVolume order reading = none) :
    b.matchOrderWithMarketData key order reading = b ∨
      ∃ status, (status = .error ∨ status = .pending) ∧
        b.matchOrderWithMarketData key order reading =
          b.updateOrderStatus key status reading.statusTime := by
  by_cases noDepth : reading.depth.realDepthSize = 0
  · exact .inr ⟨.error, .inl rfl, matchOrder_short same noDepth fill⟩
  · exact (matchOrder_waits noDepth fill).imp_right fun waits => ⟨.pending, .inr rfl, waits⟩

/-- Neither fills nor cancels the order. -/
theorem matchOrder_none {b : BrokerSim} {key : UInt64} {order : Order} {reading : Reading}
    (same : order.orderId = key) (fill : b.fillVolume order reading = none) :
    b.matchOrderWithMarketData key order reading = b ∨
      ∃ status, status ≠ .filled ∧ status ≠ .cancelled ∧
        b.matchOrderWithMarketData key order reading =
          b.updateOrderStatus key status reading.statusTime := by
  rcases matchOrder_none_cases same fill with stays | ⟨status, failed | waits, changed⟩
  · exact .inl stays
  · exact .inr ⟨status, by simp [failed], by simp [failed], changed⟩
  · exact .inr ⟨status, by simp [waits], by simp [waits], changed⟩

/-! The orders a turn leaves. -/

theorem modifyOrder_get (b : BrokerSim) (key : UInt64) (f : Order → Order) (id : UInt64) :
    (b.modifyOrder key f).activeOrders[id]? =
      if key = id then b.activeOrders[id]?.map f else b.activeOrders[id]? := by
  simp only [modifyOrder, Std.TreeMap.getElem?_modify, Std.compare_eq_iff_eq]
  split
  · rename_i same
    rw [same]
  · rfl

theorem updateOrderStatus_get (b : BrokerSim) (key : UInt64) (status : OrderStatus) (now : Int64)
    (id : UInt64) :
    (b.updateOrderStatus key status now).activeOrders[id]? =
      if key = id then b.activeOrders[id]?.map fun order =>
        { order with status := status, updateTime := now }
      else b.activeOrders[id]? :=
  b.modifyOrder_get key _ id

theorem removeOrder_get (b : BrokerSim) (key id : UInt64) :
    (b.removeOrder key).activeOrders[id]? = if key = id then none else b.activeOrders[id]? := by
  simp only [removeOrder, Std.TreeMap.getElem?_erase, Std.compare_eq_iff_eq]

theorem addOrder_get (b : BrokerSim) (order : Order) (id : UInt64) :
    (b.addOrder order).activeOrders[id]? =
      if order.orderId = id then some (.put b.activeOrders[id]? order)
      else b.activeOrders[id]? := by
  simp only [addOrder, Std.TreeMap.getElem?_insert, Std.compare_eq_iff_eq]
  by_cases same : order.orderId = id
  · rw [if_pos same, if_pos same, same]
  · rw [if_neg same, if_neg same]

theorem executeSummaryTrade_get {b : BrokerSim} {key : UInt64} {order : Order}
    (entry : b.activeOrders[key]? = some order) (same : order.orderId = key) (trade : Trade)
    (reading : Reading) (id : UInt64) :
    (b.executeSummaryTrade key order trade reading).activeOrders[id]? =
      if key = id then some { order with
        volumeLeft := order.volumeLeft - castInt64 trade.volume
        status :=
          if order.volumeLeft - castInt64 trade.volume = 0 then .filled else .partialFilledActive
        updateTime := reading.statusTime }
      else b.activeOrders[id]? := by
  subst key
  change ((b.modifyOrder _ _).updateOrderStatus _ _ _).activeOrders[id]? = _
  rw [updateOrderStatus_get, modifyOrder_get]
  split
  · rename_i here
    rw [← here, entry]
    rfl
  · rfl

/-- The order after a fill, none when nothing is left of it. -/
def orderAfter (order : Order) (volume : ℚ) (now : Int64) : Option Order :=
  if order.volumeLeft - castInt64 volume = 0 then none
  else some { order with
    volumeLeft := order.volumeLeft - castInt64 volume, status := .partialFilledActive,
    updateTime := now }

/-- The statuses the matching loop passes by. -/
def Done (status : OrderStatus) : Prop := status = .filled ∨ status = .cancelled ∨ status = .error

/-- What the loop does at an entry after it has matched it. -/
def settled (b : BrokerSim) (key : UInt64) : BrokerSim :=
  match b.activeOrders[key]? with
  | none => b
  | some order => if order.status = .filled ∨
      order.status = .cancelled then b.removeOrder key else b

theorem settled_rest (b : BrokerSim) (key : UInt64) :
    (b.settled key).responses = b.responses ∧ (b.settled key).positions = b.positions := by
  unfold settled
  split
  · exact ⟨rfl, rfl⟩
  · split <;> exact ⟨rfl, rfl⟩

theorem settled_get (b : BrokerSim) (key id : UInt64) :
    (b.settled key).activeOrders[id]? =
      if key = id then b.activeOrders[id]?.filter fun order =>
        ¬ (order.status = .filled ∨ order.status = .cancelled)
      else b.activeOrders[id]? := by
  unfold settled
  by_cases here : key = id
  · subst id
    rw [if_pos rfl]
    cases entry : b.activeOrders[key]? with
    | none => exact entry
    | some order =>
      by_cases finished : order.status = .filled ∨ order.status = .cancelled
      · simp only [if_pos finished, removeOrder_get, if_true, Option.filter_some]
        rw [if_neg (by simp [finished])]
      · simp only [if_neg finished, entry, Option.filter_some]
        rw [if_pos (by simp [finished])]
  · rw [if_neg here]
    split
    · rfl
    · split
      · rw [removeOrder_get, if_neg here]
      · rfl

variable {b : BrokerSim} {key : UInt64} {order : Order} {readings : UInt64 → Reading}

theorem matchStep_live (entry : b.activeOrders[key]? = some order) (live : ¬ Done order.status) :
    matchStep readings b key =
      (b.matchOrderWithMarketData key order (readings key)).settled key := by
  rw [matchStep, entry]
  exact if_neg live

/-- A turn that fills a volume notifies one trade of it, books it, and changes no other order. -/
theorem matchStep_fill {volume : ℚ} (entry : b.activeOrders[key]? = some order)
    (same : order.orderId = key) (live : ¬ Done order.status)
    (fill : b.fillVolume order (readings key) = some volume) :
    ∃ price,
      (matchStep readings b key).responses =
        b.responses ++ [.trade (b.generateSummaryTrade order price volume (readings key))] ∧
      (matchStep readings b key).positions = bookTrade b.positions
        (b.generateSummaryTrade order price volume (readings key)) (readings key).positionTime ∧
      ∀ id, (matchStep readings b key).activeOrders[id]? =
        if key = id then orderAfter order volume (readings key).statusTime
        else b.activeOrders[id]? := by
  obtain ⟨price, matched⟩ := matchOrder_fill key fill
  rw [matchStep_live entry live, matched, (settled_rest _ _).1, (settled_rest _ _).2]
  refine ⟨price, rfl, rfl, fun id => ?_⟩
  rw [settled_get, executeSummaryTrade_get entry same]
  split
  · by_cases whole : order.volumeLeft - castInt64 volume = 0
    · simp [orderAfter, generateSummaryTrade, whole]
    · simp [orderAfter, generateSummaryTrade, whole]
  · rfl

/-- Any other turn leaves all but the status of its order, which it neither fills nor cancels. -/
theorem matchStep_idle (entry : b.activeOrders[key]? = some order) (same : order.orderId = key)
    (idle : Done order.status ∨ b.fillVolume order (readings key) = none) :
    (matchStep readings b key).responses = b.responses ∧
      (matchStep readings b key).positions = b.positions ∧
      ∃ status now, (status = .filled → order.status = .filled) ∧
        ∀ id, (matchStep readings b key).activeOrders[id]? =
          if key = id then some { order with status := status, updateTime := now }
          else b.activeOrders[id]? := by
  have unchanged : ∀ id, b.activeOrders[id]? = if key = id then some order
      else b.activeOrders[id]? := by
    intro id
    split
    · rename_i here
      rw [← here, entry]
    · rfl
  by_cases done : Done order.status
  · have stays : matchStep readings b key = b := by
      rw [matchStep, entry]
      exact if_pos done
    rw [stays]
    exact ⟨rfl, rfl, order.status, order.updateTime, id, unchanged⟩
  · have none := idle.resolve_left done
    rw [matchStep_live entry done, (settled_rest _ _).1, (settled_rest _ _).2]
    have live : order.status ≠ .filled ∧ order.status ≠ .cancelled := by
      simp only [Done, not_or] at done
      exact ⟨done.1, done.2.1⟩
    rcases matchOrder_none same none with stays | ⟨status, open_, kept, changed⟩
    · rw [stays]
      refine ⟨rfl, rfl, order.status, order.updateTime, id, fun id => ?_⟩
      rw [settled_get]
      split
      · rename_i here
        rw [← here, entry, Option.filter_some, if_pos (by simpa using live)]
      · rfl
    · rw [changed]
      refine ⟨rfl, rfl, status, (readings key).statusTime, fun filled => absurd filled open_,
        fun id => ?_⟩
      rw [settled_get, updateOrderStatus_get]
      split
      · rename_i here
        rw [← here, entry, Option.map_some, Option.filter_some, if_pos (by simp [open_, kept])]
      · rfl

theorem matchStep_absent (absent : b.activeOrders[key]? = none) : matchStep readings b key = b := by
  rw [matchStep, absent]

end BrokerSim
end BTrader
