import BTrader.Broker.Session

/-! The one trade a turn of the matching loop makes, with its price, and what it does to
everything but the orders. -/
namespace BTrader
namespace BrokerSim

/-- The order a turn trades, with the trade. -/
def made (b : BrokerSim) : Action → Option (Order × Trade)
  | .turn readings key => (b.fill (.turn readings key)).map fun filled =>
      (filled.1, b.tradeOf filled.1 filled.2 (readings key))
  | _ => none

/-- Everything but the orders. -/
def rest (b : BrokerSim) : BrokerSim := { b with activeOrders := ∅ }

@[simp] theorem modifyOrder_rest (b : BrokerSim) (key : UInt64) (f : Order → Order) :
    (b.modifyOrder key f).rest = b.rest := rfl

@[simp] theorem updateOrderStatus_rest (b : BrokerSim) (key : UInt64) (status : OrderStatus)
    (now : Int64) :
    (b.updateOrderStatus key status now).rest = b.rest := rfl

@[simp] theorem addOrder_rest (b : BrokerSim) (order : Order) :
    (b.addOrder order).rest = b.rest := rfl

@[simp] theorem removeOrder_rest (b : BrokerSim) (key : UInt64) :
    (b.removeOrder key).rest = b.rest := rfl

@[simp] theorem settled_all_rest (b : BrokerSim) (key : UInt64) :
    (b.settled key).rest = b.rest := by
  unfold settled
  split
  · rfl
  · split <;> rfl

/-- What a trade does to everything but the orders. -/
def book (b : BrokerSim) (trade : Trade) (reading : Reading) : BrokerSim :=
  ((b.updatePosition trade reading.positionTime).updateAsset trade reading.assetTime).notifyResponse
    (.trade trade)

variable {b : BrokerSim} {readings : UInt64 → Reading} {key : UInt64} {order : Order}
    {trade : Trade}

/-- The order that is traded is an active one under that key. -/
theorem made_turn (made : b.made (.turn readings key) = some (order, trade)) :
    ∃ volume, b.activeOrders[key]? = some order ∧ ¬ Done order.status ∧
      b.fillVolume order (readings key) = some volume ∧
        trade = b.tradeOf order volume (readings key) := by
  obtain ⟨⟨order', volume⟩, fill, same⟩ := Option.map_eq_some_iff.mp made
  cases same
  simp only [BrokerSim.fill] at fill
  split at fill
  · contradiction
  · rename_i entry
    simp only [Option.ite_none_left_eq_some, Option.map_eq_some_iff, Prod.mk.injEq] at fill
    obtain ⟨live, amount, filled, rfl, rfl⟩ := fill
    exact ⟨amount, entry, live, filled, rfl⟩

theorem made_of_fill {volume : ℚ} (entry : b.activeOrders[key]? = some order)
    (live : ¬ Done order.status) (fill : b.fillVolume order (readings key) = some volume) :
    b.made (.turn readings key) = some (order, b.tradeOf order volume (readings key)) := by
  simp [made, BrokerSim.fill, entry, live, fill]

theorem matchStep_made (made : b.made (.turn readings key) = some (order, trade)) :
    (matchStep readings b key).rest = (b.book trade (readings key)).rest := by
  obtain ⟨volume, entry, live, fill, rfl⟩ := made_turn made
  rw [matchStep_live entry live, matchOrder_trade key fill, settled_all_rest]
  rfl

theorem matchStep_unmade (keyed : b.Keyed) (unmade : b.made (.turn readings key) = none) :
    (matchStep readings b key).rest = b.rest := by
  cases entry : b.activeOrders[key]? with
  | none => rw [matchStep_absent entry]
  | some order =>
    by_cases done : Done order.status
    · rw [matchStep, entry]
      exact congrArg rest (if_pos done)
    · cases fill : b.fillVolume order (readings key) with
      | some volume =>
        rw [made_of_fill entry done fill] at unmade
        contradiction
      | none =>
        rw [matchStep_live entry done, settled_all_rest]
        rcases matchOrder_none (keyed key order entry) fill with stays | ⟨status, _, _, changed⟩
        · rw [stays]
        · rw [changed, updateOrderStatus_rest]

end BrokerSim

namespace Session
open BrokerSim

/-- The order is the one that was entered, in the place of the one that was there if any, but for
its status, its time and what is left. -/
def EnteredBy (order : Order) (input : OrderInput) : Prop :=
  ∃ before updateTime volumeLeft status, order =
    { Order.put before (orderFromInput input input.insertTime updateTime) with
      volumeLeft := volumeLeft, status := status }

/-- Every active order stands under the id of the accepted input it was entered by, and of a
positive volume something is left. -/
def Entered (s : Session) : Prop :=
  ∀ (id : UInt64) (order : Order), s.broker.activeOrders[id]? = some order →
    ∃ input ∈ s.accepted, input.orderId = id ∧ EnteredBy order input ∧
      (0 < input.volume → 0 < order.volumeLeft)

theorem Entered.traced {s : Session} (entered : s.Entered) : s.Traced := by
  intro id order entry
  obtain ⟨input, member, named, ⟨_, now, left, status, rfl⟩, _⟩ := entered id order entry
  exact ⟨named, input, member, named, rfl⟩

theorem act_entered {s : Session} (entered : s.Entered) (action : Action) :
    (s.act action).Entered := by
  intro id order entry
  cases s.act_effect entered.traced.keyed action with
  | quiet idle rest kept =>
    rw [kept]
    rcases rest.orders id with same | ⟨old, status, now, was, is, _⟩
    · exact entered id order (same ▸ entry)
    · cases Option.some.inj (entry.symm.trans is)
      obtain ⟨input, member, named, ⟨before, _, left, _, rfl⟩, some⟩ := entered id old was
      exact ⟨input, member, named, ⟨before, now, left, status, rfl⟩, some⟩
  | accepted input taken added trades positions orders =>
    rw [added]
    rw [orders id] at entry
    split at entry
    · rename_i here
      cases entry
      exact ⟨input, by simp, here, ⟨s.broker.activeOrders[id]?, _, _, _, rfl⟩,
        fun positive => positive⟩
    · obtain ⟨input', member, rest⟩ := entered id order entry
      exact ⟨input', List.mem_append_left _ member, rest⟩
  | filled readings key old volume price trade was fill told made kept trades positions orders =>
    rw [kept]
    rw [orders id] at entry
    split at entry
    · rename_i here
      subst id
      rw [orderAfter, Option.ite_none_left_eq_some] at entry
      obtain ⟨more, entry⟩ := entry
      cases entry
      obtain ⟨input, member, named, ⟨before, _, left, status, rfl⟩, some⟩ := entered key old was
      refine ⟨input, member, named, ⟨before, _, _, _, rfl⟩, fun positive => ?_⟩
      have bounds := fillVolume_bounds (some positive) fill
      have cast := castInt64_le bounds.1.le
      exact lt_of_le_of_ne (by linarith) (Ne.symm more)
    · exact entered id order entry

theorem entered_start {b : BrokerSim} (noOrders : b.activeOrders.size = 0) : Entered ⟨b, []⟩ := by
  intro id order entry
  obtain ⟨_, _, absent, _⟩ := traced_start noOrders id order entry
  contradiction

end Session
end BTrader
