import BTrader.Lib.Runs
import BTrader.Broker.Turns

/-! Runs of the simulated broker, told as inserts, cancels and turns of the matching
loop, with what each of these does. -/
namespace BTrader

inductive Event where
  | insert (input : OrderInput)
  | cancel (input : OrderCancel) (now : Int64)
  | round (readings : UInt64 → Reading)

/-- A round is the turns it takes. -/
inductive Action where
  | insert (input : OrderInput)
  | cancel (input : OrderCancel) (now : Int64)
  | turn (readings : UInt64 → Reading) (key : UInt64)

def Response.trade? : Response → Option Trade
  | .trade t => some t
  | .action _ => none

namespace BrokerSim

def handle (b : BrokerSim) : Event → BrokerSim
  | .insert input => (b.insertOrder input).2
  | .cancel input now => (b.cancelOrder input now).2
  | .round readings => b.processOrderMatching readings

def actions (b : BrokerSim) : Event → List Action
  | .insert input => [.insert input]
  | .cancel input now => [.cancel input now]
  | .round readings => b.activeOrders.keys.map (.turn readings)

/-- The trades notified so far. -/
def trades (b : BrokerSim) : List Trade := b.responses.filterMap Response.trade?

/-- The volume of all trades notified for an order. -/
def traded (b : BrokerSim) (orderId : UInt64) : ℚ :=
  ((b.trades.filter fun trade => trade.orderId = orderId).map Trade.volume).sum

/-- Every active order stands under its own id. -/
def Keyed (b : BrokerSim) : Prop :=
  ∀ (id : UInt64) (order : Order), b.activeOrders[id]? = some order → order.orderId = id

instance (status : OrderStatus) : Decidable (Done status) := inferInstanceAs (Decidable (_ ∨ _ ∨ _))

/-- What a turn fills, with the order it fills it of. -/
def fill (b : BrokerSim) : Action → Option (Order × ℚ)
  | .turn readings key =>
    match b.activeOrders[key]? with
    | none => none
    | some order =>
      if Done order.status then none
      else (b.fillVolume order (readings key)).map fun volume => (order, volume)
  | _ => none

/-- Nothing is traded, and an order changes at most its status, and that not to filled. -/
structure Quiet (b b' : BrokerSim) : Prop where
  trades : b'.trades = b.trades
  positions : b'.positions = b.positions
  orders : ∀ id : UInt64, b'.activeOrders[id]? = b.activeOrders[id]? ∨
    ∃ (order : Order) (status : OrderStatus) (now : Int64),
    b.activeOrders[id]? = some order ∧
      b'.activeOrders[id]? = some { order with status := status, updateTime := now } ∧
      (status = .filled → order.status = .filled)

theorem Quiet.refl (b : BrokerSim) : Quiet b b := ⟨rfl, rfl, fun _ => .inl rfl⟩

theorem Quiet.notify (b : BrokerSim) (resp : OrderActionResp) :
    Quiet b (b.notifyResponse (.action resp)) := by
  refine ⟨?_, rfl, fun _ => .inl rfl⟩
  simp [BrokerSim.trades, notifyResponse, Response.trade?]

theorem Quiet.cancelled (b : BrokerSim) (input : OrderCancel) (now : Int64) :
    Quiet b (b.cancelOrder input now).2 := by
  unfold cancelOrder
  split
  · exact .notify b _
  · rename_i order entry
    split
    · refine ⟨?_, rfl, fun id => ?_⟩
      · simp [BrokerSim.trades, notifyResponse, cancelResponse, updateOrderStatus, modifyOrder,
          Response.trade?]
      · have changed := b.updateOrderStatus_get input.targetOrderId .cancelled now id
        by_cases here : input.targetOrderId = id
        · subst id
          rw [if_pos rfl, entry] at changed
          exact .inr ⟨order, .cancelled, now, entry, changed, by simp⟩
        · rw [if_neg here] at changed
          exact .inl changed
    · exact .notify b _

end BrokerSim

/-- A broker that has nothing and has done nothing. -/
def BrokerSim.idle : BrokerSim := ⟨∅, ⟨0, 0, 0, 0⟩, .empty, 0, 0, false, false, []⟩

/-- A call board without the instrument. -/
def Reading.noDepth : Reading :=
  ⟨⟨0, fun _ => 0, fun _ => 0, fun _ => 0, fun _ => 0⟩, 0, 0, 0, 0, 0, 0⟩

def marketOrder (orderId : UInt64) (side : Side) (offset : Offset) (volume : ℚ) : OrderInput :=
  ⟨orderId, 0, "", "", .unknown, 0, 0, volume, false, side, offset, .speculation, .any,
    .any, .ioc, 0⟩

/-- A broker and the orders it has accepted. -/
structure Session where
  broker : BrokerSim
  accepted : List OrderInput

namespace Session
open BrokerSim

def act (s : Session) : Action → Session
  | .insert input =>
    { broker := (s.broker.insertOrder input).2
      accepted := if (s.broker.insertOrder input).1 then s.accepted ++ [input] else s.accepted }
  | .cancel input now => { s with broker := (s.broker.cancelOrder input now).2 }
  | .turn readings key => { s with broker := matchStep readings s.broker key }

/-- The actions a run of events takes. -/
def actions (s : Session) : List Event → List Action
  | [] => []
  | event :: events =>
    s.broker.actions event ++ ((s.broker.actions event).foldl act s).actions events

theorem actions_handle (s : Session) (event : Event) :
    ((s.broker.actions event).foldl act s).broker = s.broker.handle event := by
  cases event with
  | insert input => rfl
  | cancel input now => rfl
  | round readings =>
    have turns (keys : List UInt64) (s : Session) :
        ((keys.map (Action.turn readings)).foldl act s).broker =
          keys.foldl (matchStep readings) s.broker := by
      induction keys generalizing s with
      | nil => rfl
      | cons key keys ih => exact ih _
    exact turns _ s

/-- The states a run of events visits, those within a round included. -/
def visits (s : Session) (events : List Event) : List Session :=
  Runs.states act s (s.actions events)

/-- The actions of the run with the states they are taken in. -/
def moves (s : Session) (events : List Event) : List (Session × Action) :=
  Runs.moves act s (s.actions events)

/-- What one action does. -/
inductive Effect (s t : Session) : Action → Prop where
  | quiet {action : Action} (idle : s.broker.fill action = none) (rest : Quiet s.broker t.broker)
      (kept : t.accepted = s.accepted) : Effect s t action
  | accepted (input : OrderInput) (taken : (s.broker.insertOrder input).1 = true)
      (added : t.accepted = s.accepted ++ [input])
      (trades : t.broker.trades = s.broker.trades)
      (positions : t.broker.positions = s.broker.positions)
      (orders : ∀ id : UInt64, t.broker.activeOrders[id]? =
        if input.orderId = id then
          some (.put s.broker.activeOrders[id]?
            { orderFromInput input input.insertTime input.insertTime with status := .submitted })
        else s.broker.activeOrders[id]?) : Effect s t (.insert input)
  | filled (readings : UInt64 → Reading) (key : UInt64) (order : Order) (volume price : ℚ)
      (trade : Trade)
      (entry : s.broker.activeOrders[key]? = some order)
      (fill : s.broker.fillVolume order (readings key) = some volume)
      (told : s.broker.fill (.turn readings key) = some (order, volume))
      (made : trade = s.broker.generateSummaryTrade order price volume (readings key))
      (kept : t.accepted = s.accepted) (trades : t.broker.trades = s.broker.trades ++ [trade])
      (positions :
        t.broker.positions = bookTrade s.broker.positions trade (readings key).positionTime)
      (orders : ∀ id : UInt64, t.broker.activeOrders[id]? =
        if key = id then orderAfter order volume (readings key).statusTime
        else s.broker.activeOrders[id]?) : Effect s t (.turn readings key)

theorem act_effect (s : Session) (keyed : s.broker.Keyed) (action : Action) :
    Effect s (s.act action) action := by
  cases action with
  | insert input =>
    by_cases short : input.side = .buy ∧ s.broker.asset.avail < input.limitPrice * input.volume
    · have refused : s.broker.insertOrder input = (false, s.broker) := if_pos short
      refine .quiet rfl ?_ ?_
      · simp only [act, refused]
        exact .refl _
      · simp [act, refused]
    · have taken : s.broker.insertOrder input = (true, s.broker.addOrder
          { orderFromInput input input.insertTime input.insertTime with status := .submitted }) :=
            if_neg short
      refine .accepted input (by rw [taken]) ?_ ?_ ?_ fun id => ?_
      · simp [act, taken]
      · simp only [act, taken]
        rfl
      · simp only [act, taken]
        rfl
      · simp only [act, taken]
        exact s.broker.addOrder_get _ id
  | cancel input now => exact .quiet rfl (.cancelled _ input now) rfl
  | turn readings key =>
    cases entry : s.broker.activeOrders[key]? with
    | none =>
      refine .quiet (by simp [fill, entry]) ?_ rfl
      rw [act, matchStep_absent entry]
      exact .refl _
    | some order =>
      have same := keyed key order entry
      by_cases idle : Done order.status ∨ s.broker.fillVolume order (readings key) = none
      · obtain ⟨told, booked, status, now, open_, orders⟩ := matchStep_idle entry same idle
        refine .quiet ?_ ⟨congrArg (List.filterMap Response.trade?) told, booked, fun id => ?_⟩ rfl
        · rcases idle with done | none
          · simp [fill, entry, done]
          · simp [fill, entry, none]
        · have changed := orders id
          by_cases here : key = id
          · subst id
            rw [if_pos rfl] at changed
            exact .inr ⟨order, status, now, entry, changed, open_⟩
          · rw [if_neg here] at changed
            exact .inl changed
      · obtain ⟨live, some⟩ := not_or.mp idle
        obtain ⟨volume, filled⟩ := Option.ne_none_iff_exists'.mp some
        obtain ⟨price, told, booked, orders⟩ := matchStep_fill entry same live filled
        refine .filled readings key order volume price _ entry filled ?_ rfl rfl ?_ booked orders
        · simp [fill, entry, live, filled]
        · change List.filterMap Response.trade? (matchStep readings s.broker key).responses = _
          rw [told, List.filterMap_append]
          rfl

/-- Every active order stands under the id of an accepted one, on whose side it is. -/
def Traced (s : Session) : Prop :=
  ∀ (id : UInt64) (order : Order), s.broker.activeOrders[id]? = some order → order.orderId = id ∧
    ∃ input ∈ s.accepted, input.orderId = id ∧ input.side = order.side

theorem Traced.keyed {s : Session} (traced : s.Traced) : s.broker.Keyed :=
  fun id order entry => (traced id order entry).1

theorem act_traced {s : Session} (traced : s.Traced) (action : Action) : (s.act action).Traced := by
  intro id order entry
  cases s.act_effect traced.keyed action with
  | quiet idle rest kept =>
    rw [kept]
    rcases rest.orders id with same | ⟨old, status, now, was, is, _⟩
    · exact traced id order (same ▸ entry)
    · cases Option.some.inj (entry.symm.trans is)
      exact traced id old was
  | accepted input taken added trades positions orders =>
    rw [added]
    rw [orders id] at entry
    split at entry
    · rename_i here
      cases entry
      exact ⟨here, input, by simp, here, rfl⟩
    · obtain ⟨own, input', member, from_⟩ := traced id order entry
      exact ⟨own, input', List.mem_append_left _ member, from_⟩
  | filled readings key old volume price trade was fill told made kept trades positions orders =>
    rw [kept]
    rw [orders id] at entry
    split at entry
    · rename_i here
      subst id
      rw [orderAfter, Option.ite_none_left_eq_some] at entry
      cases entry.2
      exact traced key old was
    · exact traced id order entry

/-- The orders a run accepts. -/
def acceptedBy (s : Session) (events : List Event) : List OrderInput :=
  ((s.actions events).foldl act s).accepted

theorem act_accepted (s : Session) (action : Action) : s.accepted <+: (s.act action).accepted := by
  cases action with
  | insert input =>
    simp only [act]
    split
    · exact List.prefix_append _ _
    · exact List.prefix_refl _
  | cancel input now => exact List.prefix_refl _
  | turn readings key => exact List.prefix_refl _

/-- A run keeps, in their order, the orders it has accepted. -/
theorem moves_accepted (s : Session) (actions : List Action) :
    s.accepted <+: (actions.foldl act s).accepted ∧
      ∀ move ∈ Runs.moves act s actions,
        (move.1.act move.2).accepted <+: (actions.foldl act s).accepted := by
  induction actions generalizing s with
  | nil => exact ⟨List.prefix_refl _, by simp [Runs.moves]⟩
  | cons action actions ih =>
    obtain ⟨first, later⟩ := ih (s.act action)
    exact ⟨(s.act_accepted action).trans first, List.forall_mem_cons.mpr ⟨first, later⟩⟩

/-- A broker without orders starts a run. -/
theorem traced_start {b : BrokerSim} (noOrders : b.activeOrders.size = 0) : Traced ⟨b, []⟩ := by
  intro id order entry
  have empty : b.activeOrders[id]? = none := by
    apply Std.TreeMap.getElem?_of_isEmpty
    rw [Std.TreeMap.isEmpty_eq_size_eq_zero, noOrders]
    rfl
  rw [empty] at entry
  contradiction

end Session
end BTrader
