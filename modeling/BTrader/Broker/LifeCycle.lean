import BTrader.Broker.Cash
import BTrader.Broker.FillConservation

/-! The life of an order: what can happen to it, and that nothing happens to it once it is
filled, cancelled or in error. -/
namespace BTrader
namespace BrokerSim

variable {b : BrokerSim} {readings : UInt64 → Reading} {key id : UInt64} {order : Order}

theorem insertOrder_cases (b : BrokerSim) (input : OrderInput) : b.insertOrder input = (false, b) ∨
    b.insertOrder input = (true, b.addOrder
      { orderFromInput input input.insertTime input.insertTime with status := .submitted }) := by
  by_cases short : input.side = .buy ∧ b.asset.avail < input.limitPrice * input.volume
  · exact .inl (if_pos short)
  · exact .inr (if_neg short)

/-- A turn leaves the other orders alone. -/
theorem matchStep_other (keyed : b.Keyed) (other : key ≠ id) :
    (matchStep readings b key).activeOrders[id]? = b.activeOrders[id]? := by
  cases entry : b.activeOrders[key]? with
  | none => rw [matchStep_absent entry]
  | some order =>
    have same := keyed key order entry
    by_cases idle : Done order.status ∨ b.fillVolume order (readings key) = none
    · obtain ⟨_, _, _, _, _, orders⟩ := matchStep_idle entry same idle
      rw [orders, if_neg other]
    · obtain ⟨live, some⟩ := not_or.mp idle
      obtain ⟨volume, fill⟩ := Option.ne_none_iff_exists'.mp some
      obtain ⟨_, _, _, orders⟩ := matchStep_fill entry same live fill
      rw [orders, if_neg other]

theorem matchStep_done (entry : b.activeOrders[key]? = some order) (done : Done order.status) :
    matchStep readings b key = b := by
  rw [matchStep, entry]
  exact if_pos done

/-- The statuses an active order can have. -/
def Known (status : OrderStatus) : Prop :=
  cancellable status = true ∨ status = .cancelled ∨ status = .error

theorem Known.cancellable_iff {status : OrderStatus} (known : Known status) :
    cancellable status = true ↔ ¬ Done status := by
  rcases known with live | rfl | rfl
  · refine iff_of_true live ?_
    rintro (rfl | rfl | rfl) <;> contradiction
  · simp [cancellable, Done]
  · simp [cancellable, Done]

/-- A turn of a live order fills it, and it is gone, or leaves it with a known status. -/
theorem matchStep_known (entry : b.activeOrders[key]? = some order) (same : order.orderId = key)
    (live : ¬ Done order.status) (known : Known order.status) :
    ∀ order' ∈ (matchStep readings b key).activeOrders[key]?, Known order'.status := by
  intro order' left
  cases fill : b.fillVolume order (readings key) with
  | some volume =>
    obtain ⟨_, _, _, orders⟩ := matchStep_fill entry same live fill
    rw [orders, if_pos rfl, orderAfter, Option.mem_def, Option.ite_none_left_eq_some] at left
    cases left.2
    exact .inl rfl
  | none =>
    rw [matchStep_live entry live] at left
    rcases matchOrder_none_cases same fill with stays | ⟨status, becomes, changed⟩
    · rw [stays, settled_get, if_pos rfl, entry] at left
      cases (Option.filter_eq_some_iff.mp left).1
      exact known
    · rw [changed, settled_get, if_pos rfl, updateOrderStatus_get, if_pos rfl, entry] at left
      cases (Option.filter_eq_some_iff.mp left).1
      rcases becomes with rfl | rfl
      · exact .inr (.inr rfl)
      · exact .inl rfl

/-- A cancellation is answered once, and with 0 just for an active order that is not done, which
is cancelled then. -/
theorem cancelOrder_response
    (known : ∀ order, b.activeOrders[input.targetOrderId]? = some order → Known order.status)
    (now : Int64) : ∃ errorId,
      (b.cancelOrder input now).2.responses = b.responses ++ [cancelResponse input errorId] ∧
      (errorId = 0 ↔ ∃ order, b.activeOrders[input.targetOrderId]? = some order ∧
        ¬ Done order.status) ∧
      (errorId = 0 → ∀ order ∈ (b.cancelOrder input now).2.activeOrders[input.targetOrderId]?,
        order.status = .cancelled) := by
  unfold cancelOrder
  cases entry : b.activeOrders[input.targetOrderId]? with
  | none => exact ⟨-2, rfl, by simp, by simp⟩
  | some order =>
    have live := (known order entry).cancellable_iff
    by_cases open_ : cancellable order.status
    · refine ⟨0, by simp [open_, notifyResponse, updateOrderStatus, modifyOrder],
        by simp [← live, open_], fun _ => ?_⟩
      simp only [open_, if_true]
      intro order' left
      have changed := b.updateOrderStatus_get input.targetOrderId .cancelled now input.targetOrderId
      rw [if_pos rfl, entry] at changed
      change (b.updateOrderStatus input.targetOrderId .cancelled
        now).activeOrders[input.targetOrderId]? = _ at left
      cases Option.some.inj (changed.symm.trans left)
      rfl
    · exact ⟨-1, by simp [open_, notifyResponse], by simp [← live, open_], by simp⟩

/-- The trades notified for an order. -/
def tradesOf (b : BrokerSim) (orderId : UInt64) : List Trade :=
  b.trades.filter fun trade => trade.orderId = orderId

end BrokerSim

namespace Session
open BrokerSim

/-- Orders are only taken out once they are filled. -/
def statusOf (s : Session) (id : UInt64) : Option OrderStatus :=
  match s.broker.activeOrders[id]? with
  | some order => some order.status
  | none => if id ∈ s.ids then some .filled else none

/-- The order was accepted and is out, or it is done. -/
def Finished (s : Session) (id : UInt64) : Prop :=
  id ∈ s.ids ∧ ∀ order ∈ s.broker.activeOrders[id]?, Done order.status

/-- An accepted order bears a new id. -/
def Fresh (s : Session) (action : Action) : Prop :=
  ∀ input, action = .insert input → (s.broker.insertOrder input).1 → input.orderId ∉ s.ids

structure Living (s : Session) : Prop where
  traced : s.Traced
  known : ∀ (id : UInt64) (order : Order), s.broker.activeOrders[id]? = some order →
    Known order.status

variable {s : Session} {action : Action} {id : UInt64}

theorem Traced.mem_ids (traced : s.Traced) {order : Order}
    (entry : s.broker.activeOrders[id]? = some order) : id ∈ s.ids := by
  obtain ⟨_, input, member, named, _⟩ := traced id order entry
  exact List.mem_map.mpr ⟨input, member, named⟩

theorem act_ids (s : Session) (action : Action) : s.ids ⊆ (s.act action).ids :=
  (s.act_accepted action).subset |> List.map_subset _

theorem finished_iff (traced : s.Traced) :
    s.Finished id ↔ ∃ status, s.statusOf id = some status ∧ Done status := by
  unfold Finished statusOf
  cases entry : s.broker.activeOrders[id]? with
  | none => simp [Done]
  | some order => simp [traced.mem_ids entry]

/-- A finished order is not touched. -/
theorem act_finished_entry (living : s.Living) (fresh : s.Fresh action) (finished : s.Finished id) :
    (s.act action).broker.activeOrders[id]? = s.broker.activeOrders[id]? := by
  obtain ⟨known, done⟩ := finished
  cases action with
  | insert input =>
    change (s.broker.insertOrder input).2.activeOrders[id]? = _
    rcases insertOrder_cases s.broker input with refused | taken
    · rw [refused]
    · have apart : input.orderId ≠ id := by
        rintro rfl
        exact fresh input rfl (by rw [taken]) known
      rw [taken, addOrder_get]
      exact if_neg apart
  | cancel input now =>
    change (s.broker.cancelOrder input now).2.activeOrders[id]? = _
    unfold cancelOrder
    split
    · rfl
    · rename_i order entry
      split
      · rename_i live
        have apart : input.targetOrderId ≠ id := by
          rintro rfl
          exact (living.known _ order entry).cancellable_iff.mp live (done order entry)
        exact (updateOrderStatus_get _ _ _ _ _).trans (if_neg apart)
      · rfl
  | turn readings key =>
    change (matchStep readings s.broker key).activeOrders[id]? = _
    by_cases here : key = id
    · subst here
      cases entry : s.broker.activeOrders[key]? with
      | none => rw [matchStep_absent entry, entry]
      | some order => rw [matchStep_done entry (done order entry), entry]
    · exact matchStep_other living.traced.keyed here

/-- What is traded is a live order. -/
theorem made_live {order : Order} {trade : Trade} (traced : s.Traced)
    (made : s.broker.made action = some (order, trade)) :
    s.broker.activeOrders[trade.orderId]? = some order ∧ ¬ Done order.status := by
  obtain ⟨readings, key, rfl, _⟩ := act_made made
  obtain ⟨volume, entry, live, _, told⟩ := made_turn made
  have own : trade.orderId = key := by
    rw [told]
    exact traced.keyed key order entry
  exact ⟨own ▸ entry, live⟩

theorem act_finished (living : s.Living) (fresh : s.Fresh action) (finished : s.Finished id) :
    (s.act action).Finished id ∧ (s.act action).statusOf id = s.statusOf id ∧
      (s.act action).broker.tradesOf id = s.broker.tradesOf id := by
  have entry := act_finished_entry living fresh finished
  have known := act_ids s action finished.1
  refine ⟨⟨known, ?_⟩, ?_, ?_⟩
  · rw [entry]
    exact finished.2
  · rw [statusOf, statusOf, entry]
    simp only [known, finished.1]
  · cases made : s.broker.made action with
    | none => rw [tradesOf, (act_unmade living.traced made).2.1, tradesOf]
    | some filled =>
      obtain ⟨order, trade⟩ := filled
      obtain ⟨there, live⟩ := made_live living.traced made
      have apart : trade.orderId ≠ id := by
        rintro rfl
        exact live (finished.2 order there)
      rw [tradesOf, (act_asset made).1, List.filter_append, tradesOf]
      simp [apart]

theorem act_living (living : s.Living) (action : Action) : (s.act action).Living := by
  refine ⟨act_traced living.traced action, fun id order entry => ?_⟩
  cases action with
  | insert input =>
    change (s.broker.insertOrder input).2.activeOrders[id]? = _ at entry
    rcases insertOrder_cases s.broker input with refused | taken
    · rw [refused] at entry
      exact living.known id order entry
    · rw [taken, addOrder_get] at entry
      split at entry
      · cases entry
        exact .inl rfl
      · exact living.known id order entry
  | cancel input now =>
    change (s.broker.cancelOrder input now).2.activeOrders[id]? = _ at entry
    rcases (Quiet.cancelled s.broker input now).orders id with same | _
    · exact living.known id order (same ▸ entry)
    · unfold cancelOrder at entry
      split at entry
      · exact living.known id order entry
      · split at entry
        · change (updateOrderStatus _ _ _ _).activeOrders[id]? = _ at entry
          rw [updateOrderStatus_get] at entry
          split at entry
          · obtain ⟨old, _, rfl⟩ := Option.map_eq_some_iff.mp entry
            exact .inr (.inl rfl)
          · exact living.known id order entry
        · exact living.known id order entry
  | turn readings key =>
    change (matchStep readings s.broker key).activeOrders[id]? = _ at entry
    by_cases here : key = id
    · subst here
      cases before : s.broker.activeOrders[key]? with
      | none =>
        rw [matchStep_absent before, before] at entry
        contradiction
      | some old =>
        by_cases done : Done old.status
        · rw [matchStep_done before done] at entry
          exact living.known key order entry
        · exact matchStep_known before (living.traced.keyed key old before) done
            (living.known key old before) order entry
    · rw [matchStep_other living.traced.keyed here] at entry
      exact living.known id order entry

/-- No trade comes behind the acknowledgement of a cancellation, whose order is finished. -/
def Silent (s : Session) : Prop :=
  ∀ before resp after, s.broker.responses = before ++ .action resp :: after → resp.errorId = 0 →
    s.Finished resp.orderId ∧ ∀ trade, .trade trade ∈ after → trade.orderId ≠ resp.orderId

theorem Silent.append {response : Response} {t : Session} (silent : s.Silent)
    (finished : ∀ id, s.Finished id → t.Finished id)
    (added : t.broker.responses = s.broker.responses ++ [response])
    (trade : ∀ trade, response = .trade trade → ¬ s.Finished trade.orderId)
    (ack : ∀ resp, response = .action resp → resp.errorId = 0 → t.Finished resp.orderId) :
      t.Silent := by
  intro before resp after split zero
  rw [added] at split
  rcases List.eq_nil_or_concat after with rfl | ⟨after', last, rfl⟩
  · have same := (List.append_inj' split rfl).2
    exact ⟨ack resp (List.cons.inj same).1 zero, by simp⟩
  · rw [List.concat_eq_append, ← List.cons_append, ← List.append_assoc] at split
    obtain ⟨old, same⟩ := List.append_inj' split rfl
    obtain ⟨done, quiet⟩ := silent before resp after' old zero
    refine ⟨finished _ done, fun told member => ?_⟩
    rw [List.concat_eq_append, List.mem_append, List.mem_singleton] at member
    rcases member with earlier | rfl
    · exact quiet told earlier
    · intro here
      exact trade told (List.cons.inj same).1 (here ▸ done)

theorem Silent.same {t : Session} (silent : s.Silent)
    (finished : ∀ id, s.Finished id → t.Finished id)
    (same : t.broker.responses = s.broker.responses) : t.Silent := by
  intro before resp after split zero
  rw [same] at split
  obtain ⟨done, quiet⟩ := silent before resp after split zero
  exact ⟨finished _ done, quiet⟩

theorem act_silent (living : s.Living) (fresh : s.Fresh action) (silent : s.Silent) :
    (s.act action).Silent := by
  have finished (id : UInt64) (before : s.Finished id) := (act_finished living fresh before).1
  cases action with
  | insert input =>
    refine silent.same finished ?_
    change (s.broker.insertOrder input).2.responses = _
    rcases insertOrder_cases s.broker input with refused | taken
    · rw [refused]
    · rw [taken]
      rfl
  | cancel input now =>
    obtain ⟨errorId, told, zero, cancelled⟩ :=
      cancelOrder_response (living.known input.targetOrderId) now
    refine silent.append finished told (by simp [cancelResponse]) fun resp same ok => ?_
    cases Response.action.inj same
    obtain ⟨order, entry, _⟩ := zero.mp ok
    refine ⟨act_ids s _ (living.traced.mem_ids entry), fun order left => ?_⟩
    exact .inr (.inl (cancelled ok order left))
  | turn readings key =>
    cases made : s.broker.made (.turn readings key) with
    | none =>
      refine silent.same finished ?_
      have rest := congrArg BrokerSim.responses (matchStep_unmade living.traced.keyed made)
      exact rest
    | some filled =>
      obtain ⟨order, trade⟩ := filled
      have rest := congrArg BrokerSim.responses (matchStep_made made)
      refine silent.append finished rest (fun told same done => ?_) (by simp)
      cases Response.trade.inj same
      obtain ⟨entry, live⟩ := made_live living.traced made
      exact live (done.2 order entry)

/-- Where accepted orders bear different ids: a finished order keeps its status and its trades
from then on, no trade follows the acknowledgement of its cancellation, and every cancellation
is answered once, with 0 just for an active order that is not finished. -/
theorem life_cycle (cfg : SimulationCfg) (now : Int64) (events : List Event)
    (distinct : ((acceptedBy ⟨(make now).setup cfg, []⟩ events).map OrderInput.orderId).Nodup) :
    (∀ earlier later, actions ⟨(make now).setup cfg, []⟩ events = earlier ++ later → ∀ id status,
      statusOf (earlier.foldl act ⟨(make now).setup cfg, []⟩) id = some status → Done status →
        ∀ t ∈ Runs.states act (earlier.foldl act ⟨(make now).setup cfg, []⟩) later,
          t.statusOf id = some status ∧
            t.broker.tradesOf id =
              (earlier.foldl act ⟨(make now).setup cfg, []⟩).broker.tradesOf id) ∧
    (∀ s ∈ visits ⟨(make now).setup cfg, []⟩ events, ∀ before resp after,
      s.broker.responses = before ++ .action resp :: after → resp.errorId = 0 →
        ∀ trade, .trade trade ∈ after → trade.orderId ≠ resp.orderId) ∧
    ∀ s ∈ visits ⟨(make now).setup cfg, []⟩ events, ∀ input time, ∃ errorId,
      (s.broker.cancelOrder input time).2.responses =
        s.broker.responses ++ [cancelResponse input errorId] ∧
        (errorId = 0 ↔
          ∃ order, s.broker.activeOrders[input.targetOrderId]? = some order ∧
            ¬ Done order.status) := by
  let start : Session := ⟨(make now).setup cfg, []⟩
  have started : start.Living ∧ start.Silent := by
    refine ⟨⟨traced_start rfl, fun id order entry => ?_⟩, fun before resp after split => ?_⟩
    · obtain ⟨_, _, absent, _⟩ := traced_start (b := (make now).setup cfg) rfl id order entry
      contradiction
    · simp [start, make, setup] at split
  have fresh : ∀ move ∈ Runs.moves act start (start.actions events), move.1.Fresh move.2 := by
    intro move member input given taken
    exact (moves_new start _ distinct move member input given taken).1
  have kept : ∀ s action, Living s ∧ Silent s → s.Fresh action → Living (s.act action) ∧
      Silent (s.act action) :=
    fun s action sound new => ⟨act_living sound.1 action, act_silent sound.1 new sound.2⟩
  have sound := Runs.invariant kept started _ fresh
  refine ⟨fun earlier later split id status here done => ?_,
    fun s visited before resp after told zero => ?_, fun s visited input time => ?_⟩
  · let s := earlier.foldl act start
    have visited : s ∈ Runs.states act start (start.actions events) := by
      rw [split]
      exact Runs.foldl_mem_states start earlier later
    have living := (sound s visited).1
    have finished := (finished_iff living.traced).mpr ⟨status, here, done⟩
    let inv (t : Session) := t.Living ∧ t.Finished id ∧ t.statusOf id = some status ∧
      t.broker.tradesOf id = s.broker.tradesOf id
    have stays : ∀ t action, inv t → t.Fresh action → inv (t.act action) := by
      rintro t action ⟨alive, ended, same, trades⟩ new
      obtain ⟨ended', same', trades'⟩ := act_finished alive new ended
      exact ⟨act_living alive action, ended', same'.trans same, trades'.trans trades⟩
    have new : ∀ move ∈ Runs.moves act s later, move.1.Fresh move.2 := by
      intro move member
      refine fresh move ?_
      rw [split, Runs.moves_append]
      exact List.mem_append_right _ member
    intro t reached
    exact (Runs.invariant stays ⟨living, finished, here, rfl⟩ later new t reached).2.2
  · exact ((sound s visited).2 before resp after told zero).2
  · obtain ⟨errorId, told, zero, _⟩ :=
      cancelOrder_response ((sound s visited).1.known input.targetOrderId) time
    exact ⟨errorId, told, zero⟩

/-- One unit is sold, and the order cancelled too late. -/
def cancelledLate : List Event := sellOne ++ [.cancel ⟨9, 7⟩ 0]

theorem life_cycle_late :
    (visits ⟨(make 0).setup defaults, []⟩ cancelledLate).length = 4 ∧
    (∀ earlier later, actions ⟨(make 0).setup defaults, []⟩ cancelledLate = earlier ++ later →
      ∀ id status,
      statusOf (earlier.foldl act ⟨(make 0).setup defaults, []⟩) id = some status → Done status →
        ∀ t ∈ Runs.states act (earlier.foldl act ⟨(make 0).setup defaults, []⟩) later,
          t.statusOf id = some status ∧
            t.broker.tradesOf id =
              (earlier.foldl act ⟨(make 0).setup defaults, []⟩).broker.tradesOf id) ∧
    (∀ s ∈ visits ⟨(make 0).setup defaults, []⟩ cancelledLate, ∀ before resp after,
      s.broker.responses = before ++ .action resp :: after → resp.errorId = 0 →
        ∀ trade, .trade trade ∈ after → trade.orderId ≠ resp.orderId) ∧
    ∀ s ∈ visits ⟨(make 0).setup defaults, []⟩ cancelledLate, ∀ input time, ∃ errorId,
      (s.broker.cancelOrder input time).2.responses =
        s.broker.responses ++ [cancelResponse input errorId] ∧
        (errorId = 0 ↔
          ∃ order, s.broker.activeOrders[input.targetOrderId]? = some order ∧
            ¬ Done order.status) :=
  ⟨by decide +kernel, life_cycle defaults 0 cancelledLate (by decide +kernel)⟩

end Session
end BTrader
