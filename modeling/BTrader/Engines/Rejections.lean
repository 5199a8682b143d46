import BTrader.Broker.OrderConditions
import BTrader.Engines.OrderRouting

/-! The orders that the trade engine and the simulated broker reject, and whether they tell. -/
namespace BTrader
open Procedure

namespace BrokerSim

theorem act_keyed {s : Session} (keyed : s.broker.Keyed) (action : Action) :
    (s.act action).broker.Keyed := by
  intro id order entry
  cases s.act_effect keyed action with
  | quiet idle rest kept =>
    rcases rest.orders id with same | ⟨old, status, now, was, is, _⟩
    · exact keyed id order (same ▸ entry)
    · cases Option.some.inj (entry.symm.trans is)
      exact keyed id old was
  | accepted input taken added trades positions orders =>
    rw [orders id] at entry
    split at entry
    · rename_i here
      cases entry
      exact here
    · exact keyed id order entry
  | filled readings key old volume price trade was fill told made kept trades positions orders =>
    rw [orders id] at entry
    split at entry
    · rename_i here
      subst here
      rw [orderAfter, Option.ite_none_left_eq_some] at entry
      cases entry.2
      exact keyed key old was
    · exact keyed id order entry

variable {b : BrokerSim}

theorem handle_keyed (keyed : b.Keyed) (event : Event) : (b.handle event).Keyed := by
  have kept (s : Session) (action : Action) (keyed : s.broker.Keyed) (_ : True) :
      (s.act action).broker.Keyed :=
    act_keyed keyed action
  have start : (⟨b, []⟩ : Session).broker.Keyed := keyed
  rw [← Session.actions_handle ⟨b, []⟩ event]
  exact Runs.invariant kept start _ (fun _ _ => trivial) _ (Runs.last_mem _ _)

/-- A response of the second state that the first does not have tells an error of the order. -/
def Told (b b' : BrokerSim) (id : UInt64) : Prop :=
  ∃ resp, .action resp ∈ b'.responses.drop b.responses.length ∧ resp.orderId = id ∧ resp.errorId ≠ 0

theorem not_told (same : b'.responses = b.responses) (id : UInt64) : ¬ Told b b' id := by
  simp [Told, same]

/-- Every order that came into error is told. -/
def ErrorsTold (b b' : BrokerSim) : Prop :=
  ∀ (id : UInt64) (order order' : Order), b.activeOrders[id]? = some order →
    b'.activeOrders[id]? = some order' →
    order.status ≠ .error → order'.status = .error → Told b b' id

/-- The turn comes to a live buy without depth that the cash is short of. -/
def Fails (readings : UInt64 → Reading) (b : BrokerSim) (key : UInt64) : Prop :=
  ∃ order ∈ b.activeOrders[key]?, ¬ Done order.status ∧ (readings key).depth.realDepthSize = 0 ∧
    b.Short order (readings key)

variable {readings : UInt64 → Reading} {key : UInt64}

instance : Decidable (Fails readings b key) :=
  inferInstanceAs (Decidable (∃ order ∈ b.activeOrders[key]?,
  ¬ Done order.status ∧ (readings key).depth.realDepthSize = 0 ∧ b.Short order (readings key)))

/-- Only a turn that fails brings an order into error. -/
theorem matchStep_error (keyed : b.Keyed) {id : UInt64} {order' : Order}
    (after : (matchStep readings b key).activeOrders[id]? = some order')
    (failed : order'.status = .error) :
    b.activeOrders[id]? = some order' ∨ key = id ∧ Fails readings b key := by
  by_cases here : key = id
  · subst here
    cases entry : b.activeOrders[key]? with
    | none =>
      rw [matchStep_absent entry, entry] at after
      contradiction
    | some order =>
      by_cases done : Done order.status
      · rw [matchStep_done entry done, entry] at after
        exact .inl after
      · have same := keyed key order entry
        cases fill : b.fillVolume order (readings key) with
        | some volume =>
          obtain ⟨_, _, _, orders⟩ := matchStep_fill entry same done fill
          rw [orders, if_pos rfl, orderAfter, Option.ite_none_left_eq_some] at after
          cases after.2
          contradiction
        | none =>
          by_cases noDepth : (readings key).depth.realDepthSize = 0
          · have short : b.Short order (readings key) := by
              rw [fillVolume, if_pos noDepth] at fill
              simpa [Short] using fill
            exact .inr ⟨rfl, order, entry, done, noDepth, short⟩
          · rw [matchStep_live entry done, settled_get, if_pos rfl] at after
            rcases matchOrder_waits noDepth fill with stays | waits
            · rw [stays, entry, Option.filter_eq_some_iff] at after
              exact .inl after.1
            · rw [waits, updateOrderStatus_get, if_pos rfl, entry,
                Option.filter_eq_some_iff] at after
              cases after.1
              contradiction
  · rw [matchStep_other keyed here] at after
    exact .inl after

theorem matchStep_fails (keyed : b.Keyed) (fails : Fails readings b key) :
    ∃ order, (matchStep readings b key).activeOrders[key]? = some order ∧
      order.status = .error := by
  obtain ⟨order, entry, live, noDepth, short⟩ := fails
  have fill : b.fillVolume order (readings key) = none := by
    rw [fillVolume, if_pos noDepth]
    exact if_pos short
  refine ⟨{ order with status := .error, updateTime := (readings key).statusTime }, ?_, rfl⟩
  rw [matchStep_live entry live, settled_get, if_pos rfl,
    matchOrder_short (keyed key order entry) noDepth fill, updateOrderStatus_get, if_pos rfl, entry]
  simp

/-- A turn leaves an order that is in error, and brings no order in. -/
theorem matchStep_stands (keyed : b.Keyed) (id : UInt64) :
    (∀ order, b.activeOrders[id]? = some order → order.status = .error →
      (matchStep readings b key).activeOrders[id]? = some order) ∧
    (b.activeOrders[id]? = none → (matchStep readings b key).activeOrders[id]? = none) := by
  by_cases here : key = id
  · subst here
    constructor
    · intro order entry failed
      rw [matchStep_done entry (.inr (.inr failed)), entry]
    · intro absent
      rw [matchStep_absent absent, absent]
  · rw [matchStep_other keyed here]
    exact ⟨fun _ entry _ => entry, fun absent => absent⟩

theorem matchStep_keyed (keyed : b.Keyed) (key : UInt64) : (matchStep readings b key).Keyed :=
  act_keyed (s := ⟨b, []⟩) keyed (.turn readings key)

/-- The turns of a round respond with trades only. -/
theorem turns_responses (keyed : b.Keyed) (keys : List UInt64) :
    ∃ trades : List Trade, (keys.foldl (matchStep readings) b).responses =
      b.responses ++ trades.map .trade := by
  induction keys generalizing b with
  | nil => exact ⟨[], (List.append_nil _).symm⟩
  | cons key keys ih =>
    obtain ⟨trades, later⟩ := ih (matchStep_keyed keyed key)
    rw [List.foldl_cons, later]
    cases made : b.made (.turn readings key) with
    | none =>
      have same := congrArg BrokerSim.responses (matchStep_unmade keyed made)
      change (matchStep readings b key).responses = b.responses at same
      exact ⟨trades, by rw [same]⟩
    | some filled =>
      obtain ⟨order, trade⟩ := filled
      have added := congrArg BrokerSim.responses (matchStep_made made)
      change (matchStep readings b key).responses = b.responses ++ [.trade trade] at added
      exact ⟨trade :: trades, by rw [added, List.append_assoc]; rfl⟩

/-- No order has come into error. -/
def Unharmed (b b' : BrokerSim) : Prop :=
  ∀ (id : UInt64) (order order' : Order), b.activeOrders[id]? = some order →
    b'.activeOrders[id]? = some order' →
    order.status ≠ .error → order'.status ≠ .error

/-- The orders that were in error are as they were, and no new ones are there. -/
structure Stands (b t : BrokerSim) : Prop where
  keyed : t.Keyed
  failed : ∀ (id : UInt64) (order : Order), b.activeOrders[id]? = some order →
    order.status = .error →
    t.activeOrders[id]? = some order
  absent : ∀ id : UInt64, b.activeOrders[id]? = none → t.activeOrders[id]? = none

theorem Stands.matchStep {t : BrokerSim} (stands : Stands b t) (key : UInt64) :
    Stands b (matchStep readings t key) where
  keyed := matchStep_keyed stands.keyed key
  failed id order was failed :=
    (matchStep_stands stands.keyed id).1 order (stands.failed id order was failed) failed
  absent id was := (matchStep_stands stands.keyed id).2 (stands.absent id was)

theorem matchStep_unharmed_iff {t : BrokerSim} (stands : Stands b t) :
    Unharmed b (matchStep readings t key) ↔ Unharmed b t ∧ ¬ Fails readings t key := by
  constructor
  · intro all
    constructor
    · intro id order order' was is_ fine failed
      exact all id order order' was
        ((matchStep_stands stands.keyed id).1 order' is_ failed) fine failed
    · intro fails
      obtain ⟨order', after, failed⟩ := matchStep_fails stands.keyed fails
      obtain ⟨order, entry, live, _⟩ := fails
      cases was : b.activeOrders[key]? with
      | none =>
        rw [stands.absent key was] at entry
        contradiction
      | some first =>
        refine all key first order' was after (fun before => live ?_) failed
        cases Option.some.inj (entry.symm.trans (stands.failed key first was before))
        exact .inr (.inr before)
  · rintro ⟨before, fine⟩ id order order' was after ok failed
    rcases matchStep_error stands.keyed after failed with same | ⟨_, fails⟩
    · exact before id order order' was same ok failed
    · exact fine fails

/-- A round tells every order that it brings into error just when no turn of it fails. -/
theorem round_tells_iff (keyed : b.Keyed) (readings : UInt64 → Reading) :
    ErrorsTold b (b.processOrderMatching readings) ↔
      ∀ move ∈ Runs.moves (matchStep readings) b b.activeOrders.keys,
        ¬ Fails readings move.1 move.2 := by
  have told : ∃ trades : List Trade, (b.processOrderMatching readings).responses =
      b.responses ++ trades.map .trade :=
    turns_responses keyed b.activeOrders.keys
  obtain ⟨trades, responses⟩ := told
  have silent (id : UInt64) : ¬ Told b (b.processOrderMatching readings) id := by
    rintro ⟨resp, told, _⟩
    rw [responses, List.drop_left] at told
    simp at told
  have unharmed : ErrorsTold b (b.processOrderMatching readings) ↔
      Unharmed b (b.processOrderMatching readings) := by
    constructor
    · intro all id order order' was after fine failed
      exact silent id (all id order order' was after fine failed)
    · intro all id order order' was after fine failed
      exact absurd failed (all id order order' was after fine)
  have kept (t : BrokerSim) (key : UInt64) (stands : Stands b t) :
      Stands b (matchStep readings t key) :=
    stands.matchStep key
  have survives (t : BrokerSim) (key : UInt64) (stands : Stands b t) :
      Unharmed b (matchStep readings t key) ↔ Unharmed b t ∧ ¬ Fails readings t key :=
        matchStep_unharmed_iff stands
  have started : Stands b b := ⟨keyed, fun _ _ was _ => was, fun _ was => was⟩
  have first : Unharmed b b := by
    intro id order order' was after fine
    cases Option.some.inj (was.symm.trans after)
    exact fine
  rw [unharmed]
  exact (Runs.final_iff kept survives started b.activeOrders.keys).trans (and_iff_right first)

end BrokerSim

/-- The simulated broker as a service; every active order stands under its own id. -/
structure SimService where
  broker : BrokerSim
  keyed : broker.Keyed
  state : BrokerState
  running : Bool

namespace SimService
open BrokerSim

def handle (s : SimService) (event : Event) : SimService :=
  { s with broker := s.broker.handle event, keyed := handle_keyed s.keyed event }

theorem make_keyed (now : Int64) : (make now).Keyed := by
  intro id order entry
  obtain ⟨_, _, absent, _⟩ := Session.traced_start (b := make now) rfl id order entry
  contradiction

end SimService

/-- The service of an account at the institution `simulation`: `now` and `readings` are what it
reads of the clocks and the depth, `extra` is that part of the account's configuration. -/
def simService (now : Int64) (readings : UInt64 → Reading) (extra : Account → SimulationCfg) :
    TradeService SimService where
  create := fun _ => ⟨BrokerSim.make now, SimService.make_keyed now, .disConnected, false⟩
  setup := fun account s => { s with broker := s.broker.setup (extra account), keyed := s.keyed }
  start := fun s => if s.running then s else { s with running := true, state := .ready }
  getState := SimService.state
  insertOrder := fun input s => ((s.broker.insertOrder input).1, s.handle (.insert input))
  cancelOrder := fun input s => ((s.broker.cancelOrder input now).1, s.handle (.cancel input now))
  reqAccountInfo := fun _ s => (true, s)
  handleBacktestSyncSignal := fun _ s => (true, s.handle (.round readings))

namespace TDEngine
open BrokerSim
variable {now : Int64} {readings : UInt64 → Reading} {extra : Account → SimulationCfg}
    {cfg : MainCfg}

/-- The account's broker has the order in the second state, or has told its rejection in between. -/
def Accounted (before after : TDEngine SimService) (uid : UInt32) (id : UInt64) : Prop :=
  ∃ account s account' s', before.tradeServices uid = some (account, s) ∧
    after.tradeServices uid = some (account', s') ∧
      (id ∈ s'.broker.activeOrders ∨ Told s.broker s'.broker id)

/-- The account has a ready broker with enough cash, or has an order of that id already. -/
def Takes (engine : TDEngine SimService) (uid : UInt32) (input : OrderInput) : Prop :=
  ∃ account s, engine.tradeServices uid = some (account, s) ∧
    (input.orderId ∈ s.broker.activeOrders ∨
      s.state = .ready ∧
        ¬ (input.side = .buy ∧ s.broker.asset.avail < input.limitPrice * input.volume))

/-- An account that is asked keeps its service, in the next state when it is ready. -/
theorem ask_asked {σ : Type} (service : TradeService σ) (accountUid : UInt32) (f : σ → Bool × σ)
    (engine : TDEngine σ) :
    (after (ask service accountUid f) engine).tradeServices accountUid =
      (engine.tradeServices accountUid).map fun entry =>
        (entry.1, if service.getState entry.2 = .ready then (f entry.2).2 else entry.2) := by
  unfold after ask
  cases entry : engine.tradeServices accountUid with
  | none => exact entry
  | some found =>
    obtain ⟨account, s⟩ := found
    by_cases ready : service.getState s = .ready
    · simp [ready]
    · simp [ready, entry]

theorem insertOrder_accounted_iff (engine : TDEngine SimService) (input : OrderInput) :
    Accounted engine (after (insertOrder (simService now readings extra) cfg input) engine)
        (toAccountUid input.orderId cfg.getTdLocationUid) input.orderId ↔
      Takes engine (toAccountUid input.orderId cfg.getTdLocationUid) input := by
  let service := simService now readings extra
  have asked :=
    ask_asked service (toAccountUid input.orderId cfg.getTdLocationUid)
      (service.insertOrder input) engine
  change (after (insertOrder service cfg input) engine).tradeServices _ = _ at asked
  cases entry : engine.tradeServices (toAccountUid input.orderId cfg.getTdLocationUid) with
  | none => simp [Accounted, Takes, entry]
  | some found =>
    obtain ⟨account, s⟩ := found
    rw [entry, Option.map_some] at asked
    simp only [Accounted, Takes, entry, asked, service]
    by_cases ready : s.state = .ready
    · have handled : (if (simService now readings extra).getState s = .ready then
          ((simService now readings extra).insertOrder input s).2 else s) =
            s.handle (.insert input) := if_pos ready
      rw [handled]
      by_cases short : input.side = .buy ∧ s.broker.asset.avail < input.limitPrice * input.volume
      · have refused : s.broker.insertOrder input = (false, s.broker) := if_pos short
        have same : (s.handle (.insert input)).broker = s.broker := congrArg Prod.snd refused
        simp [same, short, not_told]
      · have taken : s.broker.insertOrder input = (true, s.broker.addOrder
            { orderFromInput input input.insertTime input.insertTime with status := .submitted }) :=
              if_neg short
        have entered : input.orderId ∈ (s.handle (.insert input)).broker.activeOrders := by
          change input.orderId ∈ (s.broker.insertOrder input).2.activeOrders
          rw [taken]
          simp [addOrder, orderFromInput]
        exact iff_of_true ⟨_, _, _, _, rfl, rfl, .inl entered⟩ ⟨_, _, rfl, .inr ⟨ready, short⟩⟩
    · have refused : ¬ (simService now readings extra).getState s = .ready := ready
      simp [refused, ready, not_told]

/-- No rejection is silent: an order that comes in is accounted for just when its account has a
ready broker with the cash, or had an order of that id, and a round tells all errors just
when it comes to no live buy without depth that the cash is short of. -/
theorem no_silent_rejection_iff (now : Int64) (readings : UInt64 → Reading)
    (extra : Account → SimulationCfg) (cfg : MainCfg) :
    (∀ (engine : TDEngine SimService) (input : OrderInput),
      Accounted engine (after (insertOrder (simService now readings extra) cfg input) engine)
          (toAccountUid input.orderId cfg.getTdLocationUid) input.orderId ↔
        Takes engine (toAccountUid input.orderId cfg.getTdLocationUid) input) ∧
    ∀ s : SimService, ErrorsTold s.broker (s.handle (.round readings)).broker ↔
      ∀ move ∈ Runs.moves (matchStep readings) s.broker s.broker.activeOrders.keys,
        ¬ Fails readings move.1 move.2 :=
  ⟨insertOrder_accounted_iff, fun s => round_tells_iff s.keyed readings⟩

def sims : TradeService SimService := simService 0 (fun _ => .noDepth) fun _ => Session.defaults

/-- A configuration with one account. -/
def oneAccount (account : Account) : MainCfg := ⟨.backtest, "/runtime", [], [account]⟩

/-- A market buy is worth 100 a unit without a limit price. -/
def dear (orderId : UInt64) (limitPrice : ℚ) : OrderInput :=
  { marketOrder orderId .buy .open_ 20000 with limitPrice := limitPrice }

/-- The service of a broker that has taken that order. -/
def dearTaken (account : Account) : SimService :=
  (sims.start (sims.setup account (sims.create account.institution))).handle (.insert (dear 7 0))

theorem onSetup_one (account : Account) :
    (onSetup sims (oneAccount account) 0).tradeServices account.dest =
    some (account, sims.setup account (sims.create account.institution)) :=
      Function.update_self _ _ _

theorem started_one (account : Account) :
    (after (onTradingStart sims 0) (onSetup sims (oneAccount account) 0)).tradeServices
      account.dest =
      some (account, sims.start (sims.setup account (sims.create account.institution))) := by
  change ((onSetup sims (oneAccount account) 0).tradeServices account.dest).map _ = _
  rw [onSetup_one]
  rfl

/-- Nobody hears of an order that comes before the start, of one that the cash is short of, and
of one that the first round finds too dear. -/
theorem rejected_silently :
    ∃ (account : Account) (id : UInt64),
      account.institution = "simulation" ∧ toAccountUid id (oneAccount account).getTdLocationUid =
        account.dest ∧
      (¬ Accounted (onSetup sims (oneAccount account) 0)
        (after (insertOrder sims (oneAccount account) (dear id 0))
          (onSetup sims (oneAccount account) 0))
        account.dest id) ∧
      (¬ Accounted (after (onTradingStart sims 0) (onSetup sims (oneAccount account) 0))
        (after (insertOrder sims (oneAccount account) (dear id 100))
          (after (onTradingStart sims 0) (onSetup sims (oneAccount account) 0)))
        account.dest id) ∧
      ¬ ErrorsTold (dearTaken account).broker
        ((dearTaken account).handle (.round fun _ => .noDepth)).broker := by
  have simulated : ∃ account : Account, account.institution = "simulation" :=
    ⟨⟨"simulation", "account"⟩, rfl⟩
  obtain ⟨account, named⟩ := simulated
  have issued :
      ∃ id : UInt64, toAccountUid id (oneAccount account).getTdLocationUid = account.dest :=
    ⟨_, toAccountUid_frameUid (oneAccount account).tdLocation account.dest 0 0 0⟩
  obtain ⟨id, routed⟩ := issued
  have empty : ¬ id ∈ (sims.setup account (sims.create account.institution)).broker.activeOrders :=
    Std.TreeMap.not_mem_emptyc
  refine ⟨account, id, named, routed, fun accounted => ?_, fun accounted => ?_, fun told => ?_⟩
  · have takes := (insertOrder_accounted_iff (onSetup sims (oneAccount account) 0) (dear id 0)).mp
      (routed.symm ▸ accounted)
    obtain ⟨_, s, entry, held⟩ := takes
    change (onSetup sims (oneAccount account) 0).tradeServices
      (toAccountUid id (oneAccount account).getTdLocationUid) = _ at entry
    rw [routed, onSetup_one, Option.some.injEq, Prod.mk.injEq] at entry
    obtain ⟨_, rfl⟩ := entry
    rcases held with here | ⟨ready, _⟩
    · exact empty here
    · contradiction
  · have takes :=
      (insertOrder_accounted_iff
        (after (onTradingStart sims 0) (onSetup sims (oneAccount account) 0))
      (dear id 100)).mp (routed.symm ▸ accounted)
    obtain ⟨_, s, entry, held⟩ := takes
    change (after (onTradingStart sims 0) (onSetup sims (oneAccount account) 0)).tradeServices
      (toAccountUid id (oneAccount account).getTdLocationUid) = _ at entry
    rw [routed, started_one, Option.some.injEq, Prod.mk.injEq] at entry
    obtain ⟨_, rfl⟩ := entry
    rcases held with here | ⟨_, enough⟩
    · exact empty here
    · refine enough ⟨rfl, ?_⟩
      change (1000000 : ℚ) < 100 * 20000
      norm_num
  · have fine := (round_tells_iff (dearTaken account).keyed _).mp told
    have taken : (dearTaken account).broker =
        ((BrokerSim.make 0).setup Session.defaults).handle (.insert (dear 7 0)) := rfl
    rw [taken] at fine
    revert fine
    decide +kernel

end TDEngine
end BTrader
