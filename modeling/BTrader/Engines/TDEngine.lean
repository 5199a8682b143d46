import BTrader.Core.MainCfg
import BTrader.Core.Types
import BTrader.Infra.Mmap
import BTrader.Lib.Keyed
import BTrader.Lib.Procedure

/-! The trade engine: one trade service for each account, found by what a request's id
decodes to. -/
namespace BTrader
open Infra

/-- The virtual functions of a trade service whose state is a `σ`. -/
structure TradeService (σ : Type) where
  create : String → σ
  setup : Account → σ → σ
  start : σ → σ
  getState : σ → BrokerState
  insertOrder : OrderInput → σ → Bool × σ
  cancelOrder : OrderCancel → σ → Bool × σ
  reqAccountInfo : AccountReq → σ → Bool × σ
  handleBacktestSyncSignal : BacktestSyncSignal → σ → Bool × σ

/-- A service is kept with the account it was set up from. -/
structure TDEngine (σ : Type) where
  tradeServices : UInt32 → Option (Account × σ)
  isTradingStarted : Bool
  beginTime : Int64

abbrev TDEngineM (σ : Type) := EStateM Fault (TDEngine σ)

namespace TDEngine
variable {σ : Type} (service : TradeService σ) (cfg : MainCfg)

/-- One round of the loop over the accounts. -/
def addService (engine : TDEngine σ) (account : Account) : TDEngine σ :=
  let made := service.setup account (service.create account.institution)
  { engine with tradeServices :=
    Function.update engine.tradeServices account.dest (some (account, made)) }

def onSetup (beginTime : Int64) : TDEngine σ :=
  cfg.td.foldl (addService service) ⟨fun _ => none, false, beginTime⟩

/-- The service of an account uid is asked when it is ready. An account uid nobody has gets an
empty pointer from `operator[]`. -/
def ask (accountUid : UInt32) (f : σ → Bool × σ) : TDEngineM σ Unit := fun engine =>
  match engine.tradeServices accountUid with
  | none => .error .nullPointer engine
  | some (account, s) =>
    if service.getState s ≠ .ready then .ok ⟨⟩ engine
    else
      let asked := some (account, (f s).2)
      .ok ⟨⟩ { engine with tradeServices := Function.update engine.tradeServices accountUid asked }

def insertOrder (orderInput : OrderInput) : TDEngineM σ Unit :=
  ask service (toAccountUid orderInput.orderId cfg.getTdLocationUid)
    (service.insertOrder orderInput)

def cancelOrder (action : OrderCancel) : TDEngineM σ Unit :=
  ask service (toAccountUid action.orderId cfg.getTdLocationUid) (service.cancelOrder action)

def onAccountReq (req : AccountReq) : TDEngineM σ Unit :=
  ask service (toAccountUid req.id cfg.getTdLocationUid) (service.reqAccountInfo req)

/-- Every service in its turn. -/
def eachService (engine : TDEngine σ) (f : σ → σ) : TDEngine σ :=
  { engine with
    tradeServices := fun uid => (engine.tradeServices uid).map fun entry => (entry.1, f entry.2) }

def onTradingStart (syncTime : Int64) : TDEngineM σ Unit := fun engine =>
  if engine.isTradingStarted then .ok ⟨⟩ engine
  else
    .ok ⟨⟩ { engine.eachService service.start with
      isTradingStarted := true
      beginTime := syncTime }

/-- The reply written to the response journal when all services agree is not part of this. -/
def onBacktestSyncSignal (signal : BacktestSyncSignal) : TDEngineM σ Unit := fun engine =>
  .ok ⟨⟩ (engine.eachService fun s => (service.handleBacktestSyncSignal signal s).2)

/-- The states of the engine, whatever it handles. -/
inductive Reached : TDEngine σ → Prop where
  | setup (beginTime : Int64) : Reached (onSetup service cfg beginTime)
  | tradingStart (syncTime : Int64) {engine : TDEngine σ} (before : Reached engine) :
      Reached (Procedure.after (onTradingStart service syncTime) engine)
  | insert (orderInput : OrderInput) {engine : TDEngine σ} (before : Reached engine) :
      Reached (Procedure.after (insertOrder service cfg orderInput) engine)
  | cancel (action : OrderCancel) {engine : TDEngine σ} (before : Reached engine) :
      Reached (Procedure.after (cancelOrder service cfg action) engine)
  | request (req : AccountReq) {engine : TDEngine σ} (before : Reached engine) :
      Reached (Procedure.after (onAccountReq service cfg req) engine)
  | syncSignal (signal : BacktestSyncSignal) {engine : TDEngine σ} (before : Reached engine) :
      Reached (Procedure.after (onBacktestSyncSignal service signal) engine)

/-- Every account's destination has the service set up from that account. -/
def Serves (engine : TDEngine σ) : Prop :=
  ∀ account ∈ cfg.td, ∃ s, engine.tradeServices account.dest = some (account, s)

variable {service cfg}

/-- The services are those of the accounts, under their destinations. -/
theorem onSetup_services (service : TradeService σ) (cfg : MainCfg) (beginTime : Int64) :
    (onSetup service cfg beginTime).tradeServices =
      Keyed.ofList Account.dest
        (fun account =>
        (account, service.setup account (service.create account.institution))) cfg.td := by
  have each (accounts : List Account) (engine : TDEngine σ) :
      (accounts.foldl (addService service) engine).tradeServices =
        accounts.foldl (Keyed.put Account.dest
          fun account => (account, service.setup account (service.create account.institution)))
            engine.tradeServices := by
    induction accounts generalizing engine with
    | nil => rfl
    | cons account accounts ih => exact ih (addService service engine account)
  exact each cfg.td ⟨fun _ => none, false, beginTime⟩

theorem onSetup_serves (distinct : cfg.tdDests.Nodup) (beginTime : Int64) :
    Serves cfg (onSetup service cfg beginTime) := by
  intro account member
  rw [onSetup_services]
  exact ⟨_, Keyed.ofList_get_of_nodup distinct member⟩

theorem ask_serves (accountUid : UInt32) (f : σ → Bool × σ) :
    Procedure.Keeps (Serves cfg) (ask service accountUid f) := by
  intro engine serves
  unfold Procedure.after ask
  cases entry : engine.tradeServices accountUid with
  | none => exact serves
  | some found =>
    obtain ⟨owner, s⟩ := found
    by_cases ready : service.getState s ≠ .ready
    · simp only [if_pos ready]
      exact serves
    · simp only [if_neg ready]
      intro account member
      obtain ⟨state, own⟩ := serves account member
      by_cases here : account.dest = accountUid
      · rw [here] at own ⊢
        cases Option.some.inj (entry.symm.trans own)
        exact ⟨_, Function.update_self _ _ _⟩
      · exact ⟨state, (Function.update_of_ne here _ _).trans own⟩

theorem eachService_serves {engine : TDEngine σ} (serves : Serves cfg engine) (f : σ → σ) :
    Serves cfg (engine.eachService f) := by
  intro account member
  obtain ⟨s, own⟩ := serves account member
  exact ⟨f s, by simp [eachService, own]⟩

theorem Reached.serves {engine : TDEngine σ} (distinct : cfg.tdDests.Nodup)
    (reached : Reached service cfg engine) :
    Serves cfg engine := by
  induction reached with
  | setup beginTime => exact onSetup_serves distinct beginTime
  | tradingStart syncTime before ih =>
    rename_i engine
    unfold Procedure.after onTradingStart
    cases started : engine.isTradingStarted with
    | true =>
      simp only [if_true]
      exact ih
    | false =>
      simp only [Bool.false_eq_true, if_false]
      exact eachService_serves ih service.start
  | insert orderInput before ih => exact ask_serves _ _ _ ih
  | cancel action before ih => exact ask_serves _ _ _ ih
  | request req before ih => exact ask_serves _ _ _ ih
  | syncSignal signal before ih => exact eachService_serves ih fun s =>
    (service.handleBacktestSyncSignal signal s).2

end TDEngine
end BTrader
