import BTrader.Engines.OrderRouting
import BTrader.Engines.WakeUp

/-! The start of a session: the strategy engine writes a `TradingStart` to each of its journals
before anything else, and the trade engine joins these journals from the time it was
constructed at. The two are threads of one process, which read one clock, and they are started in
any order. -/
namespace BTrader
open ByteMemory Infra

def tradingStartTag : Int32 := 20
def backtestSyncSignalTag : Int32 := 32

namespace TDEngine

/-- `event->data<..>()` for the messages that the engine subscribes to. -/
structure Payloads where
  tradingStart : List UInt8 → Int64
  orderInput : List UInt8 → OrderInput
  orderCancel : List UInt8 → OrderCancel
  accountReq : List UInt8 → AccountReq
  backtestSyncSignal : List UInt8 → BacktestSyncSignal

variable {σ : Type} (service : TradeService σ) (cfg : MainCfg) (payloads : Payloads)

/-- The subscriptions of `react`, that to `Termination` apart. -/
def handle (event : Frame) : TDEngineM σ Unit :=
  if event.msgType = tradingStartTag then onTradingStart service (payloads.tradingStart event.data)
  else if event.msgType = orderInputTag then
    insertOrder service cfg (payloads.orderInput event.data)
  else if event.msgType = orderCancelTag then
    cancelOrder service cfg (payloads.orderCancel event.data)
  else if event.msgType = accountReqTag then
    onAccountReq service cfg (payloads.accountReq event.data)
  else if event.msgType = backtestSyncSignalTag then
    onBacktestSyncSignal service (payloads.backtestSyncSignal event.data)
  else pure ()

variable {service cfg payloads} {engine : TDEngine σ} {event : Frame}

theorem ask_started (accountUid : UInt32) (f : σ → Bool × σ) (engine : TDEngine σ) :
    (Procedure.after (ask service accountUid f) engine).isTradingStarted =
      engine.isTradingStarted := by
  unfold Procedure.after ask
  cases engine.tradeServices accountUid with
  | none => rfl
  | some entry =>
    by_cases ready : service.getState entry.2 ≠ .ready
    · simp only [if_pos ready]
    · simp only [if_neg ready]

/-- Only a `TradingStart` starts the trading, and the first one does. -/
theorem handle_started (event : Frame) (engine : TDEngine σ) :
    (Procedure.after (handle service cfg payloads event) engine).isTradingStarted =
      (engine.isTradingStarted || decide (event.msgType = tradingStartTag)) := by
  unfold handle
  by_cases start : event.msgType = tradingStartTag
  · rw [if_pos start]
    unfold Procedure.after onTradingStart
    cases started : engine.isTradingStarted <;> simp [started, start]
  · rw [if_neg start, decide_eq_false start, Bool.or_false]
    split
    · exact ask_started _ _ engine
    · split
      · exact ask_started _ _ engine
      · split
        · exact ask_started _ _ engine
        · split <;> rfl

end TDEngine

/-- `beginTime` is that of the trade engine once it is constructed, and `starts` are the writers
that have no `TradingStart` yet, in the order `preStart` goes through them. -/
structure Startup (ι σ : Type) where
  engine : EventEngine ι
  td : TDEngine σ
  beginTime : Option Int64
  starts : List ι
  failed : Bool

namespace Startup
open EventEngine (WriterStep EngineStep)

variable {ι σ : Type} [DecidableEq ι]

def joined (s : Startup ι σ) : List UInt64 := s.engine.reader.journals.map Prod.fst

/-- What the strategy engine may write: its `TradingStart`s first, one for each writer, and no
other later. -/
def Allows (w : Wiring ι) (s : Startup ι σ) (i : ι) (op : WriteOp) : Prop :=
  match s.starts with
  | next :: _ => i = next ∧ (w.frame (w.home i) op).msgType = tradingStartTag
  | [] => (w.frame (w.home i) op).msgType ≠ tradingStartTag

section
variable (w : Wiring ι) (service : TradeService σ) (cfg : MainCfg) (payloads : TDEngine.Payloads)

/-- The strategy engine writes in one thread. What the trade engine joins are journals of its
writers, and a handler that throws ends the engine. -/
inductive Step (s : Startup ι σ) : Startup ι σ → Prop where
  | constructs (unborn : s.beginTime = none) :
      Step s { s with
        beginTime := some s.engine.time
        td := TDEngine.onSetup service cfg s.engine.time }
  | opens {i : ι} {op : WriteOp} (idle : ∀ j, s.engine.writers j = .outside)
      (fits : w.Fits (w.home i) op (s.engine.published (w.home i))) (program : Allows w s i op) :
      Step s
        { s with
          engine := { s.engine with
            writers :=
              Function.update s.engine.writers i (.storing op (s.engine.published (w.home i)) 0) }
          starts := s.starts.tail }
  | writes {e : EventEngine ι} (step : WriterStep w s.engine e)
      (same : ∀ i op frames, e.writers i = .storing op frames 0 →
        s.engine.writers i = .storing op frames 0) :
      Step s { s with engine := e }
  | runs {e : EventEngine ι} {b : Int64} (born : s.beginTime = some b) (running : s.failed = false)
      (step : EngineStep w s.engine e)
      (joins : ∀ key ∈ e.reader.journals.map Prod.fst, key ∉ s.joined →
        (∃ i, w.home i = key) ∧ e.skipped key = Log.due b (s.engine.published key))
      (silent : ∀ event, e.stage ≠ .passing event) :
      Step s { s with engine := e }
  | delivers {e : EventEngine ι} {event : Frame} {td : TDEngine σ} (running : s.failed = false)
      (born : s.beginTime.isSome) (step : EngineStep w s.engine e)
      (stage : e.stage = .passing event)
      (ran : TDEngine.handle service cfg payloads event s.td = .ok () td) :
      Step s { s with engine := e, td := td }
  | fails {e : EventEngine ι} {event : Frame} {fault : Fault} {td : TDEngine σ}
      (running : s.failed = false)
      (born : s.beginTime.isSome) (step : EngineStep w s.engine e)
      (stage : e.stage = .passing event)
      (ran : TDEngine.handle service cfg payloads event s.td = .error fault td) :
      Step s { s with engine := e, td := td, failed := true }

/-- Both engines are still to be constructed. The journals hold what earlier sessions left, of
which nothing is later than the clock. -/
structure Begins (s : Startup ι σ) : Prop where
  engine : EventEngine.Start w s.engine
  untold : s.td.isTradingStarted = false
  unborn : s.beginTime = none
  all : ∀ i, i ∈ s.starts
  distinct : s.starts.Nodup

abbrev Reaches : Startup ι σ → Startup ι σ → Prop :=
  Relation.ReflTransGen (Step w service cfg payloads)

end

section
omit [DecidableEq ι]
variable {w : Wiring ι} {e e' : EventEngine ι}

/-- What a step of the trade engine leaves of its journals. -/
structure Keeps (e e' : EventEngine ι) : Prop where
  published : e'.published = e.published
  writers : e'.writers = e.writers
  time : e'.time = e.time
  joined : ∀ key ∈ e.reader.journals.map Prod.fst, key ∈ e'.reader.journals.map Prod.fst
  skipped : ∀ key ∈ e.reader.journals.map Prod.fst, e'.skipped key = e.skipped key

/-- The step delivers an event of the current journal, or nothing. A journal joined in it has
delivered nothing. -/
structure Delivers (e e' : EventEngine ι) : Prop where
  event : ∀ event, e'.stage = .passing event → ∃ key, e'.reader.current = some key ∧
    key ∈ e.reader.journals.map Prod.fst ∧ e'.reader = e.reader ∧
      e'.delivered = Function.update e.delivered key (e.delivered key ++ [event])
  nothing : (∀ event, e'.stage ≠ .passing event) → ∀ key ∈ e'.reader.journals.map Prod.fst,
    e'.delivered key = if key ∈ e.reader.journals.map Prod.fst then e.delivered key else []

theorem passes_keys {key : UInt64} {r : Reader} {store : FileStore}
    (ran : Reader.onJournal key Journal.next (e.reader, e.store) = .ok () (r, store)) :
    r.journals.map Prod.fst = e.reader.journals.map Prod.fst := by
  unfold Reader.onJournal at ran
  cases found : e.reader.find key with
  | none => simp [found] at ran
  | some j =>
    simp only [found] at ran
    cases next : Journal.next (j, e.store key) with
    | error fault s => simp [next] at ran
    | ok a s =>
      simp only [next] at ran
      cases ran
      exact Reader.replace_keys _ _ _

theorem engineStep_keeps (step : EngineStep w e e') : Keeps e e' := by
  cases step with
  | @joins key j before current journals stage new order page frame lands sorted =>
    have keys := order.map Prod.fst
    refine ⟨rfl, rfl, rfl, fun k member => ?_, fun k member => ?_⟩
    · exact keys.mem_iff.mpr (List.mem_cons_of_mem _ member)
    · refine Function.update_of_ne (fun same => new ?_) _ _
      rwa [← same]
  | passes stage current ran =>
    refine ⟨rfl, rfl, rfl, fun k member => ?_, fun _ _ => rfl⟩
    rwa [passes_keys ran]
  | _ => exact ⟨rfl, rfl, rfl, fun _ member => member, fun _ _ => rfl⟩

theorem engineStep_delivers {known : UInt64 → Nat} (inv : EventEngine.Inv w e known)
    (step : EngineStep w e e') :
    Delivers e e' := by
  have still {e' : EventEngine ι} (silent : ∀ event, e'.stage ≠ .passing event)
      (same : ∀ key ∈ e'.reader.journals.map Prod.fst,
        e'.delivered key = if key ∈ e.reader.journals.map Prod.fst then e.delivered key else []) :
          Delivers e e' :=
    ⟨fun event passing => absurd passing (silent event), fun _ => same⟩
  have kept {e' : EventEngine ι}
      (keys : e'.reader.journals.map Prod.fst = e.reader.journals.map Prod.fst)
      (delivered : e'.delivered = e.delivered) (silent : ∀ event, e'.stage ≠ .passing event) :
        Delivers e e' := by
    refine still silent fun key member => ?_
    rw [keys] at member
    rw [delivered, if_pos member]
  cases step with
  | @joins key j before current journals stage new order page frame lands sorted =>
    have keys := order.map Prod.fst
    refine still (fun event => ?_) (fun k member => ?_)
    · simp [stage]
    · rcases List.mem_cons.mp (keys.mem_iff.mp member) with rfl | old
      · rw [if_neg new]
        exact Function.update_self _ _ _
      · rw [if_pos old]
        refine Function.update_of_ne (fun same => new ?_) _ _
        rwa [← same]
  | observes stage => exact kept rfl rfl (by simp)
  | wakes stage joined watched signal fewer => exact kept rfl rfl (by simp)
  | calls stage => exact kept rfl rfl (by simp)
  | inspects stage ran => exact kept rfl rfl (by simp)
  | @sorts call minTime stage =>
    refine kept rfl rfl fun event => ?_
    cases call <;> simp [SortCall.after]
  | tests stage =>
    refine kept rfl rfl fun event => ?_
    cases e.live <;> simp
  | finds stage ran data => exact kept rfl rfl (by simp)
  | misses stage none =>
    refine kept rfl rfl fun event => ?_
    unfold EventEngine.idle
    cases e.live <;> simp
  | @handles key m frame stage current ran inTime =>
    refine ⟨fun event passing => ?_, fun silent => absurd rfl (silent _)⟩
    obtain rfl : FrameUnit.read m frame = event := Stage.passing.inj passing
    exact ⟨key, current, inv.current key current, rfl, rfl⟩
  | ends stage ran late => exact kept rfl rfl (by simp)
  | passes stage current ran => exact kept (passes_keys ran) rfl (by simp)

end

variable {w : Wiring ι} {service : TradeService σ} {cfg : MainCfg} {payloads : TDEngine.Payloads}
  {s s' : Startup ι σ} {base : UInt64 → List Frame}

/-- A step of the two engines is one of the loop and the writers, or leaves them alone. -/
theorem Step.engine (step : Step w service cfg payloads s s') :
    s'.engine = s.engine ∨ WriterStep w s.engine s'.engine ∨ EngineStep w s.engine s'.engine := by
  cases step with
  | constructs unborn => exact .inl rfl
  | @opens i op idle fits program =>
    refine .inr (.inl (.opens (idle i) fits fun j _ op frames done => ?_))
    rw [idle j]
    exact nofun
  | writes step same => exact .inr (.inl step)
  | runs born running step joins silent => exact .inr (.inr step)
  | delivers running born step stage ran => exact .inr (.inr step)
  | fails running born step stage ran => exact .inr (.inr step)

theorem Step.reachable (reachable : EventEngine.Reachable w s.engine)
    (step : Step w service cfg payloads s s') :
    EventEngine.Reachable w s'.engine := by
  rcases step.engine with same | writer | engine
  · rwa [same]
  · exact .writer reachable writer
  · exact .engine reachable engine

theorem Step.grown (reachable : EventEngine.Reachable w s.engine)
    (step : Step w service cfg payloads s s') (key : UInt64) :
    s.engine.published key <+: s'.engine.published key := by
  obtain ⟨known, inv⟩ := reachable.inv
  rcases step.engine with same | writer | engine
  · rw [same]
  · exact (EventEngine.writerStep_grows inv.pages writer).published key
  · rw [(engineStep_keeps engine).published]

/-- The frames `base` are there, the trade engine is constructed behind them, and it joins
behind the frames that are due at each join. -/
structure Behind (w : Wiring ι) (base : UInt64 → List Frame) (s : Startup ι σ) : Prop where
  grown : ∀ key, base key <+: s.engine.published key
  unborn : s.beginTime = none → s.joined = []
  due : ∀ b, s.beginTime = some b → ∀ key, ∀ f ∈ base key, Log.Due b f
  lands : ∀ b, s.beginTime = some b → ∀ key ∈ s.joined, (∃ i, w.home i = key) ∧
    ∃ present, base key <+: present ∧ present <+: s.engine.published key ∧
      s.engine.skipped key = Log.due b present

omit [DecidableEq ι] in
theorem Behind.start (unborn : s.beginTime = none) (unjoined : s.joined = []) :
    Behind w s.engine.published s where
  grown key := List.prefix_refl _
  unborn _ := unjoined
  due b born := by simp [unborn] at born
  lands b born := by simp [unborn] at born

omit [DecidableEq ι] in
/-- A step after which the same journals are joined. -/
theorem Behind.same (behind : Behind w base s) (beginTime : s'.beginTime = s.beginTime)
    (joined : s'.joined = s.joined)
    (skipped : ∀ key ∈ s.joined, s'.engine.skipped key = s.engine.skipped key)
    (grown : ∀ key, s.engine.published key <+: s'.engine.published key) : Behind w base s' where
  grown key := (behind.grown key).trans (grown key)
  unborn unborn := by
    rw [joined]
    rw [beginTime] at unborn
    exact behind.unborn unborn
  due b born := by
    rw [beginTime] at born
    exact behind.due b born
  lands b born key member := by
    rw [beginTime] at born
    rw [joined] at member
    obtain ⟨home, present, old, inside, skips⟩ := behind.lands b born key member
    exact ⟨home, present, old, inside.trans (grown key), by rw [skipped key member, skips]⟩

theorem Behind.step (reachable : EventEngine.Reachable w s.engine) (behind : Behind w base s)
    (step : Step w service cfg payloads s s') : Behind w base s' := by
  have grown := step.grown reachable
  obtain ⟨known, inv⟩ := reachable.inv
  -- A step of the loop that delivers does not join.
  have delivered {e : EventEngine ι} {event : Frame} (engine : EngineStep w s.engine e)
      (stage : e.stage = .passing event) :
      e.reader = s.engine.reader := by
    obtain ⟨_, _, _, same, _⟩ := (engineStep_delivers inv engine).event event stage
    exact same
  cases step with
  | constructs unborn =>
    have unjoined := behind.unborn unborn
    refine ⟨behind.grown, fun _ => unjoined, fun b born key f member => ?_,
      fun b born key member => ?_⟩
    · obtain rfl : s.engine.time = b := Option.some.inj born
      exact inv.due key f ((behind.grown key).subset member)
    · change key ∈ s.joined at member
      simp [unjoined] at member
  | opens idle fits program => exact behind.same rfl rfl (fun _ _ => rfl) grown
  | writes writer same =>
    have grows := EventEngine.writerStep_grows inv.pages writer
    refine behind.same rfl ?_ (fun key _ => congrFun grows.skipped key) grown
    rw [joined, grows.reader, joined]
  | @runs e b born running engine joins silent =>
    have keeps := engineStep_keeps engine
    refine ⟨fun key => (behind.grown key).trans (grown key), fun unborn => ?_, behind.due,
      fun b' born' key member => ?_⟩
    · simp [born] at unborn
    · obtain rfl : b = b' := Option.some.inj (born.symm.trans born')
      by_cases old : key ∈ s.joined
      · obtain ⟨home, present, before, inside, skips⟩ := behind.lands b born key old
        refine ⟨home, present, before, inside.trans (grown key), ?_⟩
        rw [keeps.skipped key old, skips]
      · obtain ⟨home, skips⟩ := joins key member old
        exact ⟨home, s.engine.published key, behind.grown key, grown key, skips⟩
  | @delivers e event td running born engine stage ran =>
    refine behind.same rfl ?_ (engineStep_keeps engine).skipped grown
    rw [joined, delivered engine stage, joined]
  | @fails e event fault td running born engine stage ran =>
    refine behind.same rfl ?_ (engineStep_keeps engine).skipped grown
    rw [joined, delivered engine stage, joined]

/-- The frames of a journal, with the one that is being stored. -/
def intended (w : Wiring ι) (e : EventEngine ι) (i : ι) : List Frame :=
  match e.writers i with
  | .storing op frames _ => frames ++ [w.frame (w.home i) op]
  | _ => e.published (w.home i)

/-- A `TradingStart` and then frames of other types. -/
def Started (frames : List Frame) : Prop :=
  ∃ start rest, frames = start :: rest ∧ start.msgType = tradingStartTag ∧
    ∀ f ∈ rest, f.msgType ≠ tradingStartTag

/-- Behind `base` there is nothing while the `TradingStart` is to be written, and it comes first. -/
structure Program (w : Wiring ι) (base : UInt64 → List Frame) (s : Startup ι σ) : Prop where
  distinct : s.starts.Nodup
  waiting : ∀ i ∈ s.starts, intended w s.engine i = base (w.home i)
  written :
    ∀ i, i ∉ s.starts → ∃ more, Started more ∧ intended w s.engine i = base (w.home i) ++ more

omit [DecidableEq ι] in
theorem intended_outside {e : EventEngine ι} {i : ι} (outside : e.writers i = .outside) :
    intended w e i = e.published (w.home i) := by
  simp [intended, outside]

omit [DecidableEq ι] in
theorem published_intended {known : UInt64 → Nat} {e : EventEngine ι}
    (inv : EventEngine.Inv w e known) (i : ι) :
    e.published (w.home i) <+: intended w e i := by
  cases at' : e.writers i with
  | outside =>
    rw [intended_outside at']
  | posting =>
    simp [intended, at']
  | storing op frames done =>
    obtain ⟨_, _, _, _, _, shown⟩ := (inv.pages (w.home i)).writer at'
    simp only [intended, at']
    rw [shown, Wiring.shown]
    split
    · exact List.prefix_append _ _
    · exact List.prefix_refl _

omit [DecidableEq ι] in
theorem Program.same (program : Program w base s) (starts : s'.starts = s.starts)
    (same : ∀ i, intended w s'.engine i = intended w s.engine i) : Program w base s' where
  distinct := by rw [starts]; exact program.distinct
  waiting i member := by
    rw [starts] at member
    rw [same]
    exact program.waiting i member
  written i member := by
    rw [starts] at member
    rw [same]
    exact program.written i member

/-- The stores of a write, its end and its post leave alone what is intended. -/
theorem writer_intended {known : UInt64 → Nat} {e e' : EventEngine ι}
    (inv : EventEngine.Inv w e known)
    (injective : Function.Injective w.home) (step : WriterStep w e e')
    (same : ∀ i op frames, e'.writers i = .storing op frames 0 → e.writers i = .storing op frames 0)
    (i : ι) :
    intended w e' i = intended w e i := by
  cases step with
  | @opens j op outside fits free =>
    have opened := same j op (e.published (w.home j)) (Function.update_self _ _ _)
    rw [outside] at opened
    contradiction
  | @stores j op frames done x writing next due =>
    by_cases here : i = j
    · subst here
      simp [intended, writing]
    · have other : w.home i ≠ w.home j := fun equal => here (injective equal)
      simp only [intended, Function.update_of_ne here, Function.update_of_ne other]
  | @closes j op frames written =>
    by_cases here : i = j
    · subst here
      obtain ⟨_, _, _, _, _, shown⟩ := (inv.pages (w.home i)).writer written
      simp only [intended, Function.update_self, written]
      rw [shown, Wiring.shown, if_neg (by omega)]
    · simp only [intended, Function.update_of_ne here]
  | @posts j posting =>
    by_cases here : i = j
    · subst here
      simp [intended, posting]
    · simp only [intended, Function.update_of_ne here]
  | stops => rfl
  | ticks later => rfl

theorem Program.step (reachable : EventEngine.Reachable w s.engine)
    (injective : Function.Injective w.home)
    (program : Program w base s) (step : Step w service cfg payloads s s') : Program w base s' := by
  obtain ⟨known, inv⟩ := reachable.inv
  have kept {e : EventEngine ι} (engine : EngineStep w s.engine e) (i : ι) :
      intended w e i = intended w s.engine i := by
    have keeps := engineStep_keeps engine
    simp only [intended, keeps.writers, keeps.published]
  cases step with
  | constructs unborn => exact program.same rfl fun _ => rfl
  | writes writer same => exact program.same rfl (writer_intended inv injective writer same)
  | runs born running engine joins silent => exact program.same rfl (kept engine)
  | delivers running born engine stage ran => exact program.same rfl (kept engine)
  | fails running born engine stage ran => exact program.same rfl (kept engine)
  | @opens i op idle fits allowed =>
    have own (j : ι) : intended w { s.engine with
        writers :=
          Function.update s.engine.writers i (.storing op (s.engine.published (w.home i)) 0) } j =
        if j = i then intended w s.engine i ++ [w.frame (w.home i) op]
        else intended w s.engine j := by
      by_cases here : j = i
      · subst here
        rw [if_pos rfl, intended_outside (idle j)]
        simp [intended]
      · simp only [intended, Function.update_of_ne here, if_neg here]
    unfold Allows at allowed
    cases list : s.starts with
    | nil =>
      rw [list] at allowed
      refine ⟨List.nodup_nil, fun j member => ?_, fun j _ => ?_⟩
      · simp at member
      · obtain ⟨more, ⟨start, rest, rfl, type, plain⟩, there⟩ := program.written j (by simp [list])
        rw [own]
        by_cases here : j = i
        · subst here
          refine ⟨(start :: rest) ++ [w.frame (w.home j) op],
            ⟨start, rest ++ [_], rfl, type, ?_⟩, ?_⟩
          · intro f member
            rcases List.mem_append.mp member with old | new
            · exact plain f old
            · obtain rfl := List.mem_singleton.mp new
              exact allowed
          · rw [if_pos rfl, there, List.append_assoc]
        · rw [if_neg here]
          exact ⟨_, ⟨start, rest, rfl, type, plain⟩, there⟩
    | cons next later =>
      rw [list] at allowed
      obtain ⟨rfl, type⟩ := allowed
      have distinct := program.distinct
      rw [list, List.nodup_cons] at distinct
      refine ⟨distinct.2, fun j (member : j ∈ later) => ?_, fun j (absent : j ∉ later) => ?_⟩
      · have other : j ≠ i := by
          rintro rfl
          exact distinct.1 member
        rw [own, if_neg other]
        exact program.waiting j (by rw [list]; exact List.mem_cons_of_mem _ member)
      · rw [own]
        by_cases here : j = i
        · subst here
          have before := program.waiting j (by rw [list]; exact List.mem_cons_self)
          rw [if_pos rfl, before]
          exact ⟨[w.frame (w.home j) op], ⟨_, [], rfl, type, nofun⟩, rfl⟩
        · rw [if_neg here]
          refine program.written j ?_
          rw [list]
          simp [here, absent]

/-- The trading has started when a `TradingStart` has been delivered. -/
def Told (s : Startup ι σ) : Prop :=
  s.td.isTradingStarted = true ↔ ∃ key ∈ s.joined, ∃ f ∈ s.engine.delivered key, f.msgType =
    tradingStartTag

theorem foldl_addService_started (accounts : List Account) (engine : TDEngine σ) :
    (accounts.foldl (TDEngine.addService service) engine).isTradingStarted =
      engine.isTradingStarted := by
  induction accounts generalizing engine with
  | nil => rfl
  | cons account accounts ih => exact ih _

omit [DecidableEq ι] in
/-- The handler of an event that is delivered now. -/
theorem Told.event {e : EventEngine ι} {event : Frame} (told : Told s)
    (delivers : Delivers s.engine e) (stage : e.stage = .passing event) {started : Bool}
    (handled : started = (s.td.isTradingStarted || decide (event.msgType = tradingStartTag))) :
    started = true ↔ ∃ key ∈ e.reader.journals.map Prod.fst, ∃ f ∈ e.delivered key, f.msgType =
      tradingStartTag := by
  obtain ⟨key, _, member, reader, delivered⟩ := delivers.event event stage
  unfold Told joined at told
  rw [handled, Bool.or_eq_true, decide_eq_true_iff, told, reader, delivered]
  constructor
  · rintro (⟨k, there, f, old, type⟩ | type)
    · refine ⟨k, there, f, ?_, type⟩
      by_cases here : k = key
      · subst here
        rw [Function.update_self]
        exact List.mem_append_left _ old
      · rwa [Function.update_of_ne here]
    · refine ⟨key, member, event, ?_, type⟩
      rw [Function.update_self]
      exact List.mem_append_right _ List.mem_cons_self
  · rintro ⟨k, there, f, inside, type⟩
    by_cases here : k = key
    · subst here
      rw [Function.update_self] at inside
      rcases List.mem_append.mp inside with old | new
      · exact .inl ⟨k, there, f, old, type⟩
      · obtain rfl := List.mem_singleton.mp new
        exact .inr type
    · rw [Function.update_of_ne here] at inside
      exact .inl ⟨k, there, f, inside, type⟩

theorem Told.step (reachable : EventEngine.Reachable w s.engine) (behind : Behind w base s)
    (told : Told s) (step : Step w service cfg payloads s s') : Told s' := by
  obtain ⟨known, inv⟩ := reachable.inv
  cases step with
  | constructs unborn =>
    have unjoined := behind.unborn unborn
    have untold : (TDEngine.onSetup service cfg s.engine.time).isTradingStarted = false :=
      foldl_addService_started cfg.td _
    unfold Told joined at *
    simp [untold, unjoined]
  | opens idle fits allowed => exact told
  | writes writer same =>
    have grows := EventEngine.writerStep_grows inv.pages writer
    unfold Told joined at *
    simp only [grows.reader, grows.delivered]
    exact told
  | @runs e b born running engine joins silent =>
    have keeps := engineStep_keeps engine
    have delivers := (engineStep_delivers inv engine).nothing silent
    refine Iff.trans told ⟨?_, ?_⟩
    · rintro ⟨key, member, f, inside, type⟩
      refine ⟨key, keeps.joined key member, f, ?_, type⟩
      rw [delivers key (keeps.joined key member)]
      exact (if_pos (c := key ∈ s.engine.reader.journals.map Prod.fst) member).symm ▸ inside
    · rintro ⟨key, member, f, inside, type⟩
      rw [delivers key member] at inside
      by_cases old : key ∈ s.engine.reader.journals.map Prod.fst
      · rw [if_pos old] at inside
        exact ⟨key, old, f, inside, type⟩
      · simp [if_neg old] at inside
  | @delivers e event td running born engine stage ran =>
    have handled :
        (Procedure.after (TDEngine.handle service cfg payloads event) s.td).isTradingStarted = _ :=
      TDEngine.handle_started event s.td
    rw [Procedure.after, ran] at handled
    exact told.event (engineStep_delivers inv engine) stage handled
  | @fails e event fault td running born engine stage ran =>
    have handled :
        (Procedure.after (TDEngine.handle service cfg payloads event) s.td).isTradingStarted = _ :=
      TDEngine.handle_started event s.td
    rw [Procedure.after, ran] at handled
    exact told.event (engineStep_delivers inv engine) stage handled

structure Inv (w : Wiring ι) (base : UInt64 → List Frame) (s : Startup ι σ) : Prop where
  reachable : EventEngine.Reachable w s.engine
  behind : Behind w base s
  program : Program w base s
  told : Told s

theorem Begins.inv (begins : Begins w s) : Inv w s.engine.published s where
  reachable := .start begins.engine
  behind := by
    refine .start begins.unborn ?_
    simp [joined, begins.engine.journals]
  program := by
    refine ⟨begins.distinct, fun i _ => ?_, fun i absent => absurd (begins.all i) absent⟩
    exact intended_outside (begins.engine.outside i)
  told := by
    unfold Told joined
    simp [begins.untold, begins.engine.journals]

theorem Inv.run (injective : Function.Injective w.home) (inv : Inv w base s)
    (reaches : Reaches w service cfg payloads s s') : Inv w base s' := by
  induction reaches with
  | refl => exact inv
  | tail before step ih =>
    exact ⟨step.reachable ih.reachable, ih.behind.step ih.reachable step,
      ih.program.step ih.reachable injective step, ih.told.step ih.reachable ih.behind step⟩

/-- The frames of this session's writer, those that were there at the join, and those delivered. -/
structure View (w : Wiring ι) (base : UInt64 → List Frame) (s : Startup ι σ) (i : ι) (b : Int64)
    (more present : List Frame) : Prop where
  born : s.beginTime = some b
  kind : more = [] ∨ Started more
  published : s.engine.published (w.home i) <+: base (w.home i) ++ more
  inside : present <+: more
  skipped : s.engine.skipped (w.home i) = base (w.home i) ++ Log.due b present
  told : Log.due b present ++ s.engine.delivered (w.home i) <+: more
  there : base (w.home i) ++ present <+: s.engine.published (w.home i)

omit [DecidableEq ι] in
theorem told_prefix {known : UInt64 → Nat} {e : EventEngine ι} (inv : EventEngine.Inv w e known)
    {key : UInt64} (member : key ∈ e.reader.journals.map Prod.fst) :
      e.skipped key ++ e.delivered key <+: e.published key := by
  obtain ⟨entry, there, rfl⟩ := List.mem_map.mp member
  have inside := (inv.cursors entry there).2.2
  have stage := inv.stage
  rw [inv.told entry.1 member]
  cases at' : e.stage with
  | passing event =>
    rw [at'] at stage
    obtain ⟨key, rest, current, front⟩ := stage
    by_cases here : key = entry.1
    · subst here
      simp only [Stage.inFlight, current, if_true]
      rw [front]
      exact ⟨rest, by simp⟩
    · have other : ¬ e.reader.current = some entry.1 := by
        rw [current, Option.some.injEq]
        exact here
      simpa only [Stage.inFlight, if_neg other, List.append_nil] using inside
  | _ => simpa only [Stage.inFlight, List.append_nil] using inside

theorem Inv.view {i : ι} (inv : Inv w base s) (member : w.home i ∈ s.joined) :
    ∃ b more present, View w base s i b more present := by
  obtain ⟨known, engine⟩ := inv.reachable.inv
  obtain ⟨b, born⟩ : ∃ b, s.beginTime = some b := by
    cases born : s.beginTime with
    | some b => exact ⟨b, rfl⟩
    | none =>
      rw [inv.behind.unborn born] at member
      simp at member
  obtain ⟨_, all, ⟨present, rfl⟩, inside, skipped⟩ := inv.behind.lands b born _ member
  have due : Log.due b (base (w.home i) ++ present) = base (w.home i) ++ Log.due b present := by
    refine List.takeWhile_append_of_pos fun f old => ?_
    exact decide_eq_true (inv.behind.due b born _ f old)
  obtain ⟨more, kind, intended⟩ : ∃ more, (more = [] ∨ Started more) ∧
      intended w s.engine i = base (w.home i) ++ more := by
    by_cases waits : i ∈ s.starts
    · exact ⟨[], .inl rfl, by rw [inv.program.waiting i waits, List.append_nil]⟩
    · obtain ⟨more, started, written⟩ := inv.program.written i waits
      exact ⟨more, .inr started, written⟩
  have published := published_intended engine i
  rw [intended] at published
  have told := told_prefix engine member
  rw [skipped, due, List.append_assoc] at told
  rw [due] at skipped
  exact ⟨b, more, present, born, kind, published,
    (List.prefix_append_right_inj _).mp (inside.trans published), skipped,
    (List.prefix_append_right_inj _).mp (told.trans published), inside⟩

/-- The writer's `TradingStart` is before the join position. -/
def Missed (w : Wiring ι) (base : UInt64 → List Frame) (s : Startup ι σ) (i : ι) : Prop :=
  (base (w.home i)).length < (s.engine.skipped (w.home i)).length

section
variable {i : ι} {b : Int64} {more present : List Frame}

omit [DecidableEq ι]

theorem View.missed_iff (view : View w base s i b more present) :
    Missed w base s i ↔ Log.due b present ≠ [] := by
  rw [Missed, view.skipped, List.length_append, Nat.lt_add_right_iff_pos, List.length_pos_iff]

/-- What is missed is the first frame of the session, and it was due. -/
theorem View.missed (view : View w base s i b more present) (missed : Missed w base s i) :
    ∃ start rest, s.engine.published (w.home i) = base (w.home i) ++ start :: rest ∧
      start.msgType = tradingStartTag ∧ start.genTime ≤ b ∧
      ∀ f ∈ s.engine.delivered (w.home i), f.msgType ≠ tradingStartTag := by
  have some := view.missed_iff.mp missed
  cases present with
  | nil => exact absurd rfl some
  | cons start rest =>
    have due : Log.Due b start := by
      by_contra late
      exact some (List.takeWhile_cons_of_neg (by simpa using late))
    rcases view.kind with rfl | ⟨first, later, rfl, type, plain⟩
    · have absurd' := view.inside.length_le
      simp at absurd'
    · obtain ⟨rfl, _⟩ := List.cons_prefix_cons.mp view.inside
      obtain ⟨tail, split⟩ := view.there
      refine ⟨start, rest ++ tail, by rw [← split]; simp, type, due.2, ?_⟩
      have told := view.told
      have skips : Log.due b (start :: rest) = start :: Log.due b rest := by simp [Log.due, due]
      rw [skips, List.cons_append, List.cons_prefix_cons] at told
      exact fun f member => plain f (told.2.subset (List.mem_append_right _ member))

theorem View.heard (view : View w base s i b more present) (heard : ¬ Missed w base s i)
    {event : Frame}
    {events : List Frame} (delivered : s.engine.delivered (w.home i) = event :: events) :
    event.msgType = tradingStartTag := by
  have none : Log.due b present = [] := not_not.mp fun some => heard (view.missed_iff.mpr some)
  have told := view.told
  rw [none, List.nil_append, delivered] at told
  rcases view.kind with rfl | ⟨first, later, rfl, type, plain⟩
  · simp at told
  · obtain ⟨rfl, _⟩ := List.cons_prefix_cons.mp told
    exact type

end

/-- `on_setup` joins one journal more: the seek from `begin_time_` lands behind the due frames of
the page, which is a step of the trade engine. -/
theorem join_runs {key : UInt64} {b : Int64} (born : s.beginTime = some b)
    (running : s.failed = false)
    (stage : s.engine.stage = .joining) (new : key ∉ s.joined) (home : ∃ i, w.home i = key)
    (current : ∀ k, s.engine.reader.current = some k → k ∈ s.joined)
    (layout : Layout (w.location key) (s.engine.store key) ⟨[], s.engine.published key⟩) :
    ∃ j, Journal.seekToTime b
      (Journal.make (w.location key) (w.destId key) false s.engine.reader.isLazy 0,
        s.engine.store key) = .ok () (j, s.engine.store key) ∧
      Step w service cfg payloads s { s with engine := { s.engine with
        reader :=
          ⟨s.engine.reader.isLazy, s.engine.reader.current, (key, j) :: s.engine.reader.journals⟩
        skipped := Function.update s.engine.skipped key (Log.due b (s.engine.published key))
        passed := Function.update s.engine.passed key (Log.due b (s.engine.published key))
        delivered := Function.update s.engine.delivered key [] } } := by
  obtain ⟨k, fs, landing, ran⟩ :=
    Opening.seekToTime_spec ⟨w.location key, w.destId key, false, s.engine.reader.isLazy⟩ layout b
  obtain ⟨rfl, rfl⟩ := landing.onlyPage rfl
  refine ⟨_, ran, .runs born running ?_ (fun k member absent => ?_) ?_⟩
  · exact .joins stage new (List.Perm.refl _) rfl rfl (List.takeWhile_prefix _) fun k same =>
      List.mem_cons_of_mem _ (current k same)
  · obtain rfl : k = key := (List.mem_cons.mp member).resolve_right absent
    exact ⟨home, Function.update_self _ _ _⟩
  · intro event
    simp [stage]

variable {s₀ : Startup ι σ}

/-- Whatever the order in which the engines start: a `TradingStart` is missed only if it is not
later than the time the trade engine was constructed at, and then none comes from that journal;
where it is not missed, it is what the journal delivers first; so the trading has started just
when a journal has delivered whose `TradingStart` was not missed. Where the trade engine is
constructed after all were written, it misses them all, and the trading never starts. -/
theorem handshake (begins : Begins w s₀) (injective : Function.Injective w.home)
    (reaches : Reaches w service cfg payloads s₀ s) :
    (∀ i, w.home i ∈ s.joined → Missed w s₀.engine.published s i →
      ∃ b start rest, s.beginTime = some b ∧
        s.engine.published (w.home i) = s₀.engine.published (w.home i) ++ start :: rest ∧
        start.msgType = tradingStartTag ∧ start.genTime ≤ b ∧
        ∀ f ∈ s.engine.delivered (w.home i), f.msgType ≠ tradingStartTag) ∧
    (∀ i event events, w.home i ∈ s.joined → ¬ Missed w s₀.engine.published s i →
      s.engine.delivered (w.home i) = event :: events → event.msgType = tradingStartTag) ∧
    (s.td.isTradingStarted = true ↔
      ∃ i, w.home i ∈ s.joined ∧ ¬ Missed w s₀.engine.published s i ∧
        s.engine.delivered (w.home i) ≠ []) ∧
    (s.beginTime = none → s.starts = [] → (∀ i, s.engine.writers i = .outside) →
      ∀ s', Reaches w service cfg payloads s s' →
        (∀ i, w.home i ∈ s'.joined → Missed w s₀.engine.published s' i) ∧
          s'.td.isTradingStarted = false) := by
  have inv := begins.inv.run injective reaches
  have heard {s : Startup ι σ} (inv : Inv w s₀.engine.published s) (i : ι) (event : Frame)
      (events : List Frame)
      (member : w.home i ∈ s.joined) (heard : ¬ Missed w s₀.engine.published s i)
      (delivered : s.engine.delivered (w.home i) = event :: events) :
        event.msgType = tradingStartTag := by
    obtain ⟨b, more, present, view⟩ := inv.view member
    exact view.heard heard delivered
  have started {s : Startup ι σ} (inv : Inv w s₀.engine.published s) :
      s.td.isTradingStarted = true ↔
      ∃ i, w.home i ∈ s.joined ∧ ¬ Missed w s₀.engine.published s i ∧
        s.engine.delivered (w.home i) ≠ [] := by
    refine Iff.trans inv.told ⟨?_, ?_⟩
    · rintro ⟨key, member, f, inside, type⟩
      obtain ⟨b, born⟩ : ∃ b, s.beginTime = some b := by
        refine Option.ne_none_iff_exists'.mp fun unborn => ?_
        rw [inv.behind.unborn unborn] at member
        simp at member
      obtain ⟨⟨i, rfl⟩, _⟩ := inv.behind.lands b born key member
      refine ⟨i, member, fun missed => ?_, List.ne_nil_of_mem inside⟩
      obtain ⟨b, more, present, view⟩ := inv.view member
      obtain ⟨_, _, _, _, _, plain⟩ := view.missed missed
      exact plain f inside type
    · rintro ⟨i, member, there, some⟩
      obtain ⟨event, events, delivered⟩ := List.exists_cons_of_ne_nil some
      refine ⟨_, member, event, ?_, heard inv i event events member there delivered⟩
      rw [delivered]
      exact List.mem_cons_self
  refine ⟨fun i member missed => ?_, heard inv, started inv, fun unborn none idle s' later => ?_⟩
  · obtain ⟨b, more, present, view⟩ := inv.view member
    obtain ⟨start, rest, published, type, due, plain⟩ := view.missed missed
    exact ⟨b, start, rest, view.born, published, type, due, plain⟩
  · have inv' := inv.run injective later
    -- Seen from the state before the construction, all that was written is due.
    have again : Behind w s.engine.published s' := by
      have start : Behind w s.engine.published s := .start unborn (inv.behind.unborn unborn)
      clear inv'
      induction later with
      | refl => exact start
      | tail before step ih => exact ih.step (inv.run injective before).reachable step
    have missed (i : ι) (member : w.home i ∈ s'.joined) : Missed w s₀.engine.published s' i := by
      obtain ⟨more, ⟨start, rest, rfl, _⟩, written⟩ := inv.program.written i (by simp [none])
      rw [intended_outside (idle i)] at written
      obtain ⟨b, _, _, view⟩ := inv'.view member
      obtain ⟨_, present, all, _, skipped⟩ := again.lands b view.born _ member
      obtain ⟨tail, rfl⟩ := all
      have due : Log.due b (s.engine.published (w.home i) ++ tail) =
          s.engine.published (w.home i) ++ Log.due b tail := by
        refine List.takeWhile_append_of_pos fun f old => ?_
        exact decide_eq_true (again.due b view.born _ f old)
      rw [Missed, skipped, due, written]
      simp
    refine ⟨missed, ?_⟩
    have untold : ¬ s'.td.isTradingStarted = true := by
      rw [started inv']
      rintro ⟨i, member, there, _⟩
      exact there (missed i member)
    simpa using untold

/-- The rest of a write that has begun. -/
theorem reaches_finishes (reaches : Reaches w service cfg payloads s₀ s) {e : EventEngine ι}
    (run : EventEngine.Finishes w s.engine e) :
      Reaches w service cfg payloads s₀ { s with engine := e } := by
  induction run with
  | refl => exact reaches
  | tail _ step ih => exact ih.tail (.writes step.1 step.2.2)

/-- A stretch of the loop in which no handler runs. -/
theorem reaches_quiet (reaches : Reaches w service cfg payloads s₀ s) (born : s.beginTime = some b)
    (running : s.failed = false) {e : EventEngine ι} (run : EventEngine.Quiet w s.engine e) :
    Reaches w service cfg payloads s₀ { s with engine := e } := by
  induction run with
  | refl => exact reaches
  | tail _ step ih =>
    obtain ⟨step, keys, silent⟩ := step
    refine ih.tail (.runs born running step (fun key member absent => absurd ?_ absent) silent)
    rwa [keys] at member

/-- The frame that an earlier session has left. -/
def leftOver : Frame := EventEngine.oneJournal.frame 1 (EventEngine.markOp tradingStartTag)

theorem leftOver_fits : EventEngine.oneJournal.Fits 1 (EventEngine.markOp tradingStartTag) [] :=
  EventEngine.markOp_fits (by decide) [] (by simp)

/-- One journal with the `TradingStart` of an earlier session, and a trade engine without
accounts. -/
def restarted : Startup Unit Unit where
  engine := { EventEngine.opened with
    store := fun key => (EventEngine.opened.store key).store 1
      (EventEngine.oneJournal.stores 1 (EventEngine.markOp tradingStartTag) [])
    signalled := fun _ => true
    published := fun _ => [leftOver] }
  td := ⟨fun _ => none, false, 0⟩
  beginTime := none
  starts := [()]
  failed := false

theorem restarted_layout (key : UInt64) :
    Layout Writer.simAccount (restarted.engine.store key) ⟨[], [leftOver]⟩ := by
  have stored := leftOver_fits.stored (EventEngine.opened_start.stored 1)
  refine (Layout.start Writer.simAccount).store stored ?_
  have room := pageRoom_bounds Writer.simAccount
  change span [leftOver] < _
  decide +kernel

theorem restarted_begins : Begins EventEngine.oneJournal restarted := by
  refine ⟨⟨fun key => (restarted_layout key).current, fun key f member => ?_, fun _ => rfl,
    fun _ _ _ _ => rfl, rfl, rfl, rfl⟩,
    rfl, rfl, fun _ => List.mem_cons_self, List.nodup_singleton ()⟩
  obtain rfl := List.mem_singleton.mp member
  exact ⟨by decide, Int64.le_refl 0⟩

def noPayloads : TDEngine.Payloads where
  tradingStart _ := 0
  orderInput _ :=
    ⟨0, 0, "", "", .unknown, 0, 0, 0, false, .buy, .open_, .speculation, .any, .any, .ioc, 0⟩
  orderCancel _ := ⟨0, 0⟩
  accountReq _ := ⟨0, .status, "", 0, 0⟩
  backtestSyncSignal _ := ⟨.marketData⟩

/-- The trade engine waits behind the `TradingStart` of the earlier session. -/
theorem restarted_waits :
    ∃ s : Startup Unit Unit, Reaches EventEngine.oneJournal readyService ⟨.backtest, "/runtime", [],
    []⟩ noPayloads restarted s ∧
    s.beginTime = some 0 ∧ s.failed = false ∧ s.starts = [()] ∧
      EventEngine.Waits EventEngine.oneJournal 1 s.engine ∧
      s.engine.published 1 = [leftOver] ∧ s.engine.skipped 1 = [leftOver] ∧
        s.engine.delivered 1 = [] ∧ s.engine.time = 0 := by
  let cfg : MainCfg := ⟨.backtest, "/runtime", [], []⟩
  let born : Startup Unit Unit :=
    { restarted with beginTime := some 0, td := TDEngine.onSetup readyService cfg 0 }
  have constructed : Step EventEngine.oneJournal readyService cfg noPayloads restarted born :=
    .constructs rfl
  obtain ⟨j, _, joins⟩ : ∃ j, _ ∧ Step EventEngine.oneJournal readyService cfg noPayloads born _ :=
    join_runs rfl rfl rfl (by simp [born, restarted, joined, EventEngine.opened,
      Reader.make] : (1 : UInt64) ∉ born.joined)
      ⟨(), rfl⟩ (by simp [born, restarted, EventEngine.opened, Reader.make]) (restarted_layout 1)
  have injective : Function.Injective EventEngine.oneJournal.home := fun _ _ _ => rfl
  have observes := ((Relation.ReflTransGen.single constructed).tail joins).tail
    (.runs rfl rfl (.observes rfl) (fun key member absent => absurd member absent) (by simp))
  have reached := (restarted_begins.inv.run injective observes).reachable
  have due : Log.due 0 [leftOver] = [leftOver] := by decide +kernel
  have passed : Function.update born.engine.passed 1 (Log.due 0 [leftOver]) 1 = [leftOver] := by
    rw [Function.update_self, due]
  have none : Function.update born.engine.delivered 1 [] 1 = [] := Function.update_self ..
  have woken := reached.wakesBehind rfl rfl rfl rfl rfl passed
  have waits := reaches_quiet observes rfl rfl woken
  refine ⟨_, waits, rfl, rfl, rfl,
    ⟨reached.quiet woken, rfl, rfl, fun _ => rfl, fun _ => rfl, ⟨_, rfl⟩, passed⟩,
    rfl, passed, none, rfl⟩

/-- The strategy engine writes its `TradingStart` now: it is delivered, that of the earlier
session is not. -/
theorem handshake_restarted : ∃ s : Startup Unit Unit, s.engine.published 1 = [leftOver, leftOver] ∧
    s.engine.skipped 1 = [leftOver] ∧ s.engine.delivered 1 = [leftOver] ∧
      s.td.isTradingStarted = true := by
  obtain ⟨s, reaches, born, running, starts, waits, published, skipped, delivered, time⟩ :=
    restarted_waits
  let w := EventEngine.oneJournal
  have fits :
      w.Fits (w.home ()) (EventEngine.markOp tradingStartTag) (s.engine.published (w.home ())) := by
    change w.Fits 1 _ (s.engine.published 1)
    rw [published]
    exact EventEngine.markOp_fits (by decide) _ (by decide +kernel)
  have due :
      (w.frame (w.home ()) (EventEngine.markOp tradingStartTag)).genTime ≤ s.engine.time := by
    rw [time]
    exact Int64.le_refl 0
  have allows : Allows w s () (EventEngine.markOp tradingStartTag) := by
    unfold Allows
    rw [starts]
    exact ⟨rfl, rfl⟩
  have writes := EventEngine.finishes waits.outside fits due
  have opened := reaches.tail (.opens waits.outside fits allows)
  have written := reaches_finishes opened writes
  have injective : Function.Injective w.home := fun _ _ _ => rfl
  have reached := (restarted_begins.inv.run injective written).reachable
  have front :
      Function.update s.engine.published (w.home ())
        (s.engine.published (w.home ()) ++ [leftOver]) 1 =
      s.engine.passed 1 ++ [leftOver] := by
    rw [waits.behind]
    exact Function.update_self ..
  have signal : w.post (w.home ()) s.engine.signalled 3 = true := Wiring.post_own rfl
  obtain ⟨s₁, s₂, e, before, step, stage, after, waits', published', skipped', _, delivered'⟩ :=
    waits.hears reached rfl waits.stage waits.live waits.outside rfl signal front
      (Int64.le_maxValue 0)
  obtain ⟨td, ran⟩ :
      ∃ td, TDEngine.handle readyService ⟨.backtest, "/runtime", [], []⟩ noPayloads leftOver s.td =
      .ok () td := by
    have start : leftOver.msgType = tradingStartTag := by decide
    simp only [TDEngine.handle, if_pos start, TDEngine.onTradingStart]
    split <;> exact ⟨_, rfl⟩
  have told :=
    (reaches_quiet written born running before).tail
      (.delivers running (by simp [born]) step stage ran)
  have waiting := reaches_quiet told born running after
  have started := (handshake restarted_begins injective waiting).2.2.1
  have heard : e.delivered 1 = [leftOver] := by
    rw [delivered', Function.update_self]
    exact congrArg (· ++ [leftOver]) delivered
  have behind : e.skipped 1 = [leftOver] := by
    rw [skipped']
    exact skipped
  refine ⟨_, ?_, behind, heard, started.mpr ⟨(), ?_, fun missed => ?_, ?_⟩⟩
  · change e.published 1 = _
    rw [published']
    exact front.trans (congrArg (· ++ [leftOver]) (waits.behind.trans published))
  · obtain ⟨j, only⟩ := waits'.only
    change (1 : UInt64) ∈ e.reader.journals.map Prod.fst
    simp [only]
  · have fewer : [leftOver].length < (e.skipped 1).length := missed
    rw [behind] at fewer
    exact absurd fewer (lt_irrefl _)
  · change e.delivered 1 ≠ []
    simp [heard]

end Startup
end BTrader
