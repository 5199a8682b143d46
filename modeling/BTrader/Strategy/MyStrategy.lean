import BTrader.Lib.Procedure
import BTrader.Strategy.NetPosition

/-! The strategy that buys, holds for some bars, sells, and waits for some bars. Which orders it
sends on which bar follows from when the book has had positions. -/
namespace BTrader
open Infra

inductive TradingState where
  | initialBuy | holding | waiting | buying
  deriving DecidableEq, Repr

/-- The counter is an `int`, which does not overflow. -/
structure MyStrategy where
  institution : String
  account : String
  priceSequence : List Kline
  quoteSequence : List Quote
  hasPosition : Bool
  tradingVolume : ℚ
  holdDays : Int32
  waitDays : Int32
  currentState : TradingState
  daysCounter : ℤ
  lastActionDay : Int64

/-- A bar that comes, with `has_positions` of the executor's book at that time. `unset` is what an
`OrderInput` holds before its members are assigned. -/
structure Tick where
  bar : Kline
  instrumentType : InstrumentType
  held : Bool
  unset : OrderInput

namespace MyStrategy

/-- The constructor. -/
def make : MyStrategy where
  institution := "default"
  account := "default"
  priceSequence := []
  quoteSequence := []
  hasPosition := false
  tradingVolume := 10
  holdDays := 5
  waitDays := 5
  currentState := .initialBuy
  daysCounter := 0
  lastActionDay := 0

abbrev Setup := EStateM JsonFault MyStrategy

/-- A key that is there is converted and assigned. -/
def parse {α : Type} (cfg : Json) (key : String) (get : Json → Except JsonFault α)
    (assign : MyStrategy → α → MyStrategy) :
    Setup Unit :=
  if cfg.contains key then
    match cfg.index key >>= get with
    | .ok value => modify (assign · value)
    | .error e => throw e
  else pure ()

def setup (cfg : Json) : Setup Unit := do
  parse cfg "trading_volume" Json.getDouble fun s value => { s with tradingVolume := value }
  parse cfg "hold_days" Json.getInt fun s value => { s with holdDays := value }
  parse cfg "wait_days" Json.getInt fun s value => { s with waitDays := value }
  parse cfg "institution" Json.getString fun s value => { s with institution := value }
  parse cfg "account" Json.getString fun s value => { s with account := value }

/-- The queues keep this many. -/
def sequenceSize : Nat := 100

def onQuote (quote : Quote) (s : MyStrategy) : MyStrategy :=
  { s with quoteSequence := ConsecutiveBarStrategy.pushBounded sequenceSize s.quoteSequence quote }

def placeOrder (side : Side) (offset : Offset) (tick : Tick) (s : MyStrategy) : OrderInput :=
  { tick.unset with
    instrumentId := tick.bar.instrumentId
    exchangeId := tick.bar.exchangeId
    instrumentType := tick.instrumentType
    limitPrice := tick.bar.close
    volume := s.tradingVolume
    side := side
    offset := offset
    priceType := .limit
    volumeCondition := .any
    timeCondition := .gfd
    hedgeFlag := .speculation }

def placeBuyOrder : Tick → MyStrategy → OrderInput := placeOrder .buy .open_

def placeSellOrder : Tick → MyStrategy → OrderInput := placeOrder .sell .close

/-- What follows an order. -/
def acted (next : TradingState) (tick : Tick) (s : MyStrategy) : MyStrategy :=
  { s with currentState := next, daysCounter := 0, lastActionDay := tick.bar.endTime }

def executeTradingLogic (tick : Tick) (s : MyStrategy) : Option OrderInput × MyStrategy :=
  let s := { s with hasPosition := tick.held }
  match s.currentState with
  | .initialBuy => if s.hasPosition then (none, s)
      else (some (s.placeBuyOrder tick), s.acted .holding tick)
  | .holding =>
    let s := { s with daysCounter := s.daysCounter + 1 }
    if s.holdDays.toInt ≤ s.daysCounter then
      if s.hasPosition then (some (s.placeSellOrder tick), s.acted .waiting tick)
      else (none, { s with currentState := .initialBuy, daysCounter := 0 })
    else (none, s)
  | .waiting =>
    let s := { s with daysCounter := s.daysCounter + 1 }
    if s.waitDays.toInt ≤ s.daysCounter then
      if s.hasPosition then (none, { s with currentState := .holding, daysCounter := 0 })
      else (some (s.placeBuyOrder tick), s.acted .holding tick)
    else (none, s)
  | .buying => (none, s)

def onBar (tick : Tick) (s : MyStrategy) : Option OrderInput × MyStrategy :=
  executeTradingLogic tick
    { s with priceSequence :=
      ConsecutiveBarStrategy.pushBounded sequenceSize s.priceSequence tick.bar }

end MyStrategy

/-- A run: for each bar the order that was sent on it, if one was. -/
structure Schedule where
  sent : List (Option OrderInput)
  strategy : MyStrategy

namespace Schedule

def start (s : MyStrategy) : Schedule := ⟨[], s⟩

def act (h : Schedule) (tick : Tick) : Schedule :=
  ⟨h.sent ++ [(h.strategy.onBar tick).1], (h.strategy.onBar tick).2⟩

/-- The bars that a period takes, which are no fewer than one. -/
def period (days : Int32) : Nat := (max 1 days.toInt).toNat

/-- The last order with the bar it was sent on. -/
def lastOrder (sent : List (Option OrderInput)) : Option (Nat × Side) :=
  sent.zipIdx.foldl (fun last entry => entry.1.elim last fun order =>
    some (entry.2, order.side)) none

/-- From which bar on a position is held: from a buy, or from the end of the wait behind a sell if
there is a position then. -/
inductive Since (wait : Nat) (held : Nat → Prop) : Option (Nat × Side) → Nat → Prop where
  | bought (i : Nat) : Since wait held (some (i, .buy)) i
  | kept {i : Nat} (here : held (i + wait)) : Since wait held (some (i, .sell)) (i + wait)

/-- The order that is sent on a bar, after the last one before it. A position that is gone when it
should be sold is bought again on the first bar without a position. -/
inductive Due (hold wait : Nat) (held : Nat → Prop) : Option (Nat × Side) → Nat → Side → Prop where
  | first {j : Nat} (before : ∀ m < j, held m) (now : ¬ held j) : Due hold wait held none j .buy
  | sell {last : Option (Nat × Side)} {k : Nat} (since : Since wait held last k)
      (now : held (k + hold)) :
      Due hold wait held last (k + hold) .sell
  | rebuy {i : Nat} (now : ¬ held (i + wait)) : Due hold wait held (some (i, .sell)) (i + wait) .buy
  | gone {last : Option (Nat × Side)} {k j : Nat} (since : Since wait held last k)
      (missing : ¬ held (k + hold))
      (later : k + hold < j) (before : ∀ m, k + hold < m → m < j → held m) (now : ¬ held j) :
        Due hold wait held last j .buy

def heldAt (ticks : List Tick) (j : Nat) : Prop :=
  ∃ tick : Tick, ticks[j]? = some tick ∧ tick.held = true

/-- Where the strategy is before bar `n`. -/
inductive Phase (hold wait : Nat) (held : Nat → Prop) (n : Nat) :
    Option (Nat × Side) → TradingState → ℤ → Prop where
  | fresh (before : ∀ m < n, held m) : Phase hold wait held n none .initialBuy 0
  | reset {last : Option (Nat × Side)} {k : Nat} (since : Since wait held last k)
      (missing : ¬ held (k + hold))
      (later : k + hold < n) (before : ∀ m, k + hold < m → m < n → held m) :
        Phase hold wait held n last .initialBuy 0
  | holding {last : Option (Nat × Side)} {k : Nat} (since : Since wait held last k) (days : Nat)
      (now : n = k + 1 + days)
      (inside : days < hold) : Phase hold wait held n last .holding days
  | waiting {i : Nat} (days : Nat) (now : n = i + 1 + days) (inside : days < wait) :
      Phase hold wait held n (some (i, .sell)) .waiting days

section
variable {hold wait n : Nat} {held : Nat → Prop} {last : Option (Nat × Side)}
    {k i : Nat} {side : Side}

theorem period_pos (days : Int32) : 0 < period days := by
  unfold period
  omega

theorem period_le (days : Int32) (c : Nat) : days.toInt ≤ (c : ℤ) + 1 ↔ period days ≤ c + 1 := by
  unfold period
  omega

theorem lastOrder_concat (sent : List (Option OrderInput)) (order : Option OrderInput) :
    lastOrder (sent ++ [order]) = order.elim (lastOrder sent) fun order =>
      some (sent.length, order.side) := by
  simp [lastOrder, List.zipIdx_append]

theorem Since.unique {k' : Nat} (one : Since wait held last k) (other : Since wait held last k') :
    k = k' := by
  cases one with
  | bought i => cases other; rfl
  | kept here => cases other; rfl

theorem due_fresh (before : ∀ m < n, held m) :
    Due hold wait held none n side ↔ side = .buy ∧ ¬ held n := by
  constructor
  · intro due
    cases due with
    | first before now => exact ⟨rfl, now⟩
    | sell since now => cases since
    | gone since missing later before now => cases since
  · rintro ⟨rfl, now⟩
    exact .first before now

theorem due_reset (since : Since wait held last k) (missing : ¬ held (k + hold))
    (later : k + hold < n) (before : ∀ m, k + hold < m → m < n → held m) :
      Due hold wait held last n side ↔ side = .buy ∧ ¬ held n := by
  constructor
  · intro due
    cases due with
    | first before now => cases since
    | sell since' now =>
      obtain rfl := since.unique since'
      omega
    | rebuy now =>
      cases since with
      | kept here => exact absurd here now
    | gone since' missing' later' before' now => exact ⟨rfl, now⟩
  · rintro ⟨rfl, now⟩
    exact .gone since missing later before now

theorem due_holding (since : Since wait held last k) {days : Nat} (now : n = k + 1 + days)
    (inside : days < hold) :
    Due hold wait held last n side ↔ days + 1 = hold ∧ side = .sell ∧ held n := by
  constructor
  · intro due
    cases due with
    | first before now => cases since
    | sell since' here =>
      obtain rfl := since.unique since'
      exact ⟨by omega, rfl, here⟩
    | rebuy absent =>
      cases since with
      | kept here => exact absurd here absent
    | gone since' missing later before absent =>
      obtain rfl := since.unique since'
      omega
  · rintro ⟨whole, rfl, here⟩
    obtain rfl : n = k + hold := by omega
    exact .sell since here

theorem due_waiting (long : 0 < hold) {days : Nat} (now : n = i + 1 + days) (inside : days < wait) :
    Due hold wait held (some (i, .sell)) n side ↔ days + 1 = wait ∧ side = .buy ∧ ¬ held n := by
  constructor
  · intro due
    cases due with
    | sell since here =>
      cases since
      omega
    | rebuy absent => exact ⟨by omega, rfl, absent⟩
    | gone since missing later before absent =>
      cases since
      omega
  · rintro ⟨whole, rfl, absent⟩
    obtain rfl : n = i + wait := by omega
    exact .rebuy absent

end

/-- What a bar leads to: the side of the order that is sent, if one is, and where the strategy
goes. -/
structure Turns (result : Option OrderInput × MyStrategy) (side : Option Side) (next : TradingState)
    (count : ℤ) : Prop where
  sends : result.1.map OrderInput.side = side
  state : result.2.currentState = next
  counter : result.2.daysCounter = count

section
variable {held : Nat → Prop} {n : Nat} {last : Option (Nat × Side)} {s : MyStrategy} {tick : Tick}

theorem onBar_initial (tick : Tick) (state : s.currentState = .initialBuy) :
    if tick.held then Turns (s.onBar tick) none .initialBuy s.daysCounter
    else Turns (s.onBar tick) (some .buy) .holding 0 := by
  cases kept : tick.held with
  | true => constructor <;> simp [MyStrategy.onBar, MyStrategy.executeTradingLogic, state, kept]
  | false =>
    constructor <;> simp [MyStrategy.onBar, MyStrategy.executeTradingLogic, state, kept,
      MyStrategy.acted, MyStrategy.placeBuyOrder, MyStrategy.placeOrder]

theorem onBar_holding (tick : Tick) (state : s.currentState = .holding) :
    if s.holdDays.toInt ≤ s.daysCounter + 1 then
      if tick.held then Turns (s.onBar tick) (some .sell) .waiting 0
      else Turns (s.onBar tick) none .initialBuy 0
    else Turns (s.onBar tick) none .holding (s.daysCounter + 1) := by
  by_cases whole : s.holdDays.toInt ≤ s.daysCounter + 1
  · cases kept : tick.held with
    | true =>
      rw [if_pos whole]
      constructor <;> simp [MyStrategy.onBar, MyStrategy.executeTradingLogic, state, whole, kept,
        MyStrategy.acted, MyStrategy.placeSellOrder, MyStrategy.placeOrder]
    | false =>
      rw [if_pos whole]
      constructor <;> simp [MyStrategy.onBar, MyStrategy.executeTradingLogic, state, whole, kept]
  · rw [if_neg whole]
    constructor <;> simp [MyStrategy.onBar, MyStrategy.executeTradingLogic, state, whole]

theorem onBar_waiting (tick : Tick) (state : s.currentState = .waiting) :
    if s.waitDays.toInt ≤ s.daysCounter + 1 then
      if tick.held then Turns (s.onBar tick) none .holding 0
      else Turns (s.onBar tick) (some .buy) .holding 0
    else Turns (s.onBar tick) none .waiting (s.daysCounter + 1) := by
  by_cases whole : s.waitDays.toInt ≤ s.daysCounter + 1
  · cases kept : tick.held with
    | true =>
      rw [if_pos whole]
      constructor <;> simp [MyStrategy.onBar, MyStrategy.executeTradingLogic, state, whole, kept]
    | false =>
      rw [if_pos whole]
      constructor <;> simp [MyStrategy.onBar, MyStrategy.executeTradingLogic, state, whole, kept,
        MyStrategy.acted, MyStrategy.placeBuyOrder, MyStrategy.placeOrder]
  · rw [if_neg whole]
    constructor <;> simp [MyStrategy.onBar, MyStrategy.executeTradingLogic, state, whole]

/-- No bar changes the parameters, and an order is filled in from them and the bar. -/
theorem onBar_frame (s : MyStrategy) (tick : Tick) :
    (s.onBar tick).2.holdDays = s.holdDays ∧ (s.onBar tick).2.waitDays = s.waitDays ∧
      (s.onBar tick).2.tradingVolume = s.tradingVolume ∧
      ∀ order, (s.onBar tick).1 = some order → order = s.placeBuyOrder tick ∨
        order = s.placeSellOrder tick := by
  cases state : s.currentState
  all_goals
    simp only [MyStrategy.onBar, MyStrategy.executeTradingLogic, state]
    repeat' split
    all_goals
      refine ⟨by trivial, by trivial, by trivial, fun order same => ?_⟩
      cases same
    all_goals first
      | exact .inl rfl
      | exact .inr rfl

/-- A bar that leads to what is due leads to a phase. -/
theorem Turns.phase {result : Option OrderInput × MyStrategy} {sent : Option Side}
    {next : TradingState} {count : ℤ} (turns : Turns result sent next count) {hold wait : Nat}
    (due : ∀ side, sent = some side ↔ Due hold wait held last n side)
    (after : Phase hold wait held (n + 1) (sent.elim last fun side => some (n, side)) next count) :
    (∀ side, (∃ order, result.1 = some order ∧ order.side = side) ↔
      Due hold wait held last n side) ∧
      Phase hold wait held (n + 1)
        (result.1.elim last fun order => some (n, order.side)) result.2.currentState
        result.2.daysCounter := by
  obtain ⟨rfl, rfl, rfl⟩ := turns
  constructor
  · intro side
    rw [← due, Option.map_eq_some_iff]
  · cases sends : result.1 <;> simpa [sends] using after

/-- A bar on which the strategy is in some phase: it sends what is due, and is in a phase before
the next bar. -/
theorem onBar_phase
    (phase : Phase (period s.holdDays) (period s.waitDays) held n last s.currentState s.daysCounter)
    (here : tick.held = true ↔ held n) :
    (∀ side, (∃ order, (s.onBar tick).1 = some order ∧ order.side = side) ↔
        Due (period s.holdDays) (period s.waitDays) held last n side) ∧
      Phase (period s.holdDays) (period s.waitDays) held (n + 1)
        ((s.onBar tick).1.elim last fun order => some (n, order.side))
        (s.onBar tick).2.currentState (s.onBar tick).2.daysCounter := by
  have longHold := period_pos s.holdDays
  have longWait := period_pos s.waitDays
  generalize state : s.currentState = current at phase
  generalize counter : s.daysCounter = count at phase
  cases phase with
  | fresh before =>
    have turns := onBar_initial tick state
    by_cases kept : held n
    · rw [if_pos (here.mpr kept), counter] at turns
      refine turns.phase (fun side => by simp [due_fresh before, kept]) ?_
      exact .fresh (Nat.forall_lt_succ_right.mpr ⟨before, kept⟩)
    · rw [if_neg (mt here.mp kept)] at turns
      refine turns.phase (fun side => by simp [due_fresh before, kept, eq_comm]) ?_
      exact .holding (.bought n) 0 rfl longHold
  | reset since missing later before =>
    have turns := onBar_initial tick state
    by_cases kept : held n
    · rw [if_pos (here.mpr kept), counter] at turns
      refine turns.phase (fun side => by simp [due_reset since missing later before, kept]) ?_
      have all :=
        Nat.forall_lt_succ_right.mpr ⟨fun m earlier behind => before m behind earlier,
          fun _ => kept⟩
      exact .reset since missing (Nat.lt_succ_of_lt later) fun m behind earlier =>
        all m earlier behind
    · rw [if_neg (mt here.mp kept)] at turns
      refine turns.phase
        (fun side => by simp [due_reset since missing later before, kept, eq_comm]) ?_
      exact .holding (.bought n) 0 rfl longHold
  | holding since days now inside =>
    rename_i k
    have turns := onBar_holding tick state
    rw [counter] at turns
    by_cases whole : days + 1 = period s.holdDays
    · rw [if_pos ((period_le s.holdDays days).mpr whole.ge)] at turns
      by_cases kept : held n
      · rw [if_pos (here.mpr kept)] at turns
        refine turns.phase
          (fun side => by simp [due_holding since now inside, whole, kept, eq_comm]) ?_
        exact .waiting 0 rfl longWait
      · rw [if_neg (mt here.mp kept)] at turns
        obtain rfl : n = k + period s.holdDays := by omega
        refine turns.phase (fun side => by simp [due_holding since now inside, kept]) ?_
        exact .reset since kept (Nat.lt_succ_self _) fun m behind earlier => by omega
    · rw [if_neg (mt (period_le s.holdDays days).mp (by omega))] at turns
      refine turns.phase (fun side => by simp [due_holding since now inside, whole]) ?_
      exact_mod_cast Phase.holding since (days + 1) (by omega) (by omega)
  | waiting days now inside =>
    rename_i i
    have turns := onBar_waiting tick state
    rw [counter] at turns
    by_cases whole : days + 1 = period s.waitDays
    · rw [if_pos ((period_le s.waitDays days).mpr whole.ge)] at turns
      by_cases kept : held n
      · rw [if_pos (here.mpr kept)] at turns
        refine turns.phase (fun side => by simp [due_waiting longHold now inside, kept]) ?_
        obtain rfl : n = i + period s.waitDays := by omega
        exact .holding (.kept kept) 0 rfl longHold
      · rw [if_neg (mt here.mp kept)] at turns
        refine turns.phase
          (fun side => by simp [due_waiting longHold now inside, whole, kept, eq_comm]) ?_
        exact .holding (.bought n) 0 rfl longHold
    · rw [if_neg (mt (period_le s.waitDays days).mp (by omega))] at turns
      refine turns.phase (fun side => by simp [due_waiting longHold now inside, whole]) ?_
      exact_mod_cast Phase.waiting (days + 1) (by omega) (by omega)

end

/-- The parameters that are read in the setup are all that it changes. -/
def Idle (s t : MyStrategy) : Prop :=
  t.currentState = s.currentState ∧ t.daysCounter = s.daysCounter

theorem parse_idle {α : Type} {cfg : Json} {key : String} {get : Json → Except JsonFault α}
    {assign : MyStrategy → α → MyStrategy}
    {s t : MyStrategy} (ran : MyStrategy.parse cfg key get assign s = .ok () t)
    (idle : ∀ value, Idle s (assign s value)) :
    Idle s t := by
  unfold MyStrategy.parse at ran
  by_cases there : cfg.contains key
  · rw [if_pos there] at ran
    cases read : cfg.index key >>= get with
    | ok value =>
      rw [read] at ran
      cases ran
      exact idle value
    | error e =>
      rw [read] at ran
      cases ran
  · rw [if_neg there] at ran
    cases ran
    exact ⟨rfl, rfl⟩

theorem setup_idle {cfg : Json} {s t : MyStrategy} (ran : MyStrategy.setup cfg s = .ok () t) :
    Idle s t := by
  obtain ⟨_, a, volume, ran⟩ := Procedure.of_bind_ok ran
  obtain ⟨_, b, hold, ran⟩ := Procedure.of_bind_ok ran
  obtain ⟨_, c, wait, ran⟩ := Procedure.of_bind_ok ran
  obtain ⟨_, d, institution, account⟩ := Procedure.of_bind_ok ran
  have first := parse_idle volume fun _ => ⟨rfl, rfl⟩
  have second := parse_idle hold fun _ => ⟨rfl, rfl⟩
  have third := parse_idle wait fun _ => ⟨rfl, rfl⟩
  have fourth := parse_idle institution fun _ => ⟨rfl, rfl⟩
  have fifth := parse_idle account fun _ => ⟨rfl, rfl⟩
  constructor
  · rw [fifth.1, fourth.1, third.1, second.1, first.1]
  · rw [fifth.2, fourth.2, third.2, second.2, first.2]

/-- What holds before every bar of a run over `ticks` that begins in `s`. -/
structure Keeps (s : MyStrategy) (ticks : List Tick) (h : Schedule) : Prop where
  days : h.strategy.holdDays = s.holdDays ∧ h.strategy.waitDays = s.waitDays
  volume : h.strategy.tradingVolume = s.tradingVolume
  phase :
    Phase (period s.holdDays) (period s.waitDays) (heldAt ticks) h.sent.length
      (lastOrder h.sent) h.strategy.currentState
    h.strategy.daysCounter
  due : ∀ (j : Nat) (side : Side), (∃ order, h.sent[j]? = some (some order) ∧ order.side = side) ↔
    j < h.sent.length ∧
      Due (period s.holdDays) (period s.waitDays) (heldAt ticks) (lastOrder (h.sent.take j)) j side
  filled : ∀ (j : Nat) (order : OrderInput), h.sent[j]? = some (some order) →
    ∃ tick : Tick, ticks[j]? = some tick ∧
      (order = s.placeBuyOrder tick ∨ order = s.placeSellOrder tick)

section
variable {s : MyStrategy} {ticks : List Tick} {h : Schedule} {tick : Tick}

theorem act_length (h : Schedule) (tick : Tick) : (h.act tick).sent.length = h.sent.length + 1 := by
  simp [act]

theorem heldAt_some {j : Nat} (here : ticks[j]? = some tick) :
    heldAt ticks j ↔ tick.held = true := by
  simp [heldAt, here]

theorem placed_same (tick : Tick) {t : MyStrategy} (volume : t.tradingVolume = s.tradingVolume) :
    t.placeBuyOrder tick = s.placeBuyOrder tick ∧
      t.placeSellOrder tick = s.placeSellOrder tick := by
  simp [MyStrategy.placeBuyOrder, MyStrategy.placeSellOrder, MyStrategy.placeOrder, volume]

theorem act_keeps (keeps : Keeps s ticks h) (here : ticks[h.sent.length]? = some tick) :
    Keeps s ticks (h.act tick) := by
  obtain ⟨hold, wait, volume, orders⟩ := onBar_frame h.strategy tick
  have phase := keeps.phase
  rw [← keeps.days.1, ← keeps.days.2] at phase
  have turned := onBar_phase phase (heldAt_some here).symm
  rw [keeps.days.1, keeps.days.2] at turned
  have earlier {j : Nat} (before : j < h.sent.length) : (h.act tick).sent[j]? = h.sent[j]? := by
    simp [act, List.getElem?_append_left before]
  have last : (h.act tick).sent[h.sent.length]? = some (h.strategy.onBar tick).1 := by simp [act]
  constructor
  · exact ⟨hold.trans keeps.days.1, wait.trans keeps.days.2⟩
  · exact volume.trans keeps.volume
  · rw [act_length]
    change Phase _ _ _ _ (lastOrder (h.sent ++ [(h.strategy.onBar tick).1])) _ _
    rw [lastOrder_concat]
    exact turned.2
  · intro j side
    rw [act_length]
    rcases Nat.lt_trichotomy j h.sent.length with before | rfl | behind
    · have old : (h.act tick).sent.take j = h.sent.take j := by
        simp [act, List.take_append_of_le_length before.le]
      rw [earlier before, old, keeps.due]
      simp [before, Nat.lt_succ_of_lt before]
    · have old : (h.act tick).sent.take h.sent.length = h.sent := by simp [act]
      rw [last, old, ← turned.1]
      simp
    · have none : (h.act tick).sent[j]? = none := List.getElem?_eq_none (by rw [act_length]; omega)
      simp only [none, reduceCtorEq, false_and, exists_false, false_iff, not_and]
      omega
  · intro j order found
    rcases Nat.lt_trichotomy j h.sent.length with before | rfl | behind
    · exact keeps.filled j order ((earlier before).symm.trans found)
    · obtain ⟨buy, sell⟩ := placed_same tick keeps.volume
      have placed := orders order (Option.some.inj (last.symm.trans found))
      rw [buy, sell] at placed
      exact ⟨tick, here, placed⟩
    · rw [List.getElem?_eq_none (by rw [act_length]; omega)] at found
      contradiction

theorem states_keep (keeps : Keeps s ticks h) {rest : List Tick}
    (left : ticks.drop h.sent.length = rest) :
    ∀ t ∈ Runs.states act h rest, Keeps s ticks t := by
  induction rest generalizing h with
  | nil =>
    intro t member
    rwa [List.mem_singleton.mp member]
  | cons tick rest ih =>
    have here : ticks[h.sent.length]? = some tick := by
      rw [← List.head?_drop, left]
      rfl
    have next : ticks.drop (h.act tick).sent.length = rest := by
      rw [act_length, ← List.tail_drop, left]
      rfl
    intro t member
    rcases List.mem_cons.mp member with rfl | later
    · exact keeps
    · exact ih (act_keeps keeps here) next t later

theorem start_keeps (initial : s.currentState = .initialBuy) (zero : s.daysCounter = 0) :
    Keeps s ticks (start s) where
  days := ⟨rfl, rfl⟩
  volume := rfl
  phase := by
    change Phase _ _ _ 0 none s.currentState s.daysCounter
    rw [initial, zero]
    exact .fresh fun m before => absurd before (Nat.not_lt_zero m)
  due j side := by simp [start]
  filled j order found := by simp [start] at found

theorem Phase.counter_bounds {hold wait n : Nat} {held : Nat → Prop} {last : Option (Nat × Side)}
    {state : TradingState} {count : ℤ} (phase : Phase hold wait held n last state count) :
      0 ≤ count ∧ (count = 0 ∨ count < hold ∨ count < wait) := by
  cases phase with
  | fresh | reset => simp
  | holding since days now inside => omega
  | waiting days now inside => omega

theorem period_bound (days : Int32) : (period days : ℤ) < 2 ^ 31 := by
  have bound := days.toInt_lt
  unfold period
  omega

theorem foldl_length (ticks : List Tick) (h : Schedule) :
    (ticks.foldl act h).sent.length = h.sent.length + ticks.length := by
  induction ticks generalizing h with
  | nil => rfl
  | cons tick ticks ih =>
    rw [List.foldl_cons, ih, act_length, List.length_cons]
    omega

/-- The orders of a run are those that are due, whatever the book has on any bar. Each is filled
in from its bar, and the counter of the days stays below the greatest `int`. -/
theorem schedule {cfg : Json} {s : MyStrategy}
    (loaded : MyStrategy.setup cfg MyStrategy.make = .ok () s) (ticks : List Tick) :
    (∀ (j : Nat) (side : Side), (∃ order, (ticks.foldl act (start s)).sent[j]? = some (some order) ∧
      order.side = side) ↔
        j < ticks.length ∧ Due (period s.holdDays) (period s.waitDays) (heldAt ticks)
          (lastOrder ((ticks.foldl act (start s)).sent.take j)) j side) ∧
      (∀ (j : Nat) (order : OrderInput), (ticks.foldl act (start s)).sent[j]? = some (some order) →
        ∃ tick : Tick, ticks[j]? = some tick ∧
          (order = s.placeBuyOrder tick ∨ order = s.placeSellOrder tick)) ∧
      ∀ h ∈ Runs.states act (start s) ticks, 0 ≤ h.strategy.daysCounter ∧
        h.strategy.daysCounter < 2 ^ 31 - 1 := by
  obtain ⟨state, counter⟩ := setup_idle loaded
  have keeps : ∀ t ∈ Runs.states act (start s) ticks, Keeps s ticks t :=
    states_keep (start_keeps state counter) rfl
  have last := keeps _ (Runs.last_mem (start s) ticks)
  have length : (ticks.foldl act (start s)).sent.length = ticks.length := by
    rw [foldl_length]
    exact Nat.zero_add _
  refine ⟨fun j side => ?_, last.filled, fun h member => ?_⟩
  · rw [last.due, length]
  · obtain ⟨nonneg, bound⟩ := (keeps h member).phase.counter_bounds
    have hold := period_bound s.holdDays
    have wait := period_bound s.waitDays
    omega

end

def tickAt (held : Bool) : Tick where
  bar := ⟨⟨"IF", "X", 1, 12⟩, 0, 10, 12, 10, 1⟩
  instrumentType := .future
  held := held
  unset := ⟨0, 0, "", "", .unknown, 0, 0, 0, false, .buy, .open_, .speculation, .any, .any, .ioc, 0⟩

/-- Two bars with a position between bars without one. -/
def brief : List Tick := [false, true, true, false].map tickAt

def short : Json := .object [("hold_days", .integer 2), ("wait_days", .integer 1)]

def shortened : MyStrategy := { MyStrategy.make with holdDays := 2, waitDays := 1 }

theorem setup_short : MyStrategy.setup short MyStrategy.make = .ok () shortened := rfl

/-- The position that is bought on the first bar is sold two bars later. -/
theorem schedule_brief : Due 2 1 (heldAt brief) (some (0, .buy)) 2 .sell :=
  (((schedule setup_short brief).1 2 .sell).mp ⟨_, rfl, rfl⟩).2

end Schedule
end BTrader
