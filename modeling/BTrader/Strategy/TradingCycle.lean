import BTrader.Strategy.MyStrategy

/-! The strategy with its book, where every order is filled before the next bar: it holds and
waits by turns, and the book follows. -/
namespace BTrader
open Infra PositionBook Schedule

namespace PositionBook

/-- A book with one entry at most, on the long side. -/
def single (key : UInt32) (entry : Option Position) : PositionBook :=
  ⟨Function.update (fun _ => none) key entry, fun _ => none⟩

variable {key : UInt32} {entry : Option Position} {trade : Trade} {trades : List Trade}

theorem single_none (key : UInt32) : single key none = empty := by
  simp [single, empty]

theorem single_hasPositions : (single key entry).HasPositions ↔ entry.isSome := by
  constructor
  · rintro ⟨direction, k, there⟩
    by_cases long : direction = .long
    · by_cases here : k = key
      · subst here
        simpa [single, positions, long] using there
      · simp [single, positions, long, Function.update_of_ne here] at there
    · simp [single, positions, long] at there
  · intro there
    exact ⟨.long, key, by simpa [single, positions] using there⟩

theorem single_update (acts : positionDirection trade = some .long)
    (here : trade.instrument.key = key) :
    (single key entry).update trade = single key (entryAfter trade .long entry) := by
  rw [update_eq _ acts, here]
  simp [single, assign, positions]

/-- Trades on the long side of one instrument leave a book with one entry. -/
theorem single_fold
    (acts : ∀ trade ∈ trades, positionDirection trade = some .long ∧ trade.instrument.key = key) :
    trades.foldl update (single key entry) =
      single key (trades.foldl (fun entry trade => entryAfter trade .long entry) entry) := by
  induction trades generalizing entry with
  | nil => rfl
  | cons trade trades ih =>
    obtain ⟨first, later⟩ := List.forall_mem_cons.mp acts
    rw [List.foldl_cons, single_update first.1 first.2, ih later, List.foldl_cons]

theorem volume_fold (trades : List Trade) (entry : Option Position) :
    (trades.foldl (fun entry trade => entryAfter trade .long entry) entry).map Position.volume =
      trades.foldl (fun volume trade => volumeAfter trade volume) (entry.map Position.volume) := by
  induction trades generalizing entry with
  | nil => rfl
  | cons trade trades ih => rw [List.foldl_cons, ih, entryAfter_volume, List.foldl_cons]

theorem opened_fold (opens : ∀ trade ∈ trades, trade.offset = .open_) (volume : ℚ) :
    trades.foldl (fun volume trade => volumeAfter trade volume) (some volume) =
      some (volume + (trades.map Trade.volume).sum) := by
  induction trades generalizing volume with
  | nil => simp
  | cons trade trades ih =>
    obtain ⟨first, later⟩ := List.forall_mem_cons.mp opens
    rw [List.foldl_cons, volumeAfter, if_pos first, ih later, List.map_cons,
      List.sum_cons, add_assoc]

/-- What is bought in parts is held as a whole. -/
theorem bought_fold (opens : ∀ trade ∈ trades, trade.offset = .open_) (some' : trades ≠ []) :
    trades.foldl (fun volume trade => volumeAfter trade volume) none =
      some (trades.map Trade.volume).sum := by
  cases trades with
  | nil => contradiction
  | cons trade trades =>
    rw [List.foldl_cons, volumeAfter,
      opened_fold (fun t member => opens t (List.mem_cons_of_mem _ member)), List.map_cons,
      List.sum_cons]

theorem sum_pos (positive : ∀ trade ∈ trades, 0 < trade.volume) (some' : trades ≠ []) :
    0 < (trades.map Trade.volume).sum := by
  apply List.sum_pos
  · simpa using positive
  · simpa using some'

/-- What is sold in parts is gone with the last of them. -/
theorem sold_fold (closes : ∀ trade ∈ trades, trade.offset ≠ .open_)
    (positive : ∀ trade ∈ trades, 0 < trade.volume) (some' : trades ≠ []) :
    trades.foldl (fun volume trade => volumeAfter trade volume)
      (some (trades.map Trade.volume).sum) = none := by
  induction trades with
  | nil => contradiction
  | cons trade trades ih =>
    obtain ⟨first, closes⟩ := List.forall_mem_cons.mp closes
    obtain ⟨_, positive⟩ := List.forall_mem_cons.mp positive
    rw [List.foldl_cons, volumeAfter, if_neg first, List.map_cons, List.sum_cons,
      add_sub_cancel_left]
    by_cases last : trades = []
    · simp [last]
    · rw [if_neg (sum_pos positive last).not_ge]
      exact ih closes positive last

end PositionBook

/-- A run with the book that its trades update. -/
structure TradingCycle where
  schedule : Schedule
  book : PositionBook

namespace TradingCycle

def start (s : MyStrategy) : TradingCycle := ⟨.start s, .empty⟩

/-- A bar, and the trades that come before the next one. -/
def act (c : TradingCycle) (event : Tick × List Trade) : TradingCycle :=
  ⟨c.schedule.act event.1, event.2.foldl PositionBook.update c.book⟩

theorem act_book (c : TradingCycle) (tick : Tick) (trades : List Trade) :
    (c.act (tick, trades)).book = trades.foldl PositionBook.update c.book := rfl

/-- The trades fill the order, in any number of parts. Without an order there are none. -/
def Fills : Option OrderInput → List Trade → Prop
  | none, trades => trades = []
  | some order, trades =>
    (trades.map Trade.volume).sum = order.volume ∧
      ∀ trade ∈ trades, trade.instrument = (order.exchangeId, order.instrumentId) ∧
        trade.side = order.side ∧
        trade.offset = order.offset ∧ 0 < trade.volume

/-- A bar of the instrument comes with what the book has, and its order is filled. -/
structure Prompt (instrument : Instrument) (c : TradingCycle)
    (event : Tick × List Trade) : Prop where
  bar : event.1.bar.instrument = instrument
  held : event.1.held = true ↔ c.book.HasPositions
  fills : Fills (c.schedule.strategy.onBar event.1).1 event.2

/-- The side of the order on each bar of a cycle. -/
def sideAt (hold wait j : Nat) : Option Side :=
  if j % (hold + wait) = 0 then some .buy else if j % (hold + wait) = hold then some .sell else none

/-- What is held of `volume` before each bar of a cycle. -/
def heldVolume (hold wait : Nat) (volume : ℚ) (j : Nat) : Option ℚ :=
  if 0 < j % (hold + wait) ∧ j % (hold + wait) ≤ hold then some volume else none

/-- Where the strategy is before bar `n`. -/
inductive Place (hold wait n : Nat) : TradingState → ℤ → Prop where
  | beginning (first : n = 0) : Place hold wait n .initialBuy 0
  | holding (turns days : Nat) (now : n = (hold + wait) * turns + (1 + days))
      (inside : days < hold) :
      Place hold wait n .holding days
  | waiting (turns days : Nat) (now : n = (hold + wait) * turns + (hold + 1 + days))
      (inside : days < wait) :
      Place hold wait n .waiting days

section
variable {hold wait n turns : Nat} {volume : ℚ}

theorem mod_inside {r : Nat} (now : n = (hold + wait) * turns + r) (inside : r < hold + wait) :
    n % (hold + wait) = r := by
  rw [now, Nat.mul_add_mod, Nat.mod_eq_of_lt inside]

theorem mod_whole (now : n = (hold + wait) * turns + (hold + wait)) : n % (hold + wait) = 0 := by
  rw [now, Nat.mul_add_mod, Nat.mod_self]

theorem mod_next (longer : 0 < hold + wait) :
    (n + 1) % (hold + wait) = if n % (hold + wait) + 1 = hold + wait then 0
      else n % (hold + wait) + 1 := by
  have now := Nat.div_add_mod n (hold + wait)
  have inside := Nat.mod_lt n longer
  split
  · rename_i whole
    have after : n + 1 = (hold + wait) * (n / (hold + wait)) + (hold + wait) := by omega
    exact mod_whole after
  · rename_i short
    have after : n + 1 = (hold + wait) * (n / (hold + wait)) + (n % (hold + wait) + 1) := by omega
    exact mod_inside after (by omega)

/-- An order changes what is held, and nothing else does. -/
theorem heldVolume_next (volume : ℚ) (longHold : 0 < hold) (longWait : 0 < wait) (n : Nat) :
    (sideAt hold wait n = some .buy ∧ heldVolume hold wait volume n = none ∧
      heldVolume hold wait volume (n + 1) = some volume) ∨
      (sideAt hold wait n = some .sell ∧ heldVolume hold wait volume n = some volume ∧
        heldVolume hold wait volume (n + 1) = none) ∨
      (sideAt hold wait n = none ∧ heldVolume hold wait volume (n + 1) =
        heldVolume hold wait volume n) := by
  have longer : 0 < hold + wait := Nat.add_pos_left longHold wait
  have next := mod_next (n := n) longer
  have inside := Nat.mod_lt n longer
  unfold sideAt heldVolume
  rw [next]
  generalize n % (hold + wait) = r at inside ⊢
  by_cases buys : r = 0
  · refine .inl ⟨if_pos buys, if_neg (by omega), if_pos ?_⟩
    split <;> omega
  · by_cases sells : r = hold
    · refine .inr (.inl ⟨by rw [if_neg buys, if_pos sells], if_pos (by omega), if_neg ?_⟩)
      split <;> omega
    · refine .inr (.inr ⟨by rw [if_neg buys, if_neg sells], ?_⟩)
      have same :
          (0 < (if r + 1 = hold + wait then 0 else r + 1) ∧
          (if r + 1 = hold + wait then 0 else r + 1) ≤ hold) ↔
          0 < r ∧ r ≤ hold := by
        split <;> omega
      simp only [same]

end

section
variable {n : Nat} {volume : ℚ} {s : MyStrategy} {tick : Tick}

/-- A bar of a cycle, where the book has a position exactly while one is held. -/
theorem onBar_place
    (place : Place (period s.holdDays) (period s.waitDays) n s.currentState s.daysCounter)
    (here :
      tick.held = true ↔ (heldVolume (period s.holdDays) (period s.waitDays) volume n).isSome) :
    ∃ next count, Turns (s.onBar tick)
      (sideAt (period s.holdDays) (period s.waitDays) n) next count ∧
      Place (period s.holdDays) (period s.waitDays) (n + 1) next count := by
  have longHold := period_pos s.holdDays
  have longWait := period_pos s.waitDays
  generalize state : s.currentState = current at place
  generalize counter : s.daysCounter = count at place
  unfold sideAt
  unfold heldVolume at here
  cases place with
  | beginning first =>
    have turns := onBar_initial tick state
    subst first
    rw [if_neg (by simpa using here)] at turns
    exact ⟨_, _, by simpa using turns, .holding 0 0 rfl longHold⟩
  | holding turned days now inside =>
    have mod := mod_inside now (by omega)
    have turns := onBar_holding tick state
    rw [mod, if_pos (by omega)] at here
    rw [mod, if_neg (by omega)]
    rw [counter, if_pos (here.mpr rfl)] at turns
    by_cases whole : days + 1 = period s.holdDays
    · rw [if_pos ((period_le s.holdDays days).mpr whole.ge)] at turns
      rw [if_pos (by omega)]
      exact ⟨_, _, turns, .waiting turned 0 (by omega) longWait⟩
    · rw [if_neg (mt (period_le s.holdDays days).mp (by omega))] at turns
      rw [if_neg (by omega)]
      refine ⟨_, _, turns, ?_⟩
      exact_mod_cast Place.holding turned (days + 1) (by omega) (by omega)
  | waiting turned days now inside =>
    have turns := onBar_waiting tick state
    rw [counter] at turns
    by_cases whole : days + 1 = period s.waitDays
    · have ending :
        n = (period s.holdDays + period s.waitDays) * turned +
        (period s.holdDays + period s.waitDays) := by omega
      have mod := mod_whole ending
      rw [if_pos ((period_le s.waitDays days).mpr whole.ge),
        if_neg (by simpa [mod] using here)] at turns
      rw [mod, if_pos rfl]
      exact ⟨_, _, turns, .holding (turned + 1) 0 (by rw [Nat.mul_succ]; omega) longHold⟩
    · have mod := mod_inside now (by omega)
      rw [if_neg (mt (period_le s.waitDays days).mp (by omega))] at turns
      rw [mod, if_neg (by omega), if_neg (by omega)]
      refine ⟨_, _, turns, ?_⟩
      exact_mod_cast Place.waiting turned (days + 1) (by omega) (by omega)

/-- The trades of an order are on the long side of its instrument. -/
theorem fills_long {order : OrderInput} {trades : List Trade}
    (placed : order = s.placeBuyOrder tick ∨ order = s.placeSellOrder tick)
    (fills : Fills (some order) trades) :
    ∀ trade ∈ trades, positionDirection trade = some .long ∧
      trade.instrument.key = tick.bar.instrument.key := by
  intro trade member
  obtain ⟨instrument, side, offset, _⟩ := fills.2 trade member
  rcases placed with rfl | rfl
  · exact ⟨by simp [positionDirection, side, offset, MyStrategy.placeBuyOrder,
      MyStrategy.placeOrder], by rw [instrument]; rfl⟩
  · exact ⟨by simp [positionDirection, side, offset, MyStrategy.placeSellOrder,
      MyStrategy.placeOrder], by rw [instrument]; rfl⟩

theorem fills_nonempty {order : OrderInput} {trades : List Trade}
    (fills : Fills (some order) trades) (positive : 0 < order.volume) :
    trades ≠ [] := by
  rintro rfl
  have none : 0 = order.volume := fills.1
  exact positive.ne none

/-- The book once what a bar has led to is filled. -/
theorem book_after {hold wait : Nat} (longHold : 0 < hold) (longWait : 0 < wait)
    {sent : Option OrderInput} {trades : List Trade} {entry : Option Position}
    (placed : ∀ order, sent = some order → order = s.placeBuyOrder tick ∨
      order = s.placeSellOrder tick)
    (fills : Fills sent trades) (positive : 0 < s.tradingVolume)
    (sends : sent.map OrderInput.side = sideAt hold wait n)
    (held : entry.map Position.volume = heldVolume hold wait s.tradingVolume n) :
    ∃ after, trades.foldl PositionBook.update (single tick.bar.instrument.key entry) =
      single tick.bar.instrument.key after ∧
      after.map Position.volume = heldVolume hold wait s.tradingVolume (n + 1) := by
  rcases heldVolume_next s.tradingVolume longHold longWait n with
    ⟨buys, before, later⟩ | ⟨sells, before, later⟩ | ⟨quiet, later⟩
  · obtain ⟨order, rfl, side⟩ := Option.map_eq_some_iff.mp (sends.trans buys)
    rcases placed order rfl with rfl | rfl
    · have nonempty := fills_nonempty fills positive
      have opens : ∀ trade ∈ trades, trade.offset = .open_ :=
        fun trade member => (fills.2 trade member).2.2.1
      refine ⟨_, single_fold (fills_long (.inl rfl) fills), ?_⟩
      rw [volume_fold, held, before, later, bought_fold opens nonempty, fills.1]
      rfl
    · contradiction
  · obtain ⟨order, rfl, side⟩ := Option.map_eq_some_iff.mp (sends.trans sells)
    rcases placed order rfl with rfl | rfl
    · contradiction
    · have nonempty := fills_nonempty fills positive
      have closes : ∀ trade ∈ trades, trade.offset ≠ .open_ := fun trade member open_ =>
        absurd ((fills.2 trade member).2.2.1.symm.trans open_)
          (by simp [MyStrategy.placeSellOrder, MyStrategy.placeOrder])
      have sold := sold_fold closes (fun trade member => (fills.2 trade member).2.2.2) nonempty
      refine ⟨_, single_fold (fills_long (.inr rfl) fills), ?_⟩
      rw [volume_fold, held, before, later, ← sold, fills.1]
      rfl
  · have none : sent = none := Option.map_eq_none_iff.mp (sends.trans quiet)
    subst none
    have empty : trades = [] := fills
    subst empty
    exact ⟨entry, rfl, held.trans later.symm⟩

end

/-- What holds before every bar of a run that begins in `s`. -/
structure Turning (s : MyStrategy) (instrument : Instrument) (c : TradingCycle) : Prop where
  days : c.schedule.strategy.holdDays = s.holdDays ∧ c.schedule.strategy.waitDays = s.waitDays
  volume : c.schedule.strategy.tradingVolume = s.tradingVolume
  place :
    Place (period s.holdDays)
      (period s.waitDays) c.schedule.sent.length c.schedule.strategy.currentState
    c.schedule.strategy.daysCounter
  book : ∃ entry, c.book = single instrument.key entry ∧
    entry.map Position.volume =
      heldVolume (period s.holdDays) (period s.waitDays) s.tradingVolume c.schedule.sent.length
  sides : c.schedule.sent.map (Option.map OrderInput.side) =
    (List.range c.schedule.sent.length).map (sideAt (period s.holdDays) (period s.waitDays))

section
variable {s : MyStrategy} {instrument : Instrument}

theorem start_turning (initial : s.currentState = .initialBuy) (zero : s.daysCounter = 0) :
    Turning s instrument (start s) where
  days := ⟨rfl, rfl⟩
  volume := rfl
  place := by
    change Place _ _ 0 s.currentState s.daysCounter
    rw [initial, zero]
    exact .beginning rfl
  book := ⟨none, (single_none _).symm, by simp [heldVolume, start, Schedule.start]⟩
  sides := rfl

theorem act_turning (positive : 0 < s.tradingVolume) (c : TradingCycle) (event : Tick × List Trade)
    (turning : Turning s instrument c)
    (prompt : c.Prompt instrument event) : Turning s instrument (c.act event) := by
  obtain ⟨entry, book, held⟩ := turning.book
  obtain ⟨hold, wait, volume, placed⟩ := onBar_frame c.schedule.strategy event.1
  have here : event.1.held = true ↔
      (heldVolume (period s.holdDays)
        (period s.waitDays) s.tradingVolume c.schedule.sent.length).isSome := by
    rw [prompt.held, book, single_hasPositions, ← held, Option.isSome_map]
  have place := turning.place
  rw [← turning.days.1, ← turning.days.2] at place here
  obtain ⟨next, count, turns, place⟩ := onBar_place place here
  rw [turning.days.1, turning.days.2] at turns place
  obtain ⟨sends, rfl, rfl⟩ := turns
  have length : (c.act event).schedule.sent.length = c.schedule.sent.length + 1 := act_length _ _
  constructor
  · exact ⟨hold.trans turning.days.1, wait.trans turning.days.2⟩
  · exact volume.trans turning.volume
  · rw [length]
    exact place
  · have filled : ∀ order, (c.schedule.strategy.onBar event.1).1 = some order →
        order = s.placeBuyOrder event.1 ∨ order = s.placeSellOrder event.1 := by
      intro order sent
      obtain ⟨buy, sell⟩ := placed_same event.1 turning.volume
      rw [← buy, ← sell]
      exact placed order sent
    rw [length, ← prompt.bar]
    rw [← prompt.bar] at book
    change ∃ entry, event.2.foldl PositionBook.update c.book = _ ∧ _
    rw [book]
    exact book_after (period_pos _) (period_pos _) filled prompt.fills positive sends held
  · rw [length, List.range_succ, List.map_append, ← turning.sides]
    change (c.schedule.sent ++ [(c.schedule.strategy.onBar event.1).1]).map
      (Option.map OrderInput.side) = _
    rw [List.map_append, List.map_singleton, List.map_singleton, sends]

/-- Where the bars are those of one instrument, come with what the book has and every order is
filled before the next bar, the strategy buys at the beginning of each cycle of `hold_days` and
`wait_days` and sells after `hold_days`; what the book has is its volume in between, long, and
nothing else. -/
theorem turns_over {cfg : Json} (loaded : MyStrategy.setup cfg MyStrategy.make = .ok () s)
    (positive : 0 < s.tradingVolume) (events : List (Tick × List Trade))
    (prompt : ∀ move ∈ Runs.moves act (start s) events, Prompt instrument move.1 move.2) :
    ∀ c ∈ Runs.states act (start s) events,
      c.schedule.sent.map (Option.map OrderInput.side) =
          (List.range c.schedule.sent.length).map (sideAt (period s.holdDays) (period s.waitDays)) ∧
        (∀ key, (c.book.longPositions key).map Position.volume =
          if key = instrument.key then
            heldVolume (period s.holdDays)
              (period s.waitDays) s.tradingVolume c.schedule.sent.length
          else none) ∧
        ∀ key, c.book.shortPositions key = none := by
  obtain ⟨state, counter⟩ := setup_idle loaded
  have all := Runs.invariant (act_turning positive) (start_turning state counter) events prompt
  intro c member
  obtain ⟨entry, book, held⟩ := (all c member).book
  refine ⟨(all c member).sides, fun key => ?_, fun key => ?_⟩
  · rw [book]
    by_cases here : key = instrument.key
    · subst here
      simpa [single] using held
    · simp [single, here]
  · rw [book]
    rfl

end

def parts : List Trade := [History.deal .buy .open_ 12 4, History.deal .buy .open_ 12 6]

/-- The order of the first bar is filled in two parts, and there is a position on the second. -/
def bought : List (Tick × List Trade) := [(tickAt false, parts), (tickAt true, [])]

theorem bought_prompt :
    ∀ move ∈ Runs.moves act (start shortened) bought, Prompt ("X", "IF") move.1 move.2 := by
  have empty : ¬ PositionBook.empty.HasPositions := by
    rw [← single_none 0, single_hasPositions]
    simp
  have acts : ∀ trade ∈ parts, positionDirection trade = some .long ∧
      trade.instrument.key = Instrument.key ("X", "IF") := by
    simp [parts, History.deal, positionDirection, Trade.instrument]
  have held : (parts.foldl PositionBook.update .empty).HasPositions := by
    rw [← single_none (Instrument.key ("X", "IF")), single_fold acts, single_hasPositions]
    rfl
  have first : Prompt ("X", "IF") (start shortened) (tickAt false, parts) := by
    refine ⟨rfl, iff_of_false (by simp [tickAt]) empty, ?_⟩
    change (parts.map Trade.volume).sum = 10 ∧ ∀ trade ∈ parts, _
    constructor
    · norm_num [parts, History.deal]
    · simp [parts, History.deal, Trade.instrument, shortened, MyStrategy.make,
        MyStrategy.placeBuyOrder, MyStrategy.placeOrder, tickAt]
  have second :
      Prompt ("X", "IF") (act (start shortened) (tickAt false, parts)) (tickAt true, []) := by
    refine ⟨rfl, iff_of_true rfl ?_, rfl⟩
    rw [act_book]
    exact held
  intro move member
  rcases List.mem_cons.mp member with rfl | member
  · exact first
  · obtain rfl := List.mem_singleton.mp member
    exact second

theorem turns_over_bought :
    ((bought.foldl act (start shortened)).book.longPositions (Instrument.key ("X", "IF"))).map
      Position.volume = some 10 := by
  have held :=
    (turns_over setup_short (by decide) bought bought_prompt _ (Runs.last_mem _ _)).2.1
      (Instrument.key ("X", "IF"))
  rw [if_pos rfl] at held
  exact held

end TradingCycle
end BTrader
