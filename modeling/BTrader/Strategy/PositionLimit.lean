import BTrader.Strategy.DrawdownGate

/-! The position of the strategy with the orders that are not filled yet, against its limit. -/
namespace BTrader
open Infra

/-- `left` are the volumes that the orders inserted so far still have to be filled with. -/
structure Filling where
  strategy : ConsecutiveBarStrategy
  left : List ℚ

/-- A fill names an order by its place among those inserted. -/
inductive FillingEvent where
  | market (event : ConsecutiveBarStrategy.MarketEvent)
  | fill (index : ℕ) (volume : ℚ) (report : Report)

namespace Filling

/-- The trade of a part of an order. -/
def part (order : OrderInput) (volume : ℚ) (report : Report) : Trade :=
  { report.trade order with volume := volume }

section Runs
variable (leftover : UInt64 → Leftover)

def start (cfg : Json) : Filling := ⟨ConsecutiveBarStrategy.started cfg, []⟩

/-- The order that a fill is about, with what is left of it, where it fills no more than that. -/
def filled (t : Filling) (index : ℕ) (volume : ℚ) : Option (OrderInput × ℚ) :=
  match t.strategy.inserted[index]?, t.left[index]? with
  | some order, some rest => if 0 < volume ∧ volume ≤ rest then some (order, rest) else none
  | _, _ => none

def act (t : Filling) : FillingEvent → Filling
  | .market event =>
    let strategy := t.strategy.onMarket leftover event
    ⟨strategy, t.left ++ (strategy.inserted.drop t.strategy.inserted.length).map (·.volume)⟩
  | .fill index volume report =>
    match t.filled index volume with
    | some (order, rest) =>
      ⟨t.strategy.onTrade (part order volume report), t.left.set index (rest - volume)⟩
    | none => t

end Runs

/-- The volume left of the orders of a kind. -/
def total (kind : OrderInput → Bool) (orders : List OrderInput) (left : List ℚ) : ℚ :=
  (List.zipWith (fun order rest => if kind order then rest else 0) orders left).sum

def opens (order : OrderInput) : Bool := order.offset = .open_

/-- What is left of the orders that open a position. -/
def opening (t : Filling) : ℚ := total opens t.strategy.inserted t.left

/-- What is left of the orders that close it. -/
def closing (t : Filling) : ℚ := total (fun order => !opens order) t.strategy.inserted t.left

def limit (t : Filling) : ℚ := max t.strategy.config.maxPosition 1

def position (t : Filling) : ℚ := t.strategy.state.currentPosition

/-- The position with all that may still open stays within the limit, and no more is to be closed
than there is. -/
structure Within (t : Filling) : Prop where
  opening : |t.position| + t.opening ≤ t.limit
  closing : t.closing ≤ |t.position|

/-- A fill that opens against the position leaves what there is to close, and one that closes in
the direction of the position stays within the limit. -/
def Suits (t : Filling) (order : OrderInput) (trade : Trade) : Prop :=
  if opens order then t.position * trade.signedVolume < 0 →
    t.closing ≤ |t.position + trade.signedVolume|
  else 0 ≤ t.position * trade.signedVolume → |t.position| + trade.volume + t.opening ≤ t.limit

/-- An exit comes while no order is to close the position yet, and a signal while its size fits in
beside the orders that open one. -/
def Meets (t : Filling) (event : FillingEvent) : Prop :=
  match event with
  | .market event =>
    (t.strategy.Exits event → t.closing = 0) ∧
      (t.strategy.Signals event →
        t.opening + t.strategy.calculatePositionSize event.price ≤ t.limit)
  | .fill index volume report =>
    ∀ order rest, t.filled index volume = some (order, rest) →
      t.Suits order (part order volume report)

section Totals
variable (kind : OrderInput → Bool) {orders : List OrderInput} {left : List ℚ}
    {order : OrderInput} {rest : ℚ}

theorem total_concat (same : left.length = orders.length) (order : OrderInput) (rest : ℚ) :
    total kind (orders ++ [order]) (left ++ [rest]) = total kind orders left + if kind order then
      rest else 0 := by
  unfold total
  rw [List.zipWith_append same.symm, List.sum_append]
  simp

theorem total_set {index : ℕ} (inserted : orders[index]? = some order)
    (unfilled : left[index]? = some rest) (x : ℚ) :
    total kind orders (left.set index x) = total kind orders left + if kind order then x - rest
      else 0 := by
  induction orders generalizing left index with
  | nil => simp at inserted
  | cons first orders ih =>
    cases left with
    | nil => simp at unfilled
    | cons last left =>
      cases index with
      | zero =>
        obtain rfl : first = order := by simpa using inserted
        obtain rfl : last = rest := by simpa using unfilled
        simp only [total, List.set_cons_zero, List.zipWith_cons_cons, List.sum_cons]
        split <;> ring
      | succ index =>
        have later := ih (by simpa using inserted) (by simpa using unfilled)
        unfold total at later ⊢
        simp only [List.set_cons_succ, List.zipWith_cons_cons, List.sum_cons]
        rw [later]
        ring

theorem total_nonneg (orders : List OrderInput) (nonneg : ∀ rest ∈ left, 0 ≤ rest) :
    0 ≤ total kind orders left := by
  induction orders generalizing left with
  | nil => simp [total]
  | cons order orders ih =>
    cases left with
    | nil => simp [total]
    | cons rest left =>
      have later := ih fun x member => nonneg x (List.mem_cons_of_mem _ member)
      have first := nonneg rest List.mem_cons_self
      unfold total at later ⊢
      rw [List.zipWith_cons_cons, List.sum_cons]
      split <;> linarith

/-- One of the orders has no more left than they have together. -/
theorem le_total (nonneg : ∀ rest ∈ left, 0 ≤ rest) {index : ℕ}
    (inserted : orders[index]? = some order)
    (unfilled : left[index]? = some rest) (known : kind order = true) :
      rest ≤ total kind orders left := by
  have without : 0 ≤ total kind orders (left.set index 0) :=
    total_nonneg kind orders fun x member => by
    rcases List.mem_or_eq_of_mem_set member with inside | same
    · exact nonneg x inside
    · exact same.ge
  rw [total_set kind inserted unfilled, if_pos known] at without
  linarith

end Totals

section Steps
variable {leftover : UInt64 → Leftover} {t : Filling}

/-- What holds of every run. -/
structure Sound (t : Filling) : Prop where
  lengths : t.left.length = t.strategy.inserted.length
  nonneg : ∀ rest ∈ t.left, 0 ≤ rest
  sides : ∀ order ∈ t.strategy.inserted, order.side = .buy ∨ order.side = .sell
  bounded : t.strategy.config.Bounded
  opened : t.strategy.state.positionOpened = true ↔ t.position ≠ 0

theorem filled_some {index : ℕ} {volume : ℚ} {order : OrderInput} {rest : ℚ}
    (filled : t.filled index volume = some (order, rest)) :
    t.strategy.inserted[index]? = some order ∧ t.left[index]? = some rest ∧ 0 < volume ∧
      volume ≤ rest := by
  unfold Filling.filled at filled
  split at filled
  · rename_i inserted unfilled
    split at filled
    · rename_i fits
      obtain ⟨rfl, rfl⟩ := Prod.mk.inj (Option.some.inj filled)
      exact ⟨inserted, unfilled, fits⟩
    · contradiction
  · contradiction

theorem onTrade_opened (trade : Trade) (s : ConsecutiveBarStrategy) :
    (s.onTrade trade).state.positionOpened = true ↔
      (s.onTrade trade).state.currentPosition ≠ 0 := by
  rw [ConsecutiveBarStrategy.onTrade, (ConsecutiveBarStrategy.updatePnlTracking_same trade _).1]
  dsimp only
  split
  · rename_i left
    exact iff_of_true rfl left
  · rename_i flat
    exact iff_of_false Bool.false_ne_true flat

/-- With orders sent, the state has them with their whole volumes left. -/
theorem act_market {event : ConsecutiveBarStrategy.MarketEvent} {orders : List OrderInput}
    (sent : t.strategy.Sent (t.strategy.onMarket leftover event) orders) :
    (t.act leftover (.market event)).strategy.inserted = t.strategy.inserted ++ orders ∧
      (t.act leftover (.market event)).left = t.left ++ orders.map (·.volume) := by
  refine ⟨sent.inserted, ?_⟩
  simp only [act]
  rw [sent.inserted, List.drop_left]

theorem closes_fine {order : OrderInput} (closes : t.strategy.Closes order) :
    0 ≤ order.volume ∧ (order.side = .buy ∨ order.side = .sell) := by
  refine ⟨closes.volume ▸ abs_nonneg _, ?_⟩
  rw [closes.side]
  split
  · exact .inr rfl
  · exact .inl rfl

theorem opens_fine {price : ℚ} {order : OrderInput} (opens : t.strategy.Opens price order) :
    0 ≤ order.volume ∧ (order.side = .buy ∨ order.side = .sell) :=
  ⟨opens.volume ▸ (t.strategy.calculatePositionSize_positive _).le, opens.side⟩

/-- With orders that are sent, all that holds of a run goes on to. -/
theorem Sound.market (sound : t.Sound) {event : ConsecutiveBarStrategy.MarketEvent}
    {orders : List OrderInput} (sent : t.strategy.Sent (t.strategy.onMarket leftover event) orders)
    (fine : ∀ order ∈ orders, 0 ≤ order.volume ∧ (order.side = .buy ∨ order.side = .sell)) :
    (t.act leftover (.market event)).Sound := by
  obtain ⟨inserted, left⟩ := act_market sent
  refine ⟨?_, fun rest member => ?_, fun other member => ?_, sent.config ▸ sound.bounded, ?_⟩
  · rw [inserted, left, List.length_append, List.length_append, List.length_map, sound.lengths]
  · rw [left] at member
    rcases List.mem_append.mp member with earlier | now
    · exact sound.nonneg rest earlier
    · obtain ⟨order, sends, rfl⟩ := List.mem_map.mp now
      exact (fine order sends).1
  · rw [inserted] at member
    rcases List.mem_append.mp member with earlier | now
    · exact sound.sides other earlier
    · exact (fine other now).2
  · have same := sound.opened
    rw [position] at same ⊢
    rwa [← sent.opened, ← sent.position] at same

theorem act_fill {index : ℕ} {volume : ℚ} {report : Report} {order : OrderInput} {rest : ℚ}
    (filled : t.filled index volume = some (order, rest)) :
      t.act leftover (.fill index volume report) =
      ⟨t.strategy.onTrade (part order volume report), t.left.set index (rest - volume)⟩ := by
  simp only [act, filled]

theorem Sound.fill (sound : t.Sound) {index : ℕ} {volume : ℚ} {report : Report}
    {order : OrderInput} {rest : ℚ} (filled : t.filled index volume = some (order, rest)) :
      (t.act leftover (.fill index volume report)).Sound := by
  obtain ⟨-, -, -, covered⟩ := filled_some filled
  have inserted := (ConsecutiveBarStrategy.onTrade_same (part order volume report) t.strategy).2.2
  rw [act_fill filled]
  refine ⟨?_, fun x member => ?_, ?_, ?_, onTrade_opened _ _⟩
  · rw [List.length_set, inserted, sound.lengths]
  · rcases List.mem_or_eq_of_mem_set member with inside | same
    · exact sound.nonneg x inside
    · rw [same]
      linarith
  · rw [inserted]
    exact sound.sides
  · rw [ConsecutiveBarStrategy.onTrade_config]
    exact sound.bounded

theorem act_sound (t : Filling) (event : FillingEvent) (sound : t.Sound) :
    (t.act leftover event).Sound := by
  cases event with
  | market event =>
    rcases ConsecutiveBarStrategy.onMarket_sent sound.bounded event with
      ⟨-, order, closes, sent⟩ | ⟨-, order, opens, sent⟩ | ⟨-, -, sent⟩
    · exact sound.market sent (List.forall_mem_singleton.mpr (closes_fine closes))
    · exact sound.market sent (List.forall_mem_singleton.mpr (opens_fine opens))
    · exact sound.market sent (List.forall_mem_nil _)
  | fill index volume report =>
    cases filled : t.filled index volume with
    | some known => exact sound.fill filled
    | none =>
      simp only [act, filled]
      exact sound

end Steps

section Limit
variable {leftover : UInt64 → Leftover} {t : Filling}

/-- The totals with one order more. -/
theorem sent_totals (sound : t.Sound) {event : ConsecutiveBarStrategy.MarketEvent}
    {order : OrderInput} (sent : t.strategy.Sent (t.strategy.onMarket leftover event) [order]) :
    (t.act leftover (.market event)).opening =
      t.opening + (if opens order then order.volume else 0) ∧
      (t.act leftover (.market event)).closing =
        t.closing + (if !opens order then order.volume else 0) := by
  obtain ⟨inserted, left⟩ := act_market sent
  rw [List.map_singleton] at left
  rw [opening, closing, inserted, left, total_concat _ sound.lengths, total_concat _ sound.lengths]
  exact ⟨rfl, rfl⟩

theorem sent_position {event : ConsecutiveBarStrategy.MarketEvent} {orders : List OrderInput}
    (sent : t.strategy.Sent (t.strategy.onMarket leftover event) orders) :
    (t.act leftover (.market event)).position = t.position ∧
      (t.act leftover (.market event)).limit = t.limit := by
  refine ⟨sent.position, ?_⟩
  rw [limit, limit]
  exact congrArg (fun config => max config.maxPosition 1) sent.config

theorem Sound.closing_nonneg (sound : t.Sound) : 0 ≤ t.closing := total_nonneg _ _ sound.nonneg

theorem market_within_iff (sound : t.Sound) (within : t.Within)
    (event : ConsecutiveBarStrategy.MarketEvent) :
    (t.act leftover (.market event)).Within ↔ t.Meets (.market event) := by
  have nonneg := sound.closing_nonneg
  have apart (exits : t.strategy.Exits event) (signals : t.strategy.Signals event) : False := by
    have flat := ConsecutiveBarStrategy.signals_flat event signals
    cases event with
    | bar bar now => simp [exits.1] at flat
    | quote quote => exact signals.elim
    | order order => exact signals.elim
  rcases ConsecutiveBarStrategy.onMarket_sent sound.bounded event with
    ⟨exits, order, closes, sent⟩ | ⟨signals, order, opened, sent⟩ | ⟨noExit, noSignal, sent⟩
  · obtain ⟨opening, closing⟩ := sent_totals sound sent
    obtain ⟨position, limit⟩ := sent_position sent
    have kind : opens order = false := by simp [opens, closes.offset]
    have volume : order.volume = |t.position| := closes.volume
    rw [kind, if_neg Bool.false_ne_true, add_zero] at opening
    rw [kind, Bool.not_false, if_pos rfl, volume] at closing
    constructor
    · intro after
      have bound := after.closing
      rw [closing, position] at bound
      exact ⟨fun _ => by linarith, fun signals => (apart exits signals).elim⟩
    · intro meets
      have none := meets.1 exits
      constructor
      · rw [position, opening, limit]
        exact within.opening
      · rw [closing, position, none, zero_add]
  · obtain ⟨opening, closing⟩ := sent_totals sound sent
    obtain ⟨position, limit⟩ := sent_position sent
    have kind : opens order = true := by simp [opens, opened.offset]
    have flat : t.position = 0 := by
      by_contra left
      have open_ := sound.opened.mpr left
      rw [ConsecutiveBarStrategy.signals_flat event signals] at open_
      contradiction
    rw [kind, if_pos rfl, opened.volume] at opening
    rw [kind, Bool.not_true, if_neg Bool.false_ne_true, add_zero] at closing
    constructor
    · intro after
      have bound := after.opening
      rw [position, flat, abs_zero, zero_add, opening, limit] at bound
      exact ⟨fun exits => (apart exits signals).elim, fun _ => bound⟩
    · intro meets
      constructor
      · rw [position, flat, abs_zero, zero_add, opening, limit]
        exact meets.2 signals
      · rw [closing, position]
        exact within.closing
  · obtain ⟨inserted, left⟩ := act_market sent
    rw [List.append_nil] at inserted
    rw [List.map_nil, List.append_nil] at left
    obtain ⟨position, limit⟩ := sent_position sent
    refine iff_of_true ⟨?_, ?_⟩ ⟨fun exits => absurd exits noExit,
      fun signals => absurd signals noSignal⟩
    · rw [position, limit, opening, inserted, left]
      exact within.opening
    · rw [position, closing, inserted, left]
      exact within.closing

section Fills
variable {index : ℕ} {volume : ℚ} (report : Report) {order : OrderInput} {rest : ℚ}

variable (leftover) in
/-- The totals with a part of an order filled. -/
theorem fill_totals (filled : t.filled index volume = some (order, rest)) :
    (t.act leftover (.fill index volume report)).opening =
      t.opening - (if opens order then volume else 0) ∧
      (t.act leftover (.fill index volume report)).closing =
        t.closing - (if !opens order then volume else 0) := by
  obtain ⟨inserted, unfilled, -, -⟩ := filled_some filled
  have same := (ConsecutiveBarStrategy.onTrade_same (part order volume report) t.strategy).2.2
  have less (kind : Bool) :
      (if kind then rest - volume - rest else 0) = -(if kind then volume else 0) := by
    split <;> ring
  rw [act_fill filled, opening, closing, same, total_set _ inserted unfilled,
    total_set _ inserted unfilled, less, less]
  exact ⟨(sub_eq_add_neg _ _).symm, (sub_eq_add_neg _ _).symm⟩

variable (leftover) in
theorem fill_position (filled : t.filled index volume = some (order, rest)) :
    (t.act leftover (.fill index volume report)).position =
      t.position + (part order volume report).signedVolume ∧
      (t.act leftover (.fill index volume report)).limit = t.limit := by
  rw [act_fill filled]
  refine ⟨ConsecutiveBarStrategy.onTrade_position _ _, ?_⟩
  rw [limit, limit, ConsecutiveBarStrategy.onTrade_config]

theorem part_volume (sound : t.Sound) (filled : t.filled index volume = some (order, rest)) :
    |(part order volume report).signedVolume| = volume := by
  obtain ⟨inserted, -, positive, -⟩ := filled_some filled
  have proper : (part order volume report).Proper :=
    ⟨sound.sides order (List.mem_of_getElem? inserted), positive⟩
  exact (ConsecutiveBarStrategy.signedVolume_abs proper).1

/-- A part of an order is filled, and suits or not. -/
theorem part_within_iff (sound : t.Sound) (within : t.Within)
    (filled : t.filled index volume = some (order, rest)) :
    (t.act leftover (.fill index volume report)).Within ↔
      t.Suits order (part order volume report) := by
  obtain ⟨position, limit⟩ := fill_position leftover report filled
  obtain ⟨opening, closing⟩ := fill_totals leftover report filled
  obtain ⟨inserted, unfilled, positive, covered⟩ := filled_some filled
  have size := part_volume report sound filled
  have reach := abs_add_le t.position (part order volume report).signedVolume
  have open_ := within.opening
  have close := within.closing
  have own : (part order volume report).volume = volume := rfl
  unfold Suits
  cases kind : opens order with
  | true =>
    rw [kind, if_pos rfl] at opening
    rw [kind, Bool.not_true, if_neg Bool.false_ne_true, sub_zero] at closing
    rw [if_pos rfl]
    constructor
    · intro after _
      have bound := after.closing
      rwa [closing, position] at bound
    · intro against
      constructor
      · rw [position, opening, limit]
        linarith
      · rw [closing, position]
        rcases lt_or_ge (t.position * (part order volume report).signedVolume) 0 with less | more
        · exact against less
        · rw [abs_add_with more]
          linarith
  | false =>
    have closes : (fun order => !opens order) order = true := by simp [kind]
    have held : rest ≤ t.closing := le_total _ sound.nonneg inserted unfilled closes
    rw [kind, if_neg Bool.false_ne_true, sub_zero] at opening
    rw [kind, Bool.not_false, if_pos rfl] at closing
    rw [if_neg Bool.false_ne_true, own]
    rcases lt_or_ge (t.position * (part order volume report).signedVolume) 0 with less | more
    · have back := abs_add_against less (by linarith)
      refine iff_of_true ⟨?_, ?_⟩ fun more => absurd less (not_lt.mpr more)
      · rw [position, opening, limit, back]
        linarith
      · rw [closing, position, back]
        linarith
    · have along := abs_add_with more
      constructor
      · intro after _
        have bound := after.opening
        rw [position, opening, limit, along] at bound
        linarith
      · intro fits
        have bound := fits more
        constructor
        · rw [position, opening, limit, along]
          linarith
        · rw [closing, position, along]
          linarith

theorem fill_within_iff (sound : t.Sound) (within : t.Within) (index : ℕ) (volume : ℚ) :
    (t.act leftover (.fill index volume report)).Within ↔ t.Meets (.fill index volume report) := by
  cases filled : t.filled index volume with
  | none =>
    have same : t.act leftover (.fill index volume report) = t := by simp only [act, filled]
    rw [same]
    refine iff_of_true within fun order rest found => ?_
    rw [filled] at found
    contradiction
  | some known =>
    rw [part_within_iff report sound within filled]
    constructor
    · intro suits order rest found
      obtain rfl : known = (order, rest) := Option.some.inj (filled.symm.trans found)
      exact suits
    · exact fun meets => meets known.1 known.2 filled

end Fills

theorem act_within_iff (t : Filling) (event : FillingEvent) (sound : t.Sound) (within : t.Within) :
    (t.act leftover event).Within ↔ t.Meets event := by
  cases event with
  | market event => exact market_within_iff sound within event
  | fill index volume report => exact fill_within_iff report sound within index volume

theorem start_sound (cfg : Json) : (start cfg).Sound := by
  have none : (start cfg).strategy.inserted = [] := ConsecutiveBarStrategy.setup_inserted cfg
  refine ⟨?_, fun _ empty => absurd empty List.not_mem_nil, fun order member => ?_,
    ConsecutiveBarStrategy.keeps_bounded cfg .make ConsecutiveBarStrategy.make_bounded, ?_⟩
  · rw [none]
    rfl
  · rw [none] at member
    exact absurd member List.not_mem_nil
  · exact iff_of_false Bool.false_ne_true fun left => left rfl

theorem start_within (cfg : Json) : (start cfg).Within := by
  have none : (start cfg).strategy.inserted = [] := ConsecutiveBarStrategy.setup_inserted cfg
  have flat : (start cfg).position = 0 := rfl
  constructor
  · rw [flat, opening, none, abs_zero, zero_add]
    exact zero_le_one.trans (le_max_right _ _)
  · rw [closing, none]
    exact abs_nonneg _

/-- In a run, the strategy stays within its limit in every state just when each event meets the
condition. -/
theorem run_within_iff (leftover : UInt64 → Leftover) (cfg : Json) (events : List FillingEvent) :
    (∀ t ∈ Runs.states (act leftover) (start cfg) events, t.Within) ↔
      ∀ move ∈ Runs.moves (act leftover) (start cfg) events, move.1.Meets move.2 := by
  have kept : ∀ (t : Filling) (event : FillingEvent), t.Sound → True →
      (t.act leftover event).Sound :=
    fun t event sound _ => act_sound t event sound
  have survives : ∀ (t : Filling) (event : FillingEvent), t.Sound → True → t.Within →
      ((t.act leftover event).Within ↔ t.Meets event) :=
        fun t event sound _ within => act_within_iff t event sound within
  exact Runs.states_iff kept survives (start_sound cfg) (start_within cfg) events fun _ _ => trivial

/-- A bar that rises to 1. -/
def risingBar (now : Int64) : FillingEvent :=
  .market (.bar ⟨⟨"IF", "X", 1, 1⟩, 0, 1 / 2, 1, 1 / 2, 1⟩ now)

/-- A second signal comes while the order of the first is not filled, and sends a thousand more. -/
theorem second_signal :
    ¬ ∀ (leftover : UInt64 → Leftover) (cfg : Json) (events : List FillingEvent),
    ∀ t ∈ Runs.states (act leftover) (start cfg) events, t.Within := by
  intro within
  let events := [risingBar 5000, risingBar 5000, risingBar 5000, risingBar 7000]
  have last := within (fun _ => Trading.cleared) Trading.futures events _ (Runs.last_mem _ _)
  have opened : (events.foldl (act fun _ => Trading.cleared) (start Trading.futures)).opening =
      2000 := by decide +kernel
  have limited : (events.foldl (act fun _ => Trading.cleared) (start Trading.futures)).limit =
      1000 := by decide +kernel
  have bound := last.opening
  rw [opened, limited] at bound
  have nonneg :=
    abs_nonneg (events.foldl (act fun _ => Trading.cleared) (start Trading.futures)).position
  linarith

end Limit

end Filling
end BTrader
