import BTrader.Core.PositionVolume

/-! The cost price of a position against the average of what was paid for it. -/
namespace BTrader
open PositionBook

/-- A volume and the average price of it. -/
structure Holding where
  volume : ℚ
  price : ℚ
  deriving DecidableEq, Repr

namespace Holding

/-- The reference rule: an opening trade averages, a closing one leaves the price. -/
def after (trade : Trade) : Option Holding → Option Holding
  | none => some ⟨trade.volume, trade.price⟩
  | some holding =>
    if trade.offset = .open_ then
      some ⟨holding.volume + trade.volume,
        (holding.volume * holding.price + trade.volume * trade.price) /
          (holding.volume + trade.volume)⟩
    else if holding.volume - trade.volume ≤ 0 then none
    else some ⟨holding.volume - trade.volume, holding.price⟩

/-- The average of the volumes held and traded, over the whole units of both, is the one of
the reference rule. -/
def Undisturbed (trade : Trade) (holding : Holding) : Prop :=
  let units := castInt64 (holding.volume + trade.volume)
  if trade.offset = .open_ then
    units = holding.volume + trade.volume ∨ units = 0 ∧ trade.price = holding.price
  else
    holding.volume = trade.volume ∨ units = 0 ∨
      holding.price * holding.volume + trade.price * trade.volume = holding.price * units

def Positive (holding : Holding) : Prop := 0 < holding.volume ∧ 0 < holding.price

theorem after_positive {trade : Trade} {entry : Option Holding} (volume : 0 < trade.volume)
    (price : 0 < trade.price) (positive : ∀ holding ∈ entry, holding.Positive) :
      ∀ holding ∈ after trade entry, holding.Positive := by
  intro holding made
  cases entry with
  | none =>
    cases made
    exact ⟨volume, price⟩
  | some held =>
    obtain ⟨some, paid⟩ := positive held rfl
    simp only [after, Option.mem_def] at made
    split at made
    · cases made
      exact ⟨by positivity, by positivity⟩
    · split at made
      · contradiction
      · rename_i left
        cases made
        exact ⟨not_le.mp left, paid⟩

end Holding

section
variable {position : Position} {trade : Trade}

/-- The average over whole units is the average, or there is no whole unit at all. -/
theorem averagedPrice_open_iff (held : 0 < position.volume) (paid : 0 < position.positionCostPrice)
    (volume : 0 < trade.volume) (price : 0 < trade.price) :
    averagedPrice position trade =
      (position.volume * position.positionCostPrice + trade.volume * trade.price) /
        (position.volume + trade.volume) ↔
      castInt64 (position.volume + trade.volume) = position.volume + trade.volume ∨
        castInt64 (position.volume + trade.volume) = 0 ∧
          trade.price = position.positionCostPrice := by
  have total : 0 < position.volume + trade.volume := add_pos held volume
  have whole : 0 ≤ castInt64 (position.volume + trade.volume) := by
    rw [castInt64_nonneg_eq total.le]
    exact Int.floor_nonneg.mpr total.le
  have cost : position.positionCostPrice * position.volume + trade.price * trade.volume =
      position.volume * position.positionCostPrice + trade.volume * trade.price := by ring
  have worth : position.volume * position.positionCostPrice + trade.volume * trade.price ≠ 0 := by
    positivity
  by_cases none : castInt64 (position.volume + trade.volume) = 0
  · have stays : averagedPrice position trade = position.positionCostPrice := by
      simp [averagedPrice, none]
    rw [stays, none, eq_div_iff total.ne']
    constructor
    · intro same
      have equal : trade.volume * trade.price = trade.volume * position.positionCostPrice := by
        linarith
      exact .inr ⟨rfl, mul_left_cancel₀ volume.ne' equal⟩
    · rintro (zero | ⟨_, equal⟩)
      · rw [Int.cast_zero] at zero
        exact absurd zero.symm total.ne'
      · rw [equal]
        ring
  · have some : castInt64 (position.volume + trade.volume) > 0 :=
      lt_of_le_of_ne whole (Ne.symm none)
    simp only [averagedPrice, if_pos some, cost, none, false_and, or_false]
    rw [div_eq_div_iff (Int.cast_ne_zero.mpr none) total.ne', mul_right_inj' worth]
    exact eq_comm

/-- A closing trade is averaged in as well: the price survives when both are worth the same. -/
theorem averagedPrice_close_iff (held : 0 < position.volume) (volume : 0 < trade.volume) :
    averagedPrice position trade = position.positionCostPrice ↔
      castInt64 (position.volume + trade.volume) = 0 ∨
        position.positionCostPrice * position.volume + trade.price * trade.volume =
          position.positionCostPrice * castInt64 (position.volume + trade.volume) := by
  have total : 0 < position.volume + trade.volume := add_pos held volume
  have whole : 0 ≤ castInt64 (position.volume + trade.volume) := by
    rw [castInt64_nonneg_eq total.le]
    exact Int.floor_nonneg.mpr total.le
  by_cases none : castInt64 (position.volume + trade.volume) = 0
  · simp [averagedPrice, none]
  · have some : castInt64 (position.volume + trade.volume) > 0 :=
      lt_of_le_of_ne whole (Ne.symm none)
    have units : (castInt64 (position.volume + trade.volume) : ℚ) ≠ 0 := Int.cast_ne_zero.mpr none
    simp only [averagedPrice, if_pos some, none, false_or]
    exact div_eq_iff units

theorem updated_price_iff {holding : Holding} (positive : holding.Positive)
    (volume : 0 < trade.volume) (price : 0 < trade.price) (held : position.volume = holding.volume)
    (paid : position.positionCostPrice = holding.price)
    (covered : trade.offset ≠ .open_ → trade.volume ≤ holding.volume) :
    (updated position trade).map Position.positionCostPrice =
        (Holding.after trade (some holding)).map Holding.price ↔ holding.Undisturbed trade := by
  obtain ⟨some, worth⟩ := positive
  rw [← held] at some
  rw [← paid] at worth
  by_cases opens : trade.offset = .open_
  · have average := averagedPrice_open_iff some worth volume price
    simpa only [updated, Holding.after, Holding.Undisturbed, opens, if_true, Option.map_some,
      Option.some.injEq, held, paid] using average
  · have closes := averagedPrice_close_iff some volume
    rw [held, paid] at closes
    by_cases all : holding.volume - trade.volume ≤ 0
    · have whole : holding.volume = trade.volume := le_antisymm (sub_nonpos.mp all) (covered opens)
      simp [updated, Holding.after, Holding.Undisturbed, opens, held, whole]
    · have more : holding.volume ≠ trade.volume := fun same => all (by rw [same, sub_self])
      simp only [updated, Holding.after, Holding.Undisturbed, opens, if_false, held, all,
        Option.map_some, Option.some.injEq, more, false_or]
      exact closes

end

/-- A book with what the trades of one instrument come to on either side. -/
structure Costing where
  book : PositionBook
  held : Direction → Option Holding

namespace Costing

def start : Costing := ⟨.empty, fun _ => none⟩

def heldAfter (held : Direction → Option Holding) (trade : Trade) : Direction → Option Holding :=
  match positionDirection trade with
  | none => held
  | some direction => Function.update held direction (Holding.after trade (held direction))

def act (c : Costing) (trade : Trade) : Costing := ⟨c.book.update trade, heldAfter c.held trade⟩

/-- The book keeps the average prices. -/
def Priced (instrument : Instrument) (c : Costing) : Prop :=
  ∀ direction, direction = .long ∨ direction = .short →
    (c.book.get instrument.2 instrument.1 direction).map Position.positionCostPrice =
      (c.held direction).map Holding.price

/-- The book keeps the volumes, and there is something in every entry. -/
def Sized (instrument : Instrument) (c : Costing) : Prop :=
  ∀ direction, direction = .long ∨ direction = .short →
    (c.book.get instrument.2 instrument.1 direction).map Position.volume =
      (c.held direction).map Holding.volume ∧
      ∀ holding ∈ c.held direction, holding.Positive

/-- The trade opens, or closes at most what is held. -/
def Covers (held : Direction → Option Holding) (trade : Trade) : Prop :=
  trade.offset ≠ .open_ → ∀ direction, positionDirection trade = some direction →
    ∃ holding, held direction = some holding ∧ trade.volume ≤ holding.volume

/-- The trade does not disturb the average of what is held. -/
def Undisturbed (held : Direction → Option Holding) (trade : Trade) : Prop :=
  ∀ direction, positionDirection trade = some direction → ∀ holding, held direction = some holding →
    holding.Undisturbed trade

structure Enabled (instrument : Instrument) (c : Costing) (trade : Trade) : Prop where
  proper : trade.Proper
  price : 0 < trade.price
  own : trade.instrument = instrument
  covers : Covers c.held trade

variable {instrument : Instrument} {c : Costing} {trade : Trade} {direction d : Direction}

theorem act_get (own : trade.instrument = instrument)
    (acts : positionDirection trade = some direction)
    (sides : direction = .long ∨ direction = .short) (side : d = .long ∨ d = .short) :
    (c.act trade).book.get instrument.2 instrument.1 d =
      if d = direction then
        entryAfter trade direction (c.book.get instrument.2 instrument.1 direction)
      else c.book.get instrument.2 instrument.1 d := by
  subst own
  have only :=
    update_get c.book (Set.injOn_singleton Instrument.key trade.instrument) (Set.mem_singleton _)
    (Set.mem_singleton _) acts sides side
  simp only [true_and] at only
  exact only

theorem act_held (acts : positionDirection trade = some direction) :
    (c.act trade).held d = if d = direction then Holding.after trade (c.held direction)
      else c.held d := by
  change heldAfter c.held trade d = _
  rw [heldAfter, acts]
  by_cases here : d = direction
  · subst here
    simp
  · simp [here]

theorem act_sized (sized : c.Sized instrument) (enabled : c.Enabled instrument trade) :
    (c.act trade).Sized instrument := by
  obtain ⟨direction, acts, sides⟩ := enabled.proper.direction
  intro d side
  rw [act_get enabled.own acts sides side, act_held acts]
  by_cases here : d = direction
  · subst here
    obtain ⟨same, positive⟩ := sized d side
    simp only [if_true]
    refine ⟨?_, Holding.after_positive enabled.proper.positive enabled.price positive⟩
    rw [entryAfter_volume, same]
    cases c.held d with
    | none => rfl
    | some holding =>
      simp only [Option.map_some, volumeAfter, Holding.after]
      split
      · rfl
      · split <;> rfl
  · simpa only [here, if_false] using sized d side

theorem act_priced (sized : c.Sized instrument) (enabled : c.Enabled instrument trade)
    (priced : c.Priced instrument) :
    (c.act trade).Priced instrument ↔ Undisturbed c.held trade := by
  obtain ⟨direction, acts, sides⟩ := enabled.proper.direction
  have entry : (entryAfter trade direction (c.book.get instrument.2 instrument.1 direction)).map
        Position.positionCostPrice = (Holding.after trade (c.held direction)).map Holding.price ↔
      Undisturbed c.held trade := by
    obtain ⟨volumes, positive⟩ := sized direction sides
    have prices := priced direction sides
    cases held : c.held direction with
    | none =>
      rw [held, Option.map_none, Option.map_eq_none_iff] at volumes
      rw [volumes]
      simp [entryAfter, created, Holding.after, Undisturbed, acts, held]
    | some holding =>
      rw [held] at volumes prices positive
      obtain ⟨position, there, volume⟩ := Option.map_eq_some_iff.mp volumes
      rw [there, Option.map_some, Option.map_some, Option.some.injEq] at prices
      have covered (closes : trade.offset ≠ .open_) : trade.volume ≤ holding.volume := by
        obtain ⟨other, same, enough⟩ := enabled.covers closes direction acts
        cases held.symm.trans same
        exact enough
      rw [there]
      refine (updated_price_iff
        (positive holding rfl) enabled.proper.positive enabled.price volume prices
        covered).trans ?_
      simp [Undisturbed, acts, held]
  rw [← entry]
  constructor
  · intro all
    have own := all direction sides
    rwa [act_get enabled.own acts sides sides, act_held acts, if_pos rfl, if_pos rfl] at own
  · intro own d side
    rw [act_get enabled.own acts sides side, act_held acts]
    by_cases here : d = direction
    · simpa only [here, if_true] using own
    · simpa only [here, if_false] using priced d side

/-- Along any history of one instrument in which no trade closes more than is held, the book
keeps the average prices if and only if no trade disturbs them. -/
theorem prices_iff (instrument : Instrument) (trades : List Trade)
    (own : ∀ trade ∈ trades, trade.instrument = instrument)
    (sides : ∀ trade ∈ trades, trade.side = .buy ∨ trade.side = .sell)
    (positive : ∀ trade ∈ trades, 0 < trade.volume ∧ 0 < trade.price)
    (covered : ∀ move ∈ Runs.moves act start trades, Covers move.1.held move.2) :
    (∀ c ∈ Runs.states act start trades, c.Priced instrument) ↔
      ∀ move ∈ Runs.moves act start trades, Undisturbed move.1.held move.2 := by
  have allowed : ∀ move ∈ Runs.moves act start trades, move.1.Enabled instrument move.2 := by
    intro move member
    have from_ := Runs.moves_actions start trades move member
    exact ⟨⟨sides _ from_, (positive _ from_).1⟩, (positive _ from_).2, own _ from_,
      covered move member⟩
  have started : start.Sized instrument := by
    intro direction side
    rcases side with rfl | rfl <;> exact ⟨rfl, by simp [start]⟩
  have first : start.Priced instrument := by
    intro direction side
    rcases side with rfl | rfl <;> rfl
  exact Runs.states_iff (fun c trade => act_sized)
    (fun c trade => act_priced) started first trades allowed

theorem prices_iff_closed :
    (∀ c ∈ Runs.states act start [History.deal .buy .open_ 10 3, History.deal .sell .close 30 3],
        c.Priced ("X", "IF")) ↔
      ∀ move ∈ Runs.moves act start [History.deal .buy .open_ 10 3, History.deal .sell .close 30 3],
        Undisturbed move.1.held move.2 := by
  have bought : (start.act (History.deal .buy .open_ 10 3)).held .long = some ⟨3, 10⟩ := by
    decide +kernel
  have covered :
      ∀ move ∈ Runs.moves act start [History.deal .buy .open_ 10 3, History.deal .sell .close 30 3],
      Covers move.1.held move.2 := by
    intro move member
    simp only [Runs.moves, List.mem_cons, List.not_mem_nil, or_false] at member
    rcases member with rfl | rfl
    · exact fun closes => absurd rfl closes
    · intro _ direction acts
      cases Option.some.inj acts
      exact ⟨⟨3, 10⟩, bought, le_refl _⟩
  exact prices_iff ("X", "IF") [History.deal .buy .open_ 10 3, History.deal .sell .close 30 3]
    (by simp [History.deal, Trade.instrument]) (by simp [History.deal])
      (by simp [History.deal]) covered

/-- Three units bought at 10, one of them sold at 20: the two that are left cost 12.5 each. -/
theorem close_averages :
    ¬ ∀ c ∈ Runs.states act start [History.deal .buy .open_ 10 3, History.deal .sell .close 20 1],
      c.Priced ("X", "IF") := by
  intro priced
  let c := (start.act (History.deal .buy .open_ 10 3)).act (History.deal .sell .close 20 1)
  have kept : (c.book.get "IF" "X" .long).map Position.positionCostPrice = some (25 / 2) := by
    decide +kernel
  have average : (c.held .long).map Holding.price = some 10 := by decide +kernel
  have same := priced c (by simp [Runs.states, c]) .long (.inl rfl)
  have apart : (25 / 2 : ℚ) ≠ 10 := by norm_num
  exact apart (Option.some.inj (kept.symm.trans (same.trans average)))

end Costing
end BTrader
