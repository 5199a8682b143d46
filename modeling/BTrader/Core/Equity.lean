import BTrader.Core.PositionCost

/-! What the book says its account is worth, beside a ledger of cash, average costs and last
prices. -/
namespace BTrader
open PositionBook

/-- The members of a `Bar` that the book reads. -/
structure Bar where
  instrumentId : String
  exchangeId : String
  endTime : Int64
  close : ℚ
  deriving DecidableEq, Repr

def Bar.instrument (bar : Bar) : Instrument := (bar.exchangeId, bar.instrumentId)

/-- Positions on the short side lose what the price gains. -/
def Direction.factor (direction : Direction) : ℤ := if direction = .long then 1 else -1

namespace PositionBook

/-- The profit of an entry of a map. -/
def profit (entry : Option Position) : ℚ := entry.elim 0 Position.unrealizedPnl

def volumeIn (entry : Option Position) : ℚ := entry.elim 0 Position.volume

/-- The sum over the entries, in whatever order the maps have them. -/
def unrealizedPnl (book : PositionBook) : ℚ :=
  ∑ key : UInt32, profit (book.longPositions key) + ∑ key : UInt32, profit (book.shortPositions key)

/-- A sum over the entries. -/
def total (book : PositionBook) (each : UInt32 → Position → ℚ) : ℚ :=
  ∑ key : UInt32, (book.longPositions key).elim 0 (each key) +
    ∑ key : UInt32, (book.shortPositions key).elim 0 (each key)

end PositionBook

/-- What the entry cost, as the book has it; what is short counts off. -/
def Position.signedCost (position : Position) : ℚ :=
  position.volume * position.positionCostPrice * position.direction.factor

namespace Book

/-- `volume * (close - cost) * factor`. -/
def profitAt (position : Position) (bar : Bar) : ℚ :=
  position.volume * (bar.close - position.positionCostPrice) * position.direction.factor

def updatePositionPnl (position : Position) (bar : Bar) : Position :=
  { position with unrealizedPnl := profitAt position bar, updateTime := bar.endTime }

/-- The entry on one side of the bar's instrument, if it is there and has volume. -/
def updateSide (positions : PositionBook) (bar : Bar) (direction : Direction) : PositionBook :=
  match positions.get bar.instrumentId bar.exchangeId direction with
  | none => positions
  | some position =>
    if position.volume > 0 then
      positions.assign direction (hashInstrument bar.exchangeId bar.instrumentId)
        (some (updatePositionPnl position bar))
    else positions

def updateBar (book : Book) (bar : Bar) : Book :=
  if bar.instrumentId = "" ∨ bar.exchangeId = "" then book
  else
    let held := (book.positions.get bar.instrumentId bar.exchangeId .long).isSome ∨
      (book.positions.get bar.instrumentId bar.exchangeId .short).isSome
    { asset := if held then { book.asset with updateTime := bar.endTime } else book.asset
      positions := updateSide (updateSide book.positions bar .long) bar .short }

def assetPrice (book : Book) : ℚ := book.asset.avail + book.positions.unrealizedPnl

end Book

/-- What an account comes to: the fees paid, the profit realised at average costs, and the
holdings with the last close of every instrument. -/
structure Ledger where
  fees : ℚ
  realised : ℚ
  held : Instrument × Direction → Option Holding
  lastClose : Instrument → Option ℚ

namespace Ledger

def start : Ledger := ⟨0, 0, fun _ => none, fun _ => none⟩

/-- The profit of a closing trade on what is held. -/
def realisedBy (trade : Trade) (direction : Direction) (held : Option Holding) : ℚ :=
  if trade.offset = .open_ then 0
  else held.elim 0 fun holding => (trade.price - holding.price) * trade.volume * direction.factor

def enter (ledger : Ledger) (trade : Trade) : Ledger :=
  let fees := ledger.fees + trade.commission + trade.tax
  match positionDirection trade with
  | none => { ledger with fees }
  | some direction =>
    let place := (trade.instrument, direction)
    { ledger with
      fees
      realised := ledger.realised + realisedBy trade direction (ledger.held place)
      held := Function.update ledger.held place (Holding.after trade (ledger.held place)) }

def mark (ledger : Ledger) (bar : Bar) : Ledger :=
  { ledger with lastClose := Function.update ledger.lastClose bar.instrument (some bar.close) }

/-- The last close, or the cost before any bar. -/
def price (ledger : Ledger) (instrument : Instrument) (holding : Holding) : ℚ :=
  (ledger.lastClose instrument).getD holding.price

/-- A sum over all that is held of the instruments, what is short counted off. -/
def total (ledger : Ledger) (instruments : Finset Instrument)
    (each : Instrument → Holding → ℚ) : ℚ :=
  ∑ place ∈ instruments ×ˢ {.long, .short},
    (ledger.held place).elim 0 fun holding => holding.volume * each place.1 holding * place.2.factor

/-- The cash there was, less fees, with the profit realised and the profit of what is open. -/
def equity (ledger : Ledger) (cash : ℚ) (instruments : Finset Instrument) : ℚ :=
  cash - ledger.fees + ledger.realised +
    ledger.total instruments fun instrument holding =>
      ledger.price instrument holding - holding.price

/-- No trade of a negative volume, and none that closes more than is held. -/
def Covers (ledger : Ledger) (trade : Trade) : Prop :=
  0 ≤ trade.volume ∧
    (trade.offset ≠ .open_ → ∀ direction, positionDirection trade = some direction →
    ∃ holding, ledger.held (trade.instrument, direction) = some holding ∧
      trade.volume ≤ holding.volume)

end Ledger

inductive BookInput where
  | trade (trade : Trade)
  | bar (bar : Bar)

/-- The book of an account with its ledger. -/
structure Accounting where
  book : Book
  ledger : Ledger

namespace Accounting

def start (asset : Asset) : Accounting := ⟨⟨asset, .empty⟩, .start⟩

def act (a : Accounting) : BookInput → Accounting
  | .trade trade => ⟨a.book.update trade, a.ledger.enter trade⟩
  | .bar bar => ⟨a.book.updateBar bar, a.ledger.mark bar⟩

/-- The instruments of the trades. -/
def traded (inputs : List BookInput) : Finset Instrument :=
  (inputs.filterMap fun
    | .trade trade => some trade.instrument
    | .bar _ => none).toFinset

/-- The bar's key, if it has one: a bar without a name is passed over. -/
def Own (bar : Bar) (key : UInt32) : Prop :=
  bar.instrumentId ≠ "" ∧ bar.exchangeId ≠ "" ∧ key = bar.instrument.key

instance (bar : Bar) (key : UInt32) : Decidable (Own bar key) :=
  inferInstanceAs (Decidable (_ ∧ _ ∧ _))

/-- The entry gets its profit from the bar: it is of the bar's key and has volume. -/
def Marks (bar : Bar) (key : UInt32) (position : Position) : Prop :=
  Own bar key ∧ 0 < position.volume

instance (bar : Bar) (key : UInt32) (position : Position) : Decidable (Marks bar key position) :=
  inferInstanceAs (Decidable (_ ∧ _))

/-- What is open, at its last prices, less what it cost, where the bar does not mark it. -/
def unmarkedProfit (a : Accounting) (instruments : Finset Instrument) (bar : Bar) : ℚ :=
  (a.ledger.total instruments fun instrument holding =>
      (if instrument = bar.instrument then bar.close else a.ledger.price instrument holding) -
        if Own bar instrument.key then bar.close else 0) -
    a.book.positions.total fun key position => if Marks bar key position then 0
      else position.signedCost

/-- The profit on record for these. -/
def unmarkedPnl (book : Book) (bar : Bar) : ℚ :=
  book.positions.total fun key position => if Marks bar key position then 0
    else position.unrealizedPnl

/-- The costs of everything open, long and short, cancel, but for what the profit on record of
entries that the bar does not mark exceeds their profit by. -/
def CostsCancel (a : Accounting) (instruments : Finset Instrument) (bar : Bar) : Prop :=
  (a.book.positions.total fun _ position => position.signedCost) =
    unmarkedPnl a.book bar - a.unmarkedProfit instruments bar

/-- Every entry is marked by the bar, or has had a bar since it was traded last; no other
instrument has the bar's key. -/
structure UpToDate (a : Accounting) (instruments : Finset Instrument) (bar : Bar) : Prop where
  named : bar.instrumentId ≠ "" ∧ bar.exchangeId ≠ ""
  alone : ∀ instrument ∈ instruments, instrument.key = bar.instrument.key →
    instrument = bar.instrument
  shown : ∀ d, d = .long ∨ d = .short → ∀ key, ∀ position ∈ a.book.positions.positions d key,
    Marks bar key position ∨ ∃ close,
      (∀ instrument ∈ instruments, instrument.key = key →
        a.ledger.lastClose instrument = some close) ∧
        position.unrealizedPnl = position.volume * (close - position.positionCostPrice) *
          position.direction.factor

end Accounting

/-! What a trade does to the cash -/

/-- What an opening trade costs, or a closing one brings in with the sign reversed. -/
def Trade.spent (trade : Trade) : ℚ :=
  (positionDirection trade).elim 0 fun direction =>
    if trade.offset = .open_ then trade.price * trade.volume * direction.factor
    else -(trade.price * trade.volume * direction.factor)

/-- What a trade adds to the volume on its side. -/
def Trade.added (trade : Trade) : ℚ := if trade.offset = .open_ then trade.volume else -trade.volume

theorem Book.update_avail (book : Book) (trade : Trade) :
    (book.update trade).asset.avail = book.asset.avail - trade.spent - trade.commission -
      trade.tax := by
  by_cases opens : trade.offset = .open_
  · cases side : trade.side
      <;> simp [Book.update, Trade.spent, positionDirection, Direction.factor, side, opens]
  · cases side : trade.side
      <;> simp [Book.update, Trade.spent, positionDirection, Direction.factor, side, opens]

theorem Book.updateBar_avail (book : Book) (bar : Bar) :
    (book.updateBar bar).asset.avail = book.asset.avail := by
  unfold updateBar
  split
  · rfl
  · dsimp only
    split <;> rfl

namespace Holding

def volumeIn (held : Option Holding) : ℚ := held.elim 0 Holding.volume

/-- What a holding cost. -/
def cost (held : Option Holding) : ℚ := held.elim 0 fun holding => holding.volume * holding.price

theorem after_cost {trade : Trade} {held : Option Holding} (volume : 0 ≤ trade.volume)
    (nonneg : ∀ holding ∈ held, 0 ≤ holding.volume) (opens : trade.offset = .open_) :
    cost (after trade held) = cost held + trade.volume * trade.price := by
  cases held with
  | none => simp [after, cost]
  | some holding =>
    have some : 0 ≤ holding.volume := nonneg holding rfl
    simp only [after, opens, if_true, cost, Option.elim_some]
    by_cases nothing : holding.volume + trade.volume = 0
    · have none : holding.volume = 0 := by linarith
      have none' : trade.volume = 0 := by linarith
      rw [none, none']
      ring
    · rw [mul_div_cancel₀ _ nothing]

theorem after_cost_close {trade : Trade} {holding : Holding} (closes : trade.offset ≠ .open_)
    (covered : trade.volume ≤ holding.volume) :
    cost (after trade (some holding)) = cost (some holding) - trade.volume * holding.price := by
  simp only [after, closes, if_false, cost, Option.elim_some]
  split
  · rename_i all
    have whole : holding.volume = trade.volume := le_antisymm (sub_nonpos.mp all) covered
    rw [whole, Option.elim_none, sub_self]
  · rw [Option.elim_some]
    ring

theorem after_volumeIn {trade : Trade} {held : Option Holding}
    (covered : trade.offset ≠ .open_ → ∃ holding, held = some holding ∧
      trade.volume ≤ holding.volume) :
    volumeIn (after trade held) = volumeIn held + trade.added := by
  by_cases opens : trade.offset = .open_
  · cases held <;> simp [after, volumeIn, Trade.added, opens]
  · obtain ⟨holding, rfl, enough⟩ := covered opens
    simp only [after, volumeIn, Trade.added, opens, if_false, Option.elim_some]
    split
    · rename_i all
      have whole : holding.volume = trade.volume := le_antisymm (sub_nonpos.mp all) enough
      simp [whole]
    · simp [sub_eq_add_neg]

theorem after_nonneg {trade : Trade} {held : Option Holding} (volume : 0 ≤ trade.volume)
    (nonneg : ∀ holding ∈ held, 0 ≤ holding.volume) :
      ∀ holding ∈ after trade held, 0 ≤ holding.volume := by
  intro holding made
  cases held with
  | none =>
    cases made
    exact volume
  | some before =>
    simp only [after, Option.mem_def] at made
    split at made
    · cases made
      exact add_nonneg (nonneg before rfl) volume
    · split at made
      · contradiction
      · rename_i left
        cases made
        exact (not_le.mp left).le

end Holding

namespace Ledger
variable {ledger : Ledger} {trade : Trade} {instruments : Finset Instrument}

theorem sum_update {ι β : Type*} [DecidableEq ι] {s : Finset ι} {a : ι} (member : a ∈ s)
    (f : ι → β) (b : β) (g : ι → β → ℚ) :
      ∑ x ∈ s, g x (Function.update f a b x) = ∑ x ∈ s, g x (f x) + (g a b - g a (f a)) := by
  have others : ∑ x ∈ s.erase a, g x (Function.update f a b x) = ∑ x ∈ s.erase a, g x (f x) :=
    Finset.sum_congr rfl fun x inside => by
      rw [Function.update_of_ne (Finset.ne_of_mem_erase inside)]
  rw [← Finset.add_sum_erase s _ member, ← Finset.add_sum_erase s (fun x => g x (f x)) member,
    others, Function.update_self]
  ring

theorem total_sub (ledger : Ledger) (instruments : Finset Instrument)
    (f g : Instrument → Holding → ℚ) :
    (ledger.total instruments fun instrument holding => f instrument holding -
      g instrument holding) =
      ledger.total instruments f - ledger.total instruments g := by
  rw [total, total, total, ← Finset.sum_sub_distrib]
  refine Finset.sum_congr rfl fun place _ => ?_
  cases ledger.held place with
  | none => simp
  | some holding =>
    simp only [Option.elim_some]
    ring

/-- What everything open cost. -/
def cost (ledger : Ledger) (instruments : Finset Instrument) : ℚ :=
  ledger.total instruments fun _ holding => holding.price

theorem equity_eq (ledger : Ledger) (cash : ℚ) (instruments : Finset Instrument) :
    ledger.equity cash instruments =
      cash - ledger.fees + ledger.realised - ledger.cost instruments +
        ledger.total instruments ledger.price := by
  have split :
      (ledger.total instruments fun instrument holding => ledger.price instrument holding -
      holding.price) =
      ledger.total instruments ledger.price - ledger.cost instruments := total_sub ..
  rw [equity, split]
  ring

theorem cost_eq (ledger : Ledger) (instruments : Finset Instrument) :
    ledger.cost instruments =
      ∑ place ∈ instruments ×ˢ {.long, .short}, Holding.cost (ledger.held place) *
        place.2.factor := by
  rw [cost, total]
  refine Finset.sum_congr rfl fun place _ => ?_
  cases ledger.held place with
  | none => simp [Holding.cost]
  | some holding => rfl

theorem positionDirection_sides {trade : Trade} {direction : Direction}
    (acts : positionDirection trade = some direction) :
    direction = .long ∨ direction = .short := by
  unfold positionDirection at acts
  split at acts
  · cases acts
    split <;> simp
  · cases acts
    split <;> simp
  · contradiction

/-- What is spent on a trade goes into the cost of what is open, less the profit realised. -/
theorem enter_cost (known : trade.instrument ∈ instruments) (covers : ledger.Covers trade)
    (nonneg : ∀ place, ∀ holding ∈ ledger.held place, 0 ≤ holding.volume) :
    (ledger.enter trade).cost instruments - (ledger.enter trade).realised =
      ledger.cost instruments - ledger.realised + trade.spent := by
  rw [cost_eq, cost_eq]
  cases acts : positionDirection trade with
  | none => simp [enter, Trade.spent, acts]
  | some direction =>
    have member :
        (trade.instrument, direction) ∈ instruments ×ˢ ({.long, .short} : Finset Direction) := by
      rcases positionDirection_sides acts with rfl | rfl <;> simp [known]
    have changed :=
      sum_update member ledger.held
        (Holding.after trade (ledger.held (trade.instrument, direction)))
      fun place held => Holding.cost held * place.2.factor
    simp only [enter, acts, changed, Trade.spent, Option.elim_some]
    by_cases opens : trade.offset = .open_
    · rw [Holding.after_cost covers.1 (nonneg _) opens, realisedBy, if_pos opens, if_pos opens]
      ring
    · obtain ⟨holding, held, enough⟩ := covers.2 opens direction acts
      rw [held, Holding.after_cost_close opens enough, realisedBy, if_neg opens, if_neg opens,
        Option.elim_some]
      ring

theorem enter_fees (ledger : Ledger) (trade : Trade) :
    (ledger.enter trade).fees = ledger.fees + trade.commission + trade.tax := by
  cases acts : positionDirection trade <;> simp [enter, acts]

theorem enter_nonneg (volume : 0 ≤ trade.volume)
    (nonneg : ∀ place, ∀ holding ∈ ledger.held place, 0 ≤ holding.volume) :
    ∀ place, ∀ holding ∈ (ledger.enter trade).held place, 0 ≤ holding.volume := by
  cases acts : positionDirection trade with
  | none => simpa [enter, acts] using nonneg
  | some direction =>
    intro place holding there
    simp only [enter, acts, Function.update_apply] at there
    split at there
    · exact Holding.after_nonneg volume (nonneg _) holding there
    · exact nonneg place holding there

/-- The prices once the bar has come. -/
theorem mark_value (ledger : Ledger) (bar : Bar) (instruments : Finset Instrument) :
    (ledger.mark bar).total instruments (ledger.mark bar).price =
      ledger.total instruments fun instrument holding =>
        if instrument = bar.instrument then bar.close else ledger.price instrument holding := by
  have priced : (ledger.mark bar).price = fun instrument holding =>
      if instrument = bar.instrument then bar.close else ledger.price instrument holding := by
    funext instrument holding
    simp only [price, mark, Function.update_apply]
    split <;> rfl
  rw [priced]
  rfl

end Ledger

/-! What is on record -/

namespace PositionBook
variable {book : PositionBook} {trade : Trade} {bar : Bar}

theorem entryAfter_volumeIn {entry : Option Position} {direction : Direction}
    (volume : 0 ≤ trade.volume) (covered : trade.offset ≠ .open_ → trade.volume ≤ volumeIn entry) :
    volumeIn (entryAfter trade direction entry) = volumeIn entry + trade.added := by
  by_cases opens : trade.offset = .open_
  · cases entry <;> simp [entryAfter, created, updated, volumeIn, Trade.added, opens]
  · have enough := covered opens
    cases entry with
    | none =>
      -- Only a trade of no volume closes where there is no entry.
      have none : trade.volume = 0 := le_antisymm enough volume
      simp [entryAfter, created, volumeIn, Trade.added, none]
    | some position =>
      simp only [volumeIn, Option.elim_some] at enough
      simp only [entryAfter, updated, volumeIn, Trade.added, opens, if_false, Option.elim_some]
      split
      · rename_i all
        have whole : position.volume = trade.volume := le_antisymm (sub_nonpos.mp all) enough
        simp [whole]
      · simp [sub_eq_add_neg]

theorem entryAfter_direction {entry : Option Position} {direction : Direction}
    (side : ∀ position ∈ entry, position.direction = direction) :
    ∀ position ∈ entryAfter trade direction entry, position.direction = direction := by
  intro position made
  cases entry with
  | none =>
    cases made
    rfl
  | some before =>
    have same := side before rfl
    simp only [entryAfter, updated, Option.mem_def] at made
    split at made
    · cases made
      exact same
    · split at made
      · contradiction
      · cases made
        exact same

/-- An opening trade leaves the profit of every entry as it is. -/
theorem update_profit (opens : trade.offset = .open_) (d : Direction) (key : UInt32) :
    profit ((book.update trade).positions d key) = profit (book.positions d key) := by
  cases acts : positionDirection trade with
  | none => rw [PositionBook.update, acts]
  | some direction =>
    let hashKey := trade.instrument.key
    have same : profit (entryAfter trade direction (book.positions direction hashKey)) =
        profit (book.positions direction hashKey) := by
      cases book.positions direction hashKey with
      | none => rfl
      | some position => simp [entryAfter, updated, opens, profit]
    rw [update_eq book acts, assign_positions]
    split
    · rename_i side
      have here : book.positions d = book.positions direction := by simp only [positions, side]
      by_cases own : key = hashKey
      · rw [own, Function.update_self, same, here]
      · rw [Function.update_of_ne own]
    · rfl

theorem unrealizedPnl_eq (book : PositionBook) :
    book.unrealizedPnl = ∑ key : UInt32, profit (book.positions .long key) +
      ∑ key : UInt32, profit (book.positions .short key) :=
  rfl

theorem total_add (book : PositionBook) (f g : UInt32 → Position → ℚ) :
    (book.total fun key position => f key position + g key position) =
      book.total f + book.total g := by
  have side (positions : UInt32 → Option Position) :
      ∑ key : UInt32, (positions key).elim 0 (fun position => f key position + g key position) =
        ∑ key : UInt32, (positions key).elim 0 (f key) +
          ∑ key : UInt32, (positions key).elim 0 (g key) := by
    rw [← Finset.sum_add_distrib]
    refine Finset.sum_congr rfl fun key _ => ?_
    cases positions key <;> simp
  simp only [total, side]
  ring

theorem total_congr {f g : UInt32 → Position → ℚ}
    (same : ∀ d, d = .long ∨ d = .short → ∀ key, ∀ position ∈ book.positions d key, f key position =
      g key position) :
    book.total f = book.total g := by
  have side {d : Direction} (side : d = .long ∨ d = .short) (key : UInt32) :
      (book.positions d key).elim 0 (f key) = (book.positions d key).elim 0 (g key) := by
    have here := same d side key
    cases entry : book.positions d key with
    | none => rfl
    | some position => exact here position entry
  exact congrArg₂ (· + ·) (Finset.sum_congr rfl fun key _ => side (.inl rfl) key)
    (Finset.sum_congr rfl fun key _ => side (.inr rfl) key)

theorem update_unrealizedPnl (opens : trade.offset = .open_) :
    (book.update trade).unrealizedPnl = book.unrealizedPnl := by
  simp only [unrealizedPnl_eq, update_profit opens]

/-- What a bar makes of the entries of one side. -/
def revalued (bar : Bar) (key : UInt32) (position : Position) : Position :=
  if key = hashInstrument bar.exchangeId bar.instrumentId ∧
    0 < position.volume then Book.updatePositionPnl position bar
  else position

@[simp] theorem revalued_volume (bar : Bar) (key : UInt32) (position : Position) :
    (revalued bar key position).volume = position.volume := by
  unfold revalued
  split <;> rfl

@[simp] theorem revalued_direction (bar : Bar) (key : UInt32) (position : Position) :
    (revalued bar key position).direction = position.direction := by
  unfold revalued
  split <;> rfl

theorem updateSide_positions (book : PositionBook) (bar : Bar) (direction d : Direction)
    (key : UInt32) :
    (Book.updateSide book bar direction).positions d key =
      if (d = .long ↔ direction = .long) then (book.positions d key).map (revalued bar key)
      else book.positions d key := by
  let hashKey := hashInstrument bar.exchangeId bar.instrumentId
  have apart {entry : Option Position}
      (other : ∀ position ∈ entry, revalued bar key position = position) :
      entry.map (revalued bar key) = entry := by
    cases entry with
    | none => rfl
    | some position => rw [Option.map_some, other position rfl]
  have sides (same : d = .long ↔ direction = .long) :
      book.positions d = book.positions direction := by
    simp only [positions, same]
  unfold Book.updateSide get
  cases found : book.positions direction hashKey with
  | none =>
    dsimp only
    split
    · rename_i side
      refine (apart fun position there => ?_).symm
      have elsewhere : key ≠ hashKey := by
        rintro rfl
        rw [sides side, found] at there
        contradiction
      exact if_neg fun both => elsewhere both.1
    · rfl
  | some position =>
    dsimp only
    by_cases volume : 0 < position.volume
    · rw [if_pos volume, assign_positions]
      split
      · rename_i side
        by_cases own : key = hashKey
        · subst own
          rw [Function.update_self, sides side, found, Option.map_some, revalued,
            if_pos ⟨rfl, volume⟩]
        · rw [Function.update_of_ne own]
          exact (apart fun _ _ => if_neg fun both => own both.1).symm
      · rfl
    · rw [if_neg volume]
      split
      · rename_i side
        refine (apart fun other there => if_neg fun both => ?_).symm
        have same : key = hashKey := both.1
        rw [sides side, same, found] at there
        cases there
        exact volume both.2
      · rfl

end PositionBook

namespace Accounting
variable {a : Accounting} {instruments : Finset Instrument} {cash : ℚ} {bar : Bar}

/-- The entries after the bar. -/
theorem updateBar_positions (book : Book) (bar : Bar) {d : Direction}
    (side : d = .long ∨ d = .short) (key : UInt32) :
    (book.updateBar bar).positions.positions d key =
      if bar.instrumentId ≠ "" ∧
        bar.exchangeId ≠ "" then (book.positions.positions d key).map (revalued bar key)
      else book.positions.positions d key := by
  unfold Book.updateBar
  by_cases invalid : bar.instrumentId = "" ∨ bar.exchangeId = ""
  · rw [if_pos invalid, if_neg (by tauto)]
  · rw [if_neg invalid, if_pos (by tauto)]
    rcases side with rfl | rfl <;> simp [updateSide_positions]

/-- The profit on record after the bar. -/
theorem updateBar_unrealizedPnl (book : Book) (bar : Bar) :
    (book.updateBar bar).positions.unrealizedPnl = book.positions.total fun key position =>
      if Marks bar key position then Book.profitAt position bar else position.unrealizedPnl := by
  have worth {d : Direction} (side : d = .long ∨ d = .short) (key : UInt32) :
      profit ((book.updateBar bar).positions.positions d key) =
        (book.positions.positions d key).elim 0 fun position =>
        if Marks bar key position then Book.profitAt position bar else position.unrealizedPnl := by
    rw [updateBar_positions book bar side]
    cases book.positions.positions d key with
    | none => split <;> rfl
    | some position =>
      by_cases named : bar.instrumentId ≠ "" ∧ bar.exchangeId ≠ ""
      · have marks : Marks bar key position ↔
            key = hashInstrument bar.exchangeId bar.instrumentId ∧ 0 < position.volume := by
          simp [Marks, Own, named, Bar.instrument, Instrument.key]
        simp only [if_pos named, Option.map_some, profit, Option.elim_some, revalued, marks]
        split <;> rfl
      · have unmarked : ¬ Marks bar key position := fun marks => named ⟨marks.1.1, marks.1.2.1⟩
        simp only [if_neg named, profit, Option.elim_some, if_neg unmarked]
  rw [unrealizedPnl_eq]
  simp only [worth (.inl rfl), worth (.inr rfl)]
  rfl

/-- The cash is what there was, less the fees, with what closing trades brought and without what
is open cost. -/
structure Balanced (cash : ℚ) (instruments : Finset Instrument) (a : Accounting) : Prop where
  avail : a.book.asset.avail = cash - a.ledger.fees + a.ledger.realised - a.ledger.cost instruments
  nonneg : ∀ place, ∀ holding ∈ a.ledger.held place, 0 ≤ holding.volume
  volumes : ∀ d, d = .long ∨ d = .short → ∀ key, volumeIn (a.book.positions.positions d key) =
    ∑ instrument ∈ instruments with instrument.key =
      key, Holding.volumeIn (a.ledger.held (instrument, d))
  sides : ∀ d, d = .long ∨ d = .short →
    ∀ key, ∀ position ∈ a.book.positions.positions d key, position.direction = d

/-- A trade is of one of the instruments, and covered. -/
def Enabled (instruments : Finset Instrument) (a : Accounting) : BookInput → Prop
  | .trade trade => trade.instrument ∈ instruments ∧ a.ledger.Covers trade
  | .bar _ => True

theorem Balanced.held_nonneg (balanced : a.Balanced cash instruments)
    (place : Instrument × Direction) :
    0 ≤ Holding.volumeIn (a.ledger.held place) := by
  cases entry : a.ledger.held place with
  | none => exact le_rfl
  | some holding => exact balanced.nonneg _ holding entry

theorem Balanced.volumeIn_nonneg (balanced : a.Balanced cash instruments) {d : Direction}
    (side : d = .long ∨ d = .short)
    (key : UInt32) : 0 ≤ volumeIn (a.book.positions.positions d key) := by
  rw [balanced.volumes d side key]
  exact Finset.sum_nonneg fun _ _ => balanced.held_nonneg _

/-- The volumes of a side of the book are those of the ledger, key by key. -/
theorem Balanced.update_volumes (balanced : a.Balanced cash instruments) {trade : Trade}
    (known : trade.instrument ∈ instruments) (covers : a.ledger.Covers trade) {d : Direction}
    (side : d = .long ∨ d = .short) (key : UInt32) :
    volumeIn ((a.book.update trade).positions.positions d key) =
      ∑ instrument ∈ instruments with instrument.key = key,
        Holding.volumeIn ((a.ledger.enter trade).held (instrument, d)) := by
  change volumeIn ((a.book.positions.update trade).positions d key) = _
  cases acts : positionDirection trade with
  | none =>
    simp only [PositionBook.update, Ledger.enter, acts]
    exact balanced.volumes d side key
  | some direction =>
    have sides := Ledger.positionDirection_sides acts
    have here : (d = .long ↔ direction = .long) ↔ d = direction := by
      rcases side with rfl | rfl <;> rcases sides with rfl | rfl <;> simp
    simp only [update_eq _ acts, assign_positions, here, Ledger.enter, acts]
    by_cases same : d = direction
    · subst same
      have old := balanced.volumes d side
      have among : trade.instrument ∈ instruments.filter fun instrument => instrument.key =
          trade.instrument.key := by
        simp [known]
      have held : Holding.volumeIn (a.ledger.held (trade.instrument, d)) ≤
          volumeIn (a.book.positions.positions d trade.instrument.key) := by
        rw [old]
        exact Finset.single_le_sum
          (f := fun instrument => Holding.volumeIn (a.ledger.held (instrument, d)))
          (fun _ _ => balanced.held_nonneg _) among
      have enough (closes : trade.offset ≠ .open_) :
          trade.volume ≤ volumeIn (a.book.positions.positions d trade.instrument.key) := by
        obtain ⟨holding, there, enough⟩ := covers.2 closes d acts
        rw [there] at held
        exact enough.trans held
      have changed (instrument : Instrument) : Function.update a.ledger.held (trade.instrument, d)
          (Holding.after trade (a.ledger.held (trade.instrument, d))) (instrument, d) =
          Function.update (fun instrument => a.ledger.held (instrument, d)) trade.instrument
            (Holding.after trade (a.ledger.held (trade.instrument, d))) instrument := by
        simp only [Function.update_apply, Prod.mk.injEq, and_true]
      simp only [if_true, changed]
      by_cases own : key = trade.instrument.key
      · subst own
        rw [Function.update_self, entryAfter_volumeIn covers.1 enough,
          Ledger.sum_update among _ _ fun _ held => Holding.volumeIn held,
          Holding.after_volumeIn fun closes => covers.2 closes d acts, old]
        ring
      · rw [Function.update_of_ne own, old]
        refine Finset.sum_congr rfl fun instrument member => ?_
        have other : instrument ≠ trade.instrument := by
          rintro rfl
          exact own (Finset.mem_filter.mp member).2.symm
        rw [Function.update_of_ne other]
    · rw [if_neg same]
      have others (instrument : Instrument) :
          Function.update a.ledger.held (trade.instrument, direction)
          (Holding.after trade (a.ledger.held (trade.instrument, direction))) (instrument, d) =
            a.ledger.held (instrument, d) := by
        rw [Function.update_of_ne]
        simp [same]
      simp only [others]
      exact balanced.volumes d side key

theorem Balanced.update_sides (balanced : a.Balanced cash instruments) (trade : Trade)
    {d : Direction} (side : d = .long ∨ d = .short) (key : UInt32) :
    ∀ position ∈ (a.book.update trade).positions.positions d key, position.direction = d := by
  have old := balanced.sides d side key
  change ∀ position ∈ (a.book.positions.update trade).positions d key, position.direction = d
  cases acts : positionDirection trade with
  | none => simpa only [PositionBook.update, acts] using old
  | some direction =>
    have sides := Ledger.positionDirection_sides acts
    have here : (d = .long ↔ direction = .long) ↔ d = direction := by
      rcases side with rfl | rfl <;> rcases sides with rfl | rfl <;> simp
    simp only [update_eq _ acts, assign_positions, here]
    split
    · rename_i same
      subst same
      by_cases own : key = trade.instrument.key
      · subst own
        rw [Function.update_self]
        exact entryAfter_direction old
      · rwa [Function.update_of_ne own]
    · exact old

theorem act_balanced (balanced : a.Balanced cash instruments) {input : BookInput}
    (enabled : a.Enabled instruments input) :
    (a.act input).Balanced cash instruments := by
  cases input with
  | bar bar =>
    refine ⟨(Book.updateBar_avail a.book bar).trans balanced.avail, balanced.nonneg,
      fun d side key => ?_, fun d side key position there => ?_⟩
    · have old := balanced.volumes d side key
      have same : volumeIn ((a.book.updateBar bar).positions.positions d key) =
          volumeIn (a.book.positions.positions d key) := by
        rw [updateBar_positions a.book bar side]
        cases a.book.positions.positions d key <;> split <;> simp [volumeIn]
      exact same.trans old
    · change position ∈ (a.book.updateBar bar).positions.positions d key at there
      rw [updateBar_positions a.book bar side] at there
      split at there
      · obtain ⟨before, entry, rfl⟩ := Option.mem_map.mp there
        rw [revalued_direction]
        exact balanced.sides d side key before entry
      · exact balanced.sides d side key position there
  | trade trade =>
    obtain ⟨known, covers⟩ := enabled
    refine ⟨?_, Ledger.enter_nonneg covers.1 balanced.nonneg,
      fun d side key => balanced.update_volumes known covers side key,
        fun d side key => balanced.update_sides trade side key⟩
    have costs := Ledger.enter_cost known covers balanced.nonneg
    have cashes := balanced.avail
    simp only [act, Book.update_avail, Ledger.enter_fees]
    linarith

/-- What the bar marks has the volume of the ledger, and is worth the close. -/
theorem Balanced.marked_value (balanced : a.Balanced cash instruments) (bar : Bar) :
    (a.book.positions.total fun key position =>
        if Marks bar key position then position.volume * bar.close * position.direction.factor
        else 0) =
      a.ledger.total instruments fun instrument _ => if Own bar instrument.key then bar.close
        else 0 := by
  have side {d : Direction} (side : d = .long ∨ d = .short) :
      ∑ key : UInt32, (a.book.positions.positions d key).elim 0 (fun position =>
          if Marks bar key position then position.volume * bar.close * position.direction.factor
          else 0) =
        ∑ instrument ∈ instruments, (a.ledger.held (instrument, d)).elim 0 fun holding =>
          holding.volume *
          (if Own bar instrument.key then bar.close else 0) * d.factor := by
    rw [← Finset.sum_fiberwise instruments Instrument.key]
    refine Finset.sum_congr rfl fun key _ => ?_
    have volumes := balanced.volumes d side key
    have entry : (a.book.positions.positions d key).elim 0 (fun position =>
          if Marks bar key position then position.volume * bar.close * position.direction.factor
          else 0) =
        volumeIn (a.book.positions.positions d key) *
          ((if Own bar key then bar.close else 0) * d.factor) := by
      cases there : a.book.positions.positions d key with
      | none => simp [volumeIn]
      | some position =>
        have direction := balanced.sides d side key position there
        by_cases own : Own bar key
        · by_cases some : 0 < position.volume
          · simp [Marks, own, some, volumeIn, direction, mul_assoc]
          · have nonneg := balanced.volumeIn_nonneg side key
            rw [there] at nonneg
            have none : position.volume = 0 := le_antisymm (not_lt.mp some) nonneg
            simp [Marks, volumeIn, none]
        · simp [Marks, own]
    rw [entry, volumes, Finset.sum_mul]
    refine Finset.sum_congr rfl fun instrument member => ?_
    rw [(Finset.mem_filter.mp member).2]
    cases a.ledger.held (instrument, d) with
    | none => simp [Holding.volumeIn]
    | some holding => simp [Holding.volumeIn, mul_assoc]
  have long := side (.inl rfl)
  have short := side (.inr rfl)
  simp only [positions, reduceCtorEq, if_true, if_false] at long short
  rw [PositionBook.total, Ledger.total, Finset.sum_product, long, short]
  simp only [Finset.sum_pair (by decide : Direction.long ≠ .short), Finset.sum_add_distrib]

/-- After a bar the price is the equity just when the costs of what is open cancel. -/
theorem bar_iff (balanced : a.Balanced cash instruments) (bar : Bar) :
    (a.act (.bar bar)).book.assetPrice = (a.act (.bar bar)).ledger.equity cash instruments ↔
      a.CostsCancel instruments bar := by
  have kept : (a.act (.bar bar)).Balanced cash instruments := act_balanced balanced trivial
  have cashes := kept.avail
  have value := balanced.marked_value bar
  -- An entry shows the close less its cost when it is marked, and else what it showed before.
  have entries : (a.book.positions.total fun key position =>
        if Marks bar key position then Book.profitAt position bar else position.unrealizedPnl) +
        (a.book.positions.total fun _ position => position.signedCost) =
      (a.book.positions.total fun key position =>
        if Marks bar key position then position.volume * bar.close * position.direction.factor
        else 0) +
        ((a.book.positions.total fun key position => if Marks bar key position then 0
          else position.unrealizedPnl) +
          a.book.positions.total fun key position => if Marks bar key position then 0
            else position.signedCost) := by
    rw [← total_add, ← total_add, ← total_add]
    refine total_congr fun d _ key position _ => ?_
    split
    · rw [Book.profitAt, Position.signedCost]
      ring
    · ring
  rw [value] at entries
  have rest : (a.ledger.total instruments fun instrument holding =>
        (if instrument = bar.instrument then bar.close else a.ledger.price instrument holding) -
          if Own bar instrument.key then bar.close else 0) =
      (a.ledger.total instruments fun instrument holding =>
        if instrument = bar.instrument then bar.close else a.ledger.price instrument holding) -
      a.ledger.total instruments fun instrument _ => if Own bar instrument.key then bar.close
        else 0 :=
    Ledger.total_sub ..
  rw [Book.assetPrice, cashes, Ledger.equity_eq, CostsCancel, unmarkedPnl, unmarkedProfit, rest]
  simp only [act, Ledger.mark_value, updateBar_unrealizedPnl]
  constructor
  · intro same
    linarith
  · intro cancel
    linarith

/-- The entries that the bar does not mark show the profit they have. -/
theorem UpToDate.unmarked (upToDate : a.UpToDate instruments bar)
    (balanced : a.Balanced cash instruments) :
    (a.book.positions.total fun key position =>
        if Marks bar key position then 0 else position.unrealizedPnl + position.signedCost) =
      a.ledger.total instruments fun instrument holding =>
        (if instrument = bar.instrument then bar.close else a.ledger.price instrument holding) -
          if Own bar instrument.key then bar.close else 0 := by
  have side {d : Direction} (side : d = .long ∨ d = .short) :
      ∑ key : UInt32, (a.book.positions.positions d key).elim 0 (fun position =>
          if Marks bar key position then 0 else position.unrealizedPnl + position.signedCost) =
        ∑ instrument ∈ instruments, (a.ledger.held (instrument, d)).elim 0 fun holding =>
          holding.volume *
          ((if instrument = bar.instrument then bar.close else a.ledger.price instrument holding) -
            if Own bar instrument.key then bar.close else 0) * d.factor := by
    rw [← Finset.sum_fiberwise instruments Instrument.key]
    refine Finset.sum_congr rfl fun key _ => ?_
    have volumes := balanced.volumes d side key
    by_cases own : Own bar key
    · have zero : (a.book.positions.positions d key).elim 0 (fun position =>
          if Marks bar key position then 0 else position.unrealizedPnl + position.signedCost) =
            0 := by
        cases there : a.book.positions.positions d key with
        | none => rfl
        | some position =>
          have nonneg := balanced.volumeIn_nonneg side key
          rw [there] at nonneg
          by_cases marks : Marks bar key position
          · simp [marks]
          · have none : position.volume = 0 :=
              le_antisymm (not_lt.mp fun some => marks ⟨own, some⟩) nonneg
            obtain ⟨close, _, shown⟩ :=
              (upToDate.shown d side key position there).resolve_left marks
            simp [marks, shown, Position.signedCost, none]
      rw [zero]
      refine (Finset.sum_eq_zero fun instrument member => ?_).symm
      obtain ⟨known, same⟩ := Finset.mem_filter.mp member
      obtain rfl := upToDate.alone instrument known (same.trans own.2.2)
      rw [same]
      cases a.ledger.held (bar.instrument, d) <;> simp [own]
    · have worth (instrument : Instrument) (member : instrument ∈ instruments.filter fun i =>
        i.key = key) (close : ℚ)
          (last : a.ledger.lastClose instrument = some close) :
          ((a.ledger.held (instrument, d)).elim 0 fun holding => holding.volume *
            ((if instrument = bar.instrument then bar.close
              else a.ledger.price instrument holding) -
              if Own bar instrument.key then bar.close else 0) * d.factor) =
            Holding.volumeIn (a.ledger.held (instrument, d)) * (close * d.factor) := by
        obtain ⟨known, same⟩ := Finset.mem_filter.mp member
        have other : instrument ≠ bar.instrument := by
          rintro rfl
          exact own ⟨upToDate.named.1, upToDate.named.2, same.symm⟩
        rw [same]
        cases a.ledger.held (instrument, d) with
        | none => simp [Holding.volumeIn]
        | some holding => simp [Holding.volumeIn, own, other, Ledger.price, last, mul_assoc]
      cases there : a.book.positions.positions d key with
      | none =>
        rw [there] at volumes
        refine (Finset.sum_eq_zero fun instrument member => ?_).symm
        have nothing :=
          (Finset.sum_eq_zero_iff_of_nonneg fun _ _ => balanced.held_nonneg _).mp volumes.symm
          instrument member
        cases held : a.ledger.held (instrument, d) with
        | none => rfl
        | some holding =>
          rw [held] at nothing
          have none : holding.volume = 0 := nothing
          simp [none]
      | some position =>
        have unmarked : ¬ Marks bar key position := fun marks => own marks.1
        obtain ⟨close, last, shown⟩ :=
          (upToDate.shown d side key position there).resolve_left unmarked
        rw [there] at volumes
        have value : position.unrealizedPnl + position.signedCost =
            position.volume * (close * d.factor) := by
          rw [shown, Position.signedCost, balanced.sides d side key position there]
          ring
        rw [Option.elim_some, if_neg unmarked, value]
        change position.volume = _ at volumes
        rw [volumes, Finset.sum_mul]
        refine Finset.sum_congr rfl fun instrument member => ?_
        obtain ⟨known, same⟩ := Finset.mem_filter.mp member
        exact (worth instrument member close (last instrument known same)).symm
  have long := side (.inl rfl)
  have short := side (.inr rfl)
  simp only [positions, reduceCtorEq, if_true, if_false] at long short
  rw [PositionBook.total, Ledger.total, Finset.sum_product, long, short]
  simp only [Finset.sum_pair (by decide : Direction.long ≠ .short), Finset.sum_add_distrib]

/-- The costs then have to cancel as they are. -/
theorem UpToDate.cancel_iff (upToDate : a.UpToDate instruments bar)
    (balanced : a.Balanced cash instruments) :
    a.CostsCancel instruments bar ↔
      (a.book.positions.total fun _ position => position.signedCost) = 0 := by
  have unmarked := upToDate.unmarked balanced
  have split : (a.book.positions.total fun key position =>
        if Marks bar key position then 0 else position.unrealizedPnl + position.signedCost) =
      (a.book.positions.total fun key position => if Marks bar key position then 0
        else position.unrealizedPnl) +
        a.book.positions.total fun key position => if Marks bar key position then 0
          else position.signedCost := by
    rw [← total_add]
    refine total_congr fun d _ key position _ => ?_
    split <;> ring
  rw [CostsCancel, unmarkedPnl, unmarkedProfit, ← unmarked, split]
  constructor
  · intro cancel
    linarith
  · intro zero
    linarith

/-- An opening trade takes its whole value out of the price. -/
theorem open_iff {trade : Trade} (sides : trade.side = .buy ∨ trade.side = .sell)
    (opens : trade.offset = .open_) :
    (a.act (.trade trade)).book.assetPrice = a.book.assetPrice - trade.commission - trade.tax ↔
      trade.price * trade.volume = 0 := by
  have paid : trade.spent = 0 ↔ trade.price * trade.volume = 0 := by
    rcases sides with side | side
      <;> simp [Trade.spent, positionDirection, Direction.factor, side, opens]
  have positions : (a.book.update trade).positions.unrealizedPnl = a.book.positions.unrealizedPnl :=
    update_unrealizedPnl opens
  rw [← paid]
  simp only [act, Book.assetPrice, positions, Book.update_avail]
  constructor
  · intro same
    linarith
  · intro free
    rw [free]
    ring

/-- Along any run without an overdrawn close, the price after each bar is the equity if and only
if the costs of what is open cancel before each bar: where every entry is up to date, these are
the signed costs of all entries. An opening trade changes the price only by its fees if and only
if it is for nothing. -/
theorem equity_iff (asset : Asset) (inputs : List BookInput)
    (covered : ∀ move ∈ Runs.moves act (start asset) inputs, ∀ trade, move.2 = .trade trade →
      move.1.ledger.Covers trade) :
    ((∀ move ∈ Runs.moves act (start asset) inputs, ∀ bar, move.2 = .bar bar →
        (move.1.act (.bar bar)).book.assetPrice =
          (move.1.act (.bar bar)).ledger.equity asset.avail (traded inputs)) ↔
      ∀ move ∈ Runs.moves act (start asset) inputs, ∀ bar, move.2 = .bar bar →
        move.1.CostsCancel (traded inputs) bar) ∧
    (∀ move ∈ Runs.moves act (start asset) inputs, ∀ bar, move.1.UpToDate (traded inputs) bar →
      (move.1.CostsCancel (traded inputs) bar ↔
        (move.1.book.positions.total fun _ position => position.signedCost) = 0)) ∧
    ∀ move ∈ Runs.moves act (start asset) inputs, ∀ trade, move.2 = .trade trade →
      (trade.side = .buy ∨ trade.side = .sell) → trade.offset = .open_ →
      ((move.1.act (.trade trade)).book.assetPrice = move.1.book.assetPrice -
        trade.commission - trade.tax ↔
        trade.price * trade.volume = 0) := by
  have allowed :
      ∀ move ∈ Runs.moves act (start asset) inputs, move.1.Enabled (traded inputs) move.2 := by
    rintro ⟨before, input⟩ member
    cases input with
    | bar bar => trivial
    | trade trade =>
      have among := Runs.moves_actions _ _ _ member
      refine ⟨?_, covered _ member trade rfl⟩
      rw [traded, List.mem_toFinset, List.mem_filterMap]
      exact ⟨.trade trade, among, rfl⟩
  have started : (start asset).Balanced asset.avail (traded inputs) := by
    refine ⟨?_, fun _ _ none => by contradiction, fun d _ key => ?_,
      fun d _ key position there => ?_⟩
    · simp [start, Ledger.start, Ledger.cost, Ledger.total]
    · simp [start, Ledger.start, PositionBook.empty, positions, volumeIn, Holding.volumeIn]
    · simp [start, PositionBook.empty, positions] at there
  have kept : ∀ (a : Accounting) (input : BookInput), a.Balanced asset.avail (traded inputs) →
      a.Enabled (traded inputs) input →
      (a.act input).Balanced asset.avail (traded inputs) :=
        fun _ _ balanced enabled => act_balanced balanced enabled
  have balanced :
      ∀ move ∈ Runs.moves act (start asset) inputs, move.1.Balanced asset.avail (traded inputs) :=
    fun move member =>
      Runs.invariant kept started inputs allowed _ (Runs.moves_states _ _ move member).1
  refine ⟨forall₂_congr fun move member => forall₂_congr fun bar _ =>
    bar_iff (balanced move member) bar,
    fun move member bar upToDate => upToDate.cancel_iff (balanced move member), ?_⟩
  intro move member trade _ sides opens
  exact open_iff sides opens

def funds (avail : ℚ) : Asset := ⟨0, avail, 0, 0⟩

def bought : BookInput := .trade (History.deal .buy .open_ 10 3)

def barAt (close : ℚ) : BookInput := .bar ⟨"IF", "X", 1, close⟩

def sold : BookInput := .trade (History.deal .sell .close 11 3)

theorem bought_covered : ∀ move ∈ Runs.moves act (start (funds 100)) [bought, barAt 12],
    ∀ trade, move.2 = .trade trade → move.1.ledger.Covers trade := by
  intro move member trade traded
  simp only [Runs.moves, List.mem_cons, List.not_mem_nil, or_false] at member
  rcases member with rfl | rfl
  · cases traded
    exact ⟨by norm_num [History.deal], fun closes => absurd rfl closes⟩
  · contradiction

theorem sold_covered :
    ∀ move ∈ Runs.moves act (start (funds 100)) [bought, barAt 12, sold, barAt 13],
    ∀ trade, move.2 = .trade trade → move.1.ledger.Covers trade := by
  intro move member trade traded
  simp only [Runs.moves, List.mem_cons, List.not_mem_nil, or_false] at member
  rcases member with rfl | rfl | rfl | rfl
  · cases traded
    exact ⟨by norm_num [History.deal], fun closes => absurd rfl closes⟩
  · contradiction
  · cases traded
    refine ⟨by norm_num [History.deal], fun _ direction acts => ?_⟩
    cases acts
    exact ⟨⟨3, 10⟩, rfl, le_rfl⟩
  · contradiction

/-- A cost is carried at the first bar and none at the second. -/
theorem equity_iff_sold :
    (∀ move ∈ Runs.moves act (start (funds 100)) [bought, barAt 12, sold, barAt 13],
      ∀ bar, move.2 = .bar bar →
        (move.1.act (.bar bar)).book.assetPrice =
          (move.1.act (.bar bar)).ledger.equity (funds 100).avail
            (traded [bought, barAt 12, sold, barAt 13])) ↔
      ∀ move ∈ Runs.moves act (start (funds 100)) [bought, barAt 12, sold, barAt 13],
        ∀ bar, move.2 = .bar bar →
        move.1.CostsCancel (traded [bought, barAt 12, sold, barAt 13]) bar :=
  (equity_iff (funds 100) [bought, barAt 12, sold, barAt 13] sold_covered).1

theorem total_single (key : UInt32) (position : Position) (each : UInt32 → Position → ℚ) :
    PositionBook.total ⟨Function.update (fun _ => none) key (some position), fun _ => none⟩ each =
      each key position := by
  have others :
      ∀ other ≠ key, (Function.update (fun _ => none) key (some position) other).elim 0
        (each other) = 0 :=
    fun other apart => by rw [Function.update_of_ne apart, Option.elim_none]
  simp only [PositionBook.total, Fintype.sum_eq_single key others, Function.update_self,
    Option.elim_some, Option.elim_none, Finset.sum_const_zero, add_zero]

/-- Three bought at 10 out of 100 are worth 12 each: the equity is 106, the price 76. -/
theorem cost_missing :
    ¬ ∀ (asset : Asset) (inputs : List BookInput),
      (∀ move ∈ Runs.moves act (start asset) inputs, ∀ trade, move.2 = .trade trade →
        move.1.ledger.Covers trade) →
      ∀ move ∈ Runs.moves act (start asset) inputs, ∀ bar, move.2 = .bar bar →
        (move.1.act (.bar bar)).book.assetPrice =
          (move.1.act (.bar bar)).ledger.equity asset.avail (traded inputs) := by
  intro identity
  have same := identity (funds 100) [bought, barAt 12] bought_covered
    ((start (funds 100)).act bought, barAt 12) (by simp [Runs.moves]) ⟨"IF", "X", 1, 12⟩ rfl
  let key := hashInstrument "X" "IF"
  let position := created .long (History.deal .buy .open_ 10 3)
  have entries : ((start (funds 100)).act bought).book.positions =
      ⟨Function.update (fun _ => none) key (some position), fun _ => none⟩ := rfl
  have gain :
      (((start (funds 100)).act bought).book.updateBar ⟨"IF", "X", 1, 12⟩).positions.unrealizedPnl =
      6 := by
    have marks : Marks ⟨"IF", "X", 1, 12⟩ key position := by decide +kernel
    rw [updateBar_unrealizedPnl, entries, total_single, if_pos marks]
    norm_num [position, created, History.deal, Book.profitAt, Direction.factor]
  have worth :
      (((start (funds 100)).act bought).ledger.mark ⟨"IF", "X", 1, 12⟩).equity 100 {("X", "IF")} =
      106 := by
    have held : ((start (funds 100)).act bought).ledger.held =
        Function.update (fun _ => none) (("X", "IF"), Direction.long) (some ⟨3, 10⟩) := rfl
    have free : ((start (funds 100)).act bought).ledger.fees = 0 ∧
        ((start (funds 100)).act bought).ledger.realised = 0 := by
      decide +kernel
    simp [Ledger.equity, Ledger.total, Ledger.mark, Ledger.price, Bar.instrument, held, free,
      Direction.factor]
    norm_num
  have avail : (((start (funds 100)).act bought).book.updateBar ⟨"IF", "X", 1, 12⟩).asset.avail =
      70 := by decide +kernel
  have price : (((start (funds 100)).act bought).book.updateBar ⟨"IF", "X", 1, 12⟩).assetPrice =
      106 := same.trans worth
  rw [Book.assetPrice, avail, gain] at price
  norm_num at price

end Accounting
end BTrader
