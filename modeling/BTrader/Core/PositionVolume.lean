import BTrader.Lib.Runs
import BTrader.Core.PositionBook

/-! The volumes of a position book along a history of trades. -/
namespace BTrader
open PositionBook

/-- The exchange id and the instrument id. -/
abbrev Instrument := String × String

def Instrument.key (instrument : Instrument) : UInt32 := hashInstrument instrument.1 instrument.2

namespace Trade

def instrument (trade : Trade) : Instrument := (trade.exchangeId, trade.instrumentId)

/-- A buy or a sell of a positive volume. -/
structure Proper (trade : Trade) : Prop where
  side : trade.side = .buy ∨ trade.side = .sell
  positive : 0 < trade.volume

theorem Proper.direction {trade : Trade} (proper : trade.Proper) :
    ∃ direction, positionDirection trade = some direction ∧
      (direction = .long ∨ direction = .short) := by
  rcases proper.side with side | side <;> by_cases opens : trade.offset = .open_
  all_goals simp [positionDirection, side, opens]

end Trade

namespace PositionBook

/-- The volume of an entry. -/
def volumeOf (book : PositionBook) (instrument : Instrument) (direction : Direction) : Option ℚ :=
  (book.get instrument.2 instrument.1 direction).map Position.volume

/-- The volume a trade leaves of an entry. -/
def volumeAfter (trade : Trade) : Option ℚ → Option ℚ
  | none => some trade.volume
  | some volume =>
    if trade.offset = .open_ then some (volume + trade.volume)
    else if volume - trade.volume ≤ 0 then none
    else some (volume - trade.volume)

theorem updated_volume (position : Position) (trade : Trade) :
    (updated position trade).map Position.volume = volumeAfter trade (some position.volume) := by
  by_cases opens : trade.offset = .open_
  · simp [updated, volumeAfter, opens]
  · by_cases closed : position.volume - trade.volume ≤ 0
    · simp [updated, volumeAfter, opens, closed]
    · simp [updated, volumeAfter, opens, closed]

/-- What a trade leaves of an entry. -/
def entryAfter (trade : Trade) (direction : Direction) : Option Position → Option Position
  | none => some (created direction trade)
  | some position => updated position trade

theorem entryAfter_volume (trade : Trade) (direction : Direction) (entry : Option Position) :
    (entryAfter trade direction entry).map Position.volume =
      volumeAfter trade (entry.map Position.volume) := by
  cases entry with
  | none => rfl
  | some position => exact updated_volume position trade

theorem update_eq (book : PositionBook) {trade : Trade} {direction : Direction}
    (acts : positionDirection trade = some direction) :
    book.update trade = book.assign direction trade.instrument.key
      (entryAfter trade direction (book.positions direction trade.instrument.key)) := by
  rw [PositionBook.update, acts]
  dsimp only
  change (match book.positions direction trade.instrument.key with
    | none => _
    | some position => _) =
    book.assign _ _ (entryAfter trade direction (book.positions direction trade.instrument.key))
  cases book.positions direction trade.instrument.key <;> rfl

/-- A trade changes the entry of its instrument and side; two instruments keep apart where
their keys do. -/
theorem update_get {instruments : Set Instrument} {trade : Trade} {direction d : Direction}
    {instrument : Instrument}
    (book : PositionBook) (distinct : Set.InjOn Instrument.key instruments)
    (traded : trade.instrument ∈ instruments) (known : instrument ∈ instruments)
    (acts : positionDirection trade = some direction)
    (sides : direction = .long ∨ direction = .short) (side : d = .long ∨ d = .short) :
    (book.update trade).get instrument.2 instrument.1 d =
      if instrument = trade.instrument ∧ d = direction then
        entryAfter trade direction (book.get trade.instrumentId trade.exchangeId direction)
      else book.get instrument.2 instrument.1 d := by
  have same : (d = .long ↔ direction = .long) ↔ d = direction := by
    rcases sides with rfl | rfl <;> rcases side with rfl | rfl <;> decide
  have keys : instrument.key = trade.instrument.key ↔ instrument = trade.instrument :=
    distinct.eq_iff known traded
  change (book.update trade).positions d instrument.key = _
  rw [update_eq book acts, assign_positions]
  simp only [same]
  by_cases other : d = direction
  · subst d
    by_cases here : instrument = trade.instrument
    · subst here
      simp only [and_self, if_true, Function.update_self]
      rfl
    · simp only [here, false_and, if_true, if_false, Function.update_of_ne (mt keys.mp here)]
      rfl
  · simp only [other, and_false, if_false]
    rfl

theorem update_volumeOf {instruments : Set Instrument} {trade : Trade} {direction d : Direction}
    {instrument : Instrument}
    (book : PositionBook) (distinct : Set.InjOn Instrument.key instruments)
    (traded : trade.instrument ∈ instruments) (known : instrument ∈ instruments)
    (acts : positionDirection trade = some direction)
    (sides : direction = .long ∨ direction = .short) (side : d = .long ∨ d = .short) :
    (book.update trade).volumeOf instrument d =
      if instrument = trade.instrument ∧ d = direction then
        volumeAfter trade (book.volumeOf trade.instrument direction)
      else book.volumeOf instrument d := by
  rw [volumeOf, update_get book distinct traded known acts sides side]
  split
  · exact entryAfter_volume trade direction _
  · rfl

end PositionBook

/-- What is held of every instrument on either side. -/
abbrev Holdings := Instrument → Direction → ℚ

namespace Holdings

/-- What a trade leaves of a holding: a closing one takes from it, down to nothing. -/
def left (trade : Trade) (held : ℚ) : ℚ :=
  if trade.offset = .open_ then held + trade.volume else max 0 (held - trade.volume)

def after (holdings : Holdings) (trade : Trade) : Holdings :=
  match positionDirection trade with
  | none => holdings
  | some direction =>
    Function.update holdings trade.instrument
      (Function.update (holdings trade.instrument) direction
        (left trade (holdings trade.instrument direction)))

/-- The trade opens, or there is something for it to close. -/
def Covers (holdings : Holdings) (trade : Trade) : Prop :=
  trade.offset = .open_ ∨
    ∃ direction, positionDirection trade = some direction ∧ 0 < holdings trade.instrument direction

theorem after_eq {holdings : Holdings} {trade : Trade} {direction : Direction}
    (acts : positionDirection trade = some direction) (instrument : Instrument) (d : Direction) :
    holdings.after trade instrument d =
      if instrument = trade.instrument ∧
        d = direction then left trade (holdings trade.instrument direction)
      else holdings instrument d := by
  rw [after, acts]
  dsimp only
  by_cases here : instrument = trade.instrument
  · subst here
    by_cases other : d = direction
    · subst other
      simp
    · simp [other]
  · simp [here]

theorem left_nonneg {trade : Trade} {held : ℚ} (positive : 0 < trade.volume) (nonneg : 0 ≤ held) :
    0 ≤ left trade held := by
  unfold left
  split
  · exact add_nonneg nonneg positive.le
  · exact le_max_left _ _

end Holdings

/-- A book with what the trades that made it come to. -/
structure History where
  book : PositionBook
  holdings : Holdings

namespace History
open Holdings

def start : History := ⟨.empty, fun _ _ => 0⟩

def act (h : History) (trade : Trade) : History := ⟨h.book.update trade, h.holdings.after trade⟩

@[simp] theorem act_book (h : History) (trade : Trade) :
    (h.act trade).book = h.book.update trade := rfl

@[simp] theorem act_holdings (h : History) (trade : Trade) :
    (h.act trade).holdings = h.holdings.after trade := rfl

/-- The book has just the holdings there are. -/
def Lawful (instruments : Set Instrument) (h : History) : Prop :=
  ∀ instrument ∈ instruments, ∀ direction, direction = .long ∨ direction = .short →
    h.book.volumeOf instrument direction =
      if 0 < h.holdings instrument direction then some (h.holdings instrument direction) else none

def Nonneg (h : History) : Prop := ∀ instrument direction, 0 ≤ h.holdings instrument direction

/-- No entry comes into being, and none gets a larger volume. -/
def Reduces (instruments : Set Instrument) (book book' : PositionBook) : Prop :=
  ∀ instrument ∈ instruments, ∀ direction, direction = .long ∨ direction = .short →
    ∀ volume', book'.volumeOf instrument direction = some volume' →
      ∃ volume, book.volumeOf instrument direction = some volume ∧ volume' ≤ volume

variable {instruments : Set Instrument} {h : History} {trade : Trade}

theorem act_nonneg (nonneg : h.Nonneg) (proper : trade.Proper) : (h.act trade).Nonneg := by
  obtain ⟨direction, acts, _⟩ := proper.direction
  intro instrument d
  rw [act_holdings, after_eq acts]
  split
  · exact left_nonneg proper.positive (nonneg _ _)
  · exact nonneg _ _

/-- The entry of a trade follows the holding just when the trade is covered. -/
theorem entry_iff (trade : Trade) {held : ℚ} (positive : 0 < trade.volume) (nonneg : 0 ≤ held) :
    volumeAfter trade (if 0 < held then some held else none) =
        (if 0 < left trade held then some (left trade held) else none) ↔
      trade.offset = .open_ ∨ 0 < held := by
  by_cases holding : 0 < held
  · simp only [holding, if_true, or_true, iff_true, volumeAfter, left]
    by_cases opens : trade.offset = .open_
    · simp only [opens, if_true]
      rw [if_pos (by linarith)]
    · simp only [opens, if_false]
      by_cases closed : held - trade.volume ≤ 0
      · simp [closed]
      · have more := not_le.mp closed
        rw [if_neg closed, max_eq_right more.le, if_pos more]
  · have nothing : held = 0 := le_antisymm (not_lt.mp holding) nonneg
    subst nothing
    simp only [lt_irrefl, if_false, or_false, volumeAfter, left]
    by_cases opens : trade.offset = .open_
    · simp [opens, positive]
    · simp [opens, positive.le]

theorem act_lawful (distinct : Set.InjOn Instrument.key instruments) (nonneg : h.Nonneg)
    (proper : trade.Proper)
    (traded : trade.instrument ∈ instruments) (lawful : h.Lawful instruments) :
    (h.act trade).Lawful instruments ↔ h.holdings.Covers trade := by
  obtain ⟨direction, acts, sides⟩ := proper.direction
  have covers : h.holdings.Covers trade ↔ trade.offset = .open_ ∨
      0 < h.holdings trade.instrument direction := by
    simp [Covers, acts]
  have entry := entry_iff trade proper.positive (nonneg trade.instrument direction)
  rw [← lawful _ traded direction sides] at entry
  rw [covers, ← entry]
  constructor
  · intro all
    have own := all _ traded direction sides
    simpa only [act_book, act_holdings,
      update_volumeOf h.book distinct traded traded acts sides sides, after_eq acts, and_self,
      if_true] using own
  · intro own instrument known d side
    simp only [act_book, act_holdings, update_volumeOf h.book distinct traded known acts sides side,
      after_eq acts]
    by_cases here : instrument = trade.instrument ∧ d = direction
    · simpa only [here, and_self, if_true] using own
    · simpa only [here, if_false] using lawful instrument known d side

/-- Between two lawful states a closing trade only reduces. -/
theorem act_reduces (nonneg : h.Nonneg) (proper : trade.Proper) (closes : trade.offset ≠ .open_)
    (lawful : h.Lawful instruments) (lawful' : (h.act trade).Lawful instruments) :
    Reduces instruments h.book (h.act trade).book := by
  obtain ⟨direction, acts, _⟩ := proper.direction
  intro instrument known d side volume' entry
  have smaller : (h.act trade).holdings instrument d ≤ h.holdings instrument d := by
    rw [act_holdings, after_eq acts]
    split
    · rename_i here
      rw [here.1, here.2, left, if_neg closes]
      have := proper.positive
      exact max_le (nonneg _ _) (by linarith)
    · exact le_refl _
  rw [lawful' instrument known d side, Option.ite_none_right_eq_some] at entry
  obtain ⟨holding, same⟩ := entry
  cases same
  exact ⟨h.holdings instrument d,
    by rw [lawful instrument known d side, if_pos (holding.trans_le smaller)], smaller⟩

/-- Along any history of proper trades the book has just the holdings there are, and closing
trades only reduce, if and only if no trade closes what is not held. -/
theorem volumes_iff (instruments : Set Instrument) (distinct : Set.InjOn Instrument.key instruments)
    (trades : List Trade) (traded : ∀ trade ∈ trades, trade.instrument ∈ instruments)
    (sides : ∀ trade ∈ trades, trade.side = .buy ∨ trade.side = .sell)
    (positive : ∀ trade ∈ trades, 0 < trade.volume) :
    ((∀ h ∈ Runs.states act start trades, h.Lawful instruments) ∧
        ∀ move ∈ Runs.moves act start trades, move.2.offset ≠ .open_ →
          Reduces instruments move.1.book (move.1.act move.2).book) ↔
      ∀ move ∈ Runs.moves act start trades, move.1.holdings.Covers move.2 := by
  let enabled (_ : History) (trade : Trade) := trade.Proper ∧ trade.instrument ∈ instruments
  have kept : ∀ h trade, Nonneg h → enabled h trade → (h.act trade).Nonneg :=
    fun h trade nonneg able => act_nonneg nonneg able.1
  have survives : ∀ h trade, Nonneg h → enabled h trade → h.Lawful instruments →
      ((h.act trade).Lawful instruments ↔ h.holdings.Covers trade) :=
    fun h trade nonneg able => act_lawful distinct nonneg able.1 able.2
  have allowed : ∀ move ∈ Runs.moves act start trades, enabled move.1 move.2 := by
    intro move member
    have from_ := Runs.moves_actions start trades move member
    exact ⟨⟨sides _ from_, positive _ from_⟩, traded _ from_⟩
  have started : start.Nonneg := fun _ _ => le_refl _
  have first : start.Lawful instruments := by
    intro _ _ direction side
    rcases side with rfl | rfl <;> rfl
  have laws := Runs.states_iff kept survives started first trades allowed
  constructor
  · intro both
    exact laws.mp both.1
  · intro covered
    have lawful := laws.mpr covered
    refine ⟨lawful, fun move member closes => ?_⟩
    have inside := Runs.moves_states start trades move member
    have nonneg := Runs.invariant kept started trades allowed _ inside.1
    exact act_reduces nonneg (allowed move member).1 closes (lawful _ inside.1) (lawful _ inside.2)

def deal (side : Side) (offset : Offset) (price volume : ℚ) : Trade :=
  ⟨0, 0, "", "", 0, "", "IF", "X", .future, side, offset, .speculation, price, volume, 0, 0⟩

theorem volumes_iff_held :
    ((∀ h ∈ Runs.states act start [deal .buy .open_ 10 3, deal .sell .close 10 (5 / 2)],
      h.Lawful {("X", "IF")}) ∧
        ∀ move ∈ Runs.moves act start [deal .buy .open_ 10 3, deal .sell .close 10 (5 / 2)],
          move.2.offset ≠ .open_ →
          Reduces {("X", "IF")} move.1.book (move.1.act move.2).book) ↔
      ∀ move ∈ Runs.moves act start [deal .buy .open_ 10 3, deal .sell .close 10 (5 / 2)],
        move.1.holdings.Covers move.2 :=
  volumes_iff {("X", "IF")} (Set.injOn_singleton _ _) _ (by simp [deal, Trade.instrument])
    (by simp [deal])
    (by simp [deal])

/-- A sell that closes what is not held leaves a long position of its own volume. -/
theorem close_creates :
    ¬ ∀ move ∈ Runs.moves act start [deal .sell .close 10 3], move.2.offset ≠ .open_ →
      Reduces {("X", "IF")} move.1.book (move.1.act move.2).book := by
  intro reduces
  have created : (start.act (deal .sell .close 10 3)).book.volumeOf ("X", "IF") .long = some 3 := by
    decide +kernel
  have absent : start.book.volumeOf ("X", "IF") .long = none := rfl
  obtain ⟨volume, held, _⟩ :=
    reduces (start, deal .sell .close 10 3) (by simp [Runs.moves]) (by decide) _
    (Set.mem_singleton _) .long (.inl rfl) 3 created
  exact Option.some_ne_none volume (held.symm.trans absent)

end History
end BTrader
