import BTrader.Broker.Session

/-! When the broker's positions and those of the strategy's book agree, the book having
applied the trades the broker notified. -/
namespace BTrader

/-- The volume and the cost price of a position. -/
def Position.value (position : Position) : ℚ × ℚ := (position.volume, position.positionCostPrice)

namespace PositionBook

/-- The same entries with the same volumes and cost prices. -/
def Agree (p q : PositionBook) : Prop :=
  ∀ direction key, (p.positions direction key).map Position.value =
    (q.positions direction key).map Position.value

theorem Agree.assign {p q : PositionBook} (same : Agree p q) (direction : Direction) (key : UInt32)
    {entry entry' : Option Position}
    (value : entry.map Position.value = entry'.map Position.value) :
    Agree (p.assign direction key entry) (q.assign direction key entry') := by
  intro d k
  rw [assign_positions, assign_positions]
  split
  · by_cases here : k = key
    · subst k
      simpa only [Function.update_self] using value
    · simpa only [Function.update_of_ne here] using same d k
  · exact same d k

end PositionBook

open PositionBook BrokerSim

/-- The broker averages like the book where the volume of both is a whole number. -/
theorem updated_value {position position' : Position} {trade : Trade} (now : Int64)
    (same : position.value = position'.value) (opens : trade.offset = .open_)
    (whole : castInt64 (position.volume + trade.volume) = position.volume + trade.volume) :
    some (updatedPosition position trade now).value =
      (updated position' trade).map Position.value := by
  obtain ⟨volume, price⟩ := Prod.mk.inj same
  rw [volume] at whole
  have sign :
      castInt64 (position'.volume + trade.volume) > 0 ↔ position'.volume + trade.volume > 0 := by
    have cast := Int.cast_pos (R := ℚ) (n := castInt64 (position'.volume + trade.volume))
    rw [whole] at cast
    exact cast.symm
  have average :
      (updatedPosition position trade now).positionCostPrice = averagedPrice position' trade := by
    simp only [updatedPosition, averagedPrice, volume, price, sign, whole]
    split
    · rw [mul_comm position'.volume, mul_comm trade.volume]
    · rfl
  rw [updated, if_pos opens]
  exact congrArg some (Prod.ext (congrArg (· + trade.volume) volume) average)

/-- An opening trade keeps two books in agreement where what it adds up to is whole. -/
theorem bookTrade_agree {p q : PositionBook} {trade : Trade} (now : Int64) (same : Agree p q)
    (side : trade.side = .buy ∨ trade.side = .sell) (opens : trade.offset = .open_)
    (whole :
      ∀ position, p.get trade.instrumentId trade.exchangeId (side2direction trade.side) =
      some position →
      castInt64 (position.volume + trade.volume) = position.volume + trade.volume) :
    Agree (bookTrade p trade now) (q.update trade) := by
  have direction : positionDirection trade = some (side2direction trade.side) := by
    rcases side with side | side <;> simp [positionDirection, side, opens, side2direction]
  have entries :=
    same (side2direction trade.side) (hashInstrument trade.exchangeId trade.instrumentId)
  rw [bookTrade, PositionBook.update, direction]
  change Option.map _ (p.get trade.instrumentId trade.exchangeId _) = _ at entries
  cases mine : p.get trade.instrumentId trade.exchangeId (side2direction trade.side) with
  | none =>
    rw [mine] at entries
    have its := Option.map_eq_none_iff.mp entries.symm
    simp only [its]
    exact same.assign _ _ rfl
  | some position =>
    rw [mine] at entries
    obtain ⟨position', its, value⟩ := Option.map_eq_some_iff.mp entries.symm
    simp only [its]
    exact same.assign _ _ (updated_value now value.symm opens (whole position mine))

/-- The strategy's book after the trades the broker notified. -/
def BrokerSim.strategyBook (b : BrokerSim) (book : Book) : Book := b.trades.foldl Book.update book

def Book.idle : Book := ⟨⟨0, 0, 0, 0⟩, .empty⟩

/-- What a turn fills opens a position, and adds up to a whole number with what there is. -/
def BrokerSim.OpensWhole (b : BrokerSim) (action : Action) : Prop :=
  ∀ filled ∈ b.fill action, filled.1.offset = .open_ ∧
    ∀ position ∈ b.positions.get filled.1.instrumentId filled.1.exchangeId
      (side2direction filled.1.side),
      castInt64 (position.volume + filled.2) = position.volume + filled.2

instance (b : BrokerSim) (action : Action) : Decidable (b.OpensWhole action) :=
  inferInstanceAs (Decidable (∀ filled ∈ b.fill action, _))

namespace Session

theorem act_agree {s : Session} {action : Action} {book : Book} (traced : s.Traced)
    (sides : ∀ input ∈ s.accepted, input.side = .buy ∨ input.side = .sell)
    (fits : s.broker.OpensWhole action)
    (same : Agree s.broker.positions (s.broker.strategyBook book).positions) :
    Agree (s.act action).broker.positions ((s.act action).broker.strategyBook book).positions := by
  cases s.act_effect traced.keyed action with
  | quiet idle rest kept => rwa [strategyBook, rest.trades, rest.positions]
  | accepted input taken added trades positions orders => rwa [strategyBook, trades, positions]
  | filled readings key order volume price trade entry fill told made kept trades
      positions orders =>
    obtain ⟨opens, whole⟩ := fits (order, volume) told
    obtain ⟨_, input, member, _, side⟩ := traced key order entry
    have known := sides input member
    rw [side] at known
    rw [strategyBook, trades, List.foldl_append, positions]
    change Agree _ (PositionBook.update _ trade)
    subst trade
    exact bookTrade_agree _ same known opens whole

/-- From agreeing books, in every run of buys and sells whose fills open positions and add
up to whole numbers, the books agree in every state. -/
theorem books_agree (b : BrokerSim) (book : Book) (events : List Event)
    (noOrders : b.activeOrders.size = 0)
    (noTrades : b.responses = []) (same : Agree b.positions book.positions)
    (sides : ∀ input ∈ acceptedBy ⟨b, []⟩ events, input.side = .buy ∨ input.side = .sell)
    (fits : ∀ move ∈ moves ⟨b, []⟩ events, move.1.broker.OpensWhole move.2) :
    ∀ s ∈ visits ⟨b, []⟩ events,
      Agree s.broker.positions (s.broker.strategyBook book).positions := by
  let inv (s : Session) :=
    s.Traced ∧ Agree s.broker.positions (s.broker.strategyBook book).positions
  let enabled (s : Session) (action : Action) :=
    (∀ input ∈ s.accepted, input.side = .buy ∨ input.side = .sell) ∧ s.broker.OpensWhole action
  have kept : ∀ s action, inv s → enabled s action → inv (s.act action) :=
    fun s action sound able =>
      ⟨act_traced sound.1 action, act_agree sound.1 able.1 able.2 sound.2⟩
  have started : inv ⟨b, []⟩ := by
    refine ⟨traced_start noOrders, ?_⟩
    simpa [strategyBook, trades, noTrades] using same
  have allowed : ∀ move ∈ moves ⟨b, []⟩ events, enabled move.1 move.2 := by
    intro move member
    have grown := (moves_accepted ⟨b, []⟩ _).2 move member
    exact ⟨fun input known => sides input (grown.subset ((act_accepted _ _).subset known)),
      fits move member⟩
  intro s visited
  exact (Runs.invariant kept started _ allowed s visited).2

/-- One unit sold to open, a round without depth. -/
def sellOne : List Event := [.insert (marketOrder 7 .sell .open_ 1), .round fun _ => .noDepth]

theorem books_agree_sell :
    (visits ⟨idle, []⟩ sellOne).length = 3 ∧
      ∀ s ∈ visits ⟨idle, []⟩ sellOne,
        Agree s.broker.positions (s.broker.strategyBook .idle).positions :=
  ⟨by decide +kernel,
    books_agree idle .idle sellOne rfl rfl (fun _ _ => rfl) (by decide +kernel) (by decide +kernel)⟩

/-- One unit sold to open and bought back: the broker keeps a short and a long position. -/
theorem closed_not_agree :
    ∃ s ∈ visits ⟨idle, []⟩
      (sellOne ++ [.insert (marketOrder 8 .buy .close 1), .round fun _ => .noDepth]),
      ¬ Agree s.broker.positions (s.broker.strategyBook .idle).positions := by
  have apart : ∃ s ∈ visits ⟨idle, []⟩
      (sellOne ++ [.insert (marketOrder 8 .buy .close 1), .round fun _ => .noDepth]),
      (s.broker.positions.get "" "" .long).map Position.value = some (1, 100) ∧
        ((s.broker.strategyBook .idle).positions.get "" "" .long).map Position.value = none := by
    decide +kernel
  obtain ⟨s, visited, held, closed⟩ := apart
  refine ⟨s, visited, fun same => ?_⟩
  have entries := (same .long _).symm.trans held
  rw [PositionBook.get] at closed
  rw [closed] at entries
  contradiction

end Session
end BTrader
