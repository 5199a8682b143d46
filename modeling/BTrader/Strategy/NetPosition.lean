import BTrader.Core.Equity
import BTrader.Strategy.ConsecutiveBarStrategy

/-! When the book follows the position that the strategy keeps. -/
namespace BTrader
open PositionBook

/-- What is bought counts up, what is sold counts down. -/
def Trade.signedVolume (trade : Trade) : ℚ :=
  match trade.side with
  | .buy => trade.volume
  | .sell => -trade.volume
  | _ => 0

namespace PositionBook
open ConsecutiveBarStrategy

/-- `has_positions` -/
def HasPositions (book : PositionBook) : Prop :=
  ∃ direction key, (book.positions direction key).isSome

/-- Every entry has volume. -/
def Positive (book : PositionBook) : Prop :=
  ∀ direction key, ∀ position ∈ book.positions direction key, 0 < position.volume

/-- The net position is the one given, and where this is 0 the book is empty. -/
def Follows (book : PositionBook) (position : ℚ) : Prop :=
  calculateNetPosition book = position ∧ (position = 0 → ¬ book.HasPositions)

/-- The trade opens, or finds at least its volume under its key. -/
def Covers (book : PositionBook) (trade : Trade) : Prop :=
  trade.offset = .open_ ∨ ∃ direction position, positionDirection trade = some direction ∧
    book.positions direction trade.instrument.key = some position ∧ trade.volume ≤ position.volume

/-- The trade closes the whole of the only position there is. -/
def ClosesLast (book : PositionBook) (trade : Trade) : Prop :=
  trade.offset ≠ .open_ ∧ ∃ direction position, positionDirection trade = some direction ∧
    book.positions direction trade.instrument.key = some position ∧ position.volume = trade.volume ∧
    ∀ side key, (book.positions side key).isSome → (side = .long ↔ direction = .long) ∧
      key = trade.instrument.key

variable {book : PositionBook} {trade : Trade} {direction : Direction}

theorem counted_some {position : Position} (positive : 0 < position.volume) :
    counted (some position) = position.volume :=
  if_pos positive

theorem net_assign (book : PositionBook) (side : direction = .long ∨ direction = .short)
    (key : UInt32) (entry : Option Position) :
    calculateNetPosition (book.assign direction key entry) =
      calculateNetPosition book + direction.factor *
        (counted entry - counted (book.positions direction key)) := by
  rcases side with rfl | rfl
  · have changed :=
      Ledger.sum_update (Finset.mem_univ key) book.longPositions entry fun _ => counted
    simp only [calculateNetPosition, assign, if_true, changed, Direction.factor, positions]
    push_cast
    ring
  · have changed :=
      Ledger.sum_update (Finset.mem_univ key) book.shortPositions entry fun _ => counted
    simp only [calculateNetPosition, assign, reduceCtorEq, if_false, changed,
      Direction.factor, positions]
    push_cast
    ring

/-- A trade counts on its side of the book for what it counts in the position. -/
theorem signedVolume_eq (acts : positionDirection trade = some direction) :
    trade.signedVolume =
      direction.factor * (if trade.offset = .open_ then trade.volume else -trade.volume) := by
  unfold positionDirection at acts
  unfold Trade.signedVolume
  by_cases opens : trade.offset = .open_
  · cases side : trade.side <;> simp_all [Direction.factor]
    all_goals subst acts; simp
  · cases side : trade.side <;> simp_all [Direction.factor]
    all_goals subst acts; simp

/-- An entry changes by the volume of the trade just when there is enough of it to close. -/
theorem counted_entryAfter_iff (direction : Direction) (volume : 0 < trade.volume)
    {entry : Option Position} (positive : ∀ position ∈ entry, 0 < position.volume) :
    counted (entryAfter trade direction entry) - counted entry =
        (if trade.offset = .open_ then trade.volume else -trade.volume) ↔
      trade.offset = .open_ ∨ ∃ position, entry = some position ∧
        trade.volume ≤ position.volume := by
  cases entry with
  | none =>
    have whole : counted (entryAfter trade direction none) = trade.volume := counted_some volume
    have nothing : counted none = 0 := rfl
    rw [whole, nothing, sub_zero]
    by_cases opens : trade.offset = .open_
    · simp [opens]
    · simp only [opens, if_false, reduceCtorEq, false_and, exists_false, or_self, iff_false]
      linarith
  | some position =>
    have held : 0 < position.volume := positive position rfl
    rw [counted_some held]
    by_cases opens : trade.offset = .open_
    · have more :
        counted (entryAfter trade direction (some position)) = position.volume + trade.volume := by
        simp only [entryAfter, updated, opens, if_true]
        exact counted_some (add_pos held volume)
      simp [opens, more]
    · simp only [opens, if_false, Option.some.injEq, exists_eq_left', false_or]
      by_cases closed : position.volume - trade.volume ≤ 0
      · have none : counted (entryAfter trade direction (some position)) = 0 := by
          simp only [entryAfter, updated, opens, closed, if_false, if_true]
          rfl
        rw [none]
        constructor <;> intro same <;> linarith
      · have less : counted (entryAfter trade direction (some position)) =
          position.volume - trade.volume := by
          simp only [entryAfter, updated, opens, closed, if_false]
          exact counted_some (not_le.mp closed)
        rw [less]
        constructor <;> intro same <;> linarith

theorem entryAfter_none_iff {entry : Option Position} :
    entryAfter trade direction entry = none ↔
      trade.offset ≠ .open_ ∧ ∃ position, entry = some position ∧
        position.volume ≤ trade.volume := by
  cases entry with
  | none => simp [entryAfter]
  | some position =>
    by_cases opens : trade.offset = .open_
    · simp [entryAfter, updated, opens]
    · by_cases closed : position.volume - trade.volume ≤ 0
      · simp [entryAfter, updated, opens, closed, sub_nonpos.mp closed]
      · have more := not_le.mp closed
        simp only [entryAfter, updated, opens, closed, if_false, reduceCtorEq, ne_eq,
          not_false_eq_true, Option.some.injEq, exists_eq_left', true_and, false_iff, not_le]
        linarith

theorem assign_empty_iff (book : PositionBook) (key : UInt32) (entry : Option Position) :
    ¬ (book.assign direction key entry).HasPositions ↔
      entry = none ∧ ∀ side k, (book.positions side k).isSome → (side = .long ↔ direction = .long) ∧
        k = key := by
  constructor
  · intro empty
    constructor
    · by_contra some
      refine empty ⟨direction, key, ?_⟩
      rw [assign_positions, if_pos Iff.rfl, Function.update_self]
      exact Option.isSome_iff_ne_none.mpr some
    · intro side k there
      by_contra other
      refine empty ⟨side, k, ?_⟩
      rw [assign_positions]
      split
      · rename_i same
        rwa [Function.update_of_ne fun here => other ⟨same, here⟩]
      · exact there
  · rintro ⟨rfl, only⟩ ⟨side, k, there⟩
    rw [assign_positions] at there
    split at there
    · by_cases here : k = key
      · subst here
        rw [Function.update_self] at there
        contradiction
      · rw [Function.update_of_ne here] at there
        exact here (only side k there).2
    · rename_i apart
      exact apart (only side k there).1

theorem update_net_iff (positive : book.Positive) (proper : trade.Proper) (position : ℚ)
    (net : calculateNetPosition book = position) :
    calculateNetPosition (book.update trade) = position + trade.signedVolume ↔
      book.Covers trade := by
  obtain ⟨direction, acts, sides⟩ := proper.direction
  have factor : (direction.factor : ℚ) ≠ 0 := by
    rcases sides with rfl | rfl <;> simp [Direction.factor]
  have entry :=
    counted_entryAfter_iff direction proper.positive (positive direction trade.instrument.key)
  rw [update_eq book acts, net_assign book sides, net, signedVolume_eq acts, add_right_inj,
    mul_right_inj' factor, entry]
  simp only [Covers, acts, Option.some.injEq, ↓existsAndEq, true_and]

theorem update_empty_iff (proper : trade.Proper) (covers : book.Covers trade) :
    ¬ (book.update trade).HasPositions ↔ book.ClosesLast trade := by
  obtain ⟨direction, acts, _⟩ := proper.direction
  rw [update_eq book acts, assign_empty_iff, entryAfter_none_iff]
  constructor
  · rintro ⟨⟨closes, position, there, le⟩, only⟩
    rcases covers with opens | ⟨side, held, acts', found, ge⟩
    · exact absurd opens closes
    · obtain rfl : direction = side := Option.some.inj (acts.symm.trans acts')
      obtain rfl : position = held := Option.some.inj (there.symm.trans found)
      exact ⟨closes, direction, position, acts, there, le_antisymm le ge, only⟩
  · rintro ⟨closes, side, position, acts', there, same, only⟩
    obtain rfl : direction = side := Option.some.inj (acts.symm.trans acts')
    exact ⟨⟨closes, position, there, same.le⟩, only⟩

/-- A trade leaves the book following just when it is covered, and closes the last position
where it brings the position back to 0. -/
theorem update_follows_iff (positive : book.Positive) (proper : trade.Proper) {position : ℚ}
    (follows : book.Follows position) :
    (book.update trade).Follows (position + trade.signedVolume) ↔
      book.Covers trade ∧ (position + trade.signedVolume = 0 → book.ClosesLast trade) := by
  have net := update_net_iff positive proper position follows.1
  constructor
  · rintro ⟨sum, empty⟩
    have covers := net.mp sum
    exact ⟨covers, fun zero => (update_empty_iff proper covers).mp (empty zero)⟩
  · rintro ⟨covers, last⟩
    exact ⟨net.mpr covers, fun zero => (update_empty_iff proper covers).mpr (last zero)⟩

theorem update_positive (positive : book.Positive) (proper : trade.Proper) :
    (book.update trade).Positive := by
  obtain ⟨direction, acts, _⟩ := proper.direction
  have entry :
      ∀ position ∈ entryAfter trade direction (book.positions direction trade.instrument.key), 0 <
      position.volume := by
    intro position made
    cases found : book.positions direction trade.instrument.key with
    | none =>
      rw [found] at made
      cases made
      exact proper.positive
    | some before =>
      have held := positive direction _ before found
      rw [found] at made
      simp only [entryAfter, updated, Option.mem_def] at made
      split at made
      · cases made
        exact add_pos held proper.positive
      · split at made
        · contradiction
        · rename_i left
          cases made
          exact not_le.mp left
  intro side key position there
  rw [update_eq book acts, assign_positions] at there
  split at there
  · rename_i same
    by_cases here : key = trade.instrument.key
    · subst here
      rw [Function.update_self] at there
      exact entry position there
    · rw [Function.update_of_ne here] at there
      exact positive side key position there
  · exact positive side key position there

/-! A bar -/

/-- The entries are there with the volumes they had. -/
def SameVolumes (book book' : PositionBook) : Prop :=
  ∀ direction key, (book'.positions direction key).map Position.volume =
    (book.positions direction key).map Position.volume

theorem counted_eq (entry : Option Position) :
    counted entry = (entry.map Position.volume).elim 0 fun volume => if volume > 0 then volume
      else 0 := by
  cases entry <;> rfl

namespace SameVolumes
variable {book' : PositionBook}

theorem net (same : SameVolumes book book') :
    calculateNetPosition book' = calculateNetPosition book := by
  have entry (direction : Direction) (key : UInt32) :
      counted (book'.positions direction key) = counted (book.positions direction key) := by
    rw [counted_eq, counted_eq, same]
  have long := Finset.sum_congr rfl fun key (_ : key ∈ Finset.univ) => entry .long key
  have short := Finset.sum_congr rfl fun key (_ : key ∈ Finset.univ) => entry .short key
  exact congrArg₂ (· - ·) long short

theorem hasPositions (same : SameVolumes book book') : book'.HasPositions ↔ book.HasPositions := by
  refine exists₂_congr fun direction key => ?_
  rw [← Option.isSome_map (f := Position.volume), same, Option.isSome_map]

theorem follows (same : SameVolumes book book') (position : ℚ) :
    book'.Follows position ↔ book.Follows position := by
  rw [Follows, Follows, same.net, same.hasPositions]

theorem positive (same : SameVolumes book book') (positive : book.Positive) : book'.Positive := by
  intro direction key position there
  have volumes := same direction key
  rw [there, Option.map_some, eq_comm, Option.map_eq_some_iff] at volumes
  obtain ⟨before, found, volume⟩ := volumes
  rw [← volume]
  exact positive direction key before found

end SameVolumes

theorem updateBar_volumes (book : Book) (bar : Bar) :
    SameVolumes book.positions (book.updateBar bar).positions := by
  have entry (key : UInt32) (entry : Option Position) :
      (entry.map (revalued bar key)).map Position.volume = entry.map Position.volume := by
    cases entry with
    | none => rfl
    | some position =>
      simp only [Option.map_some, revalued]
      split <;> rfl
  intro direction key
  unfold Book.updateBar
  split
  · rfl
  · simp only [updateSide_positions]
    split <;> split <;> simp only [entry]

end PositionBook
end BTrader
