import BTrader.Lib.Extremes

/-! The order book as the interface shows it: the best prices, and the depth of each side. -/
namespace BTrader

structure OrderBookLevel where
  price : ℚ
  volume : ℤ
  orderCount : ℤ
  side : String
  deriving DecidableEq, Repr

structure OrderBook where
  bids : List OrderBookLevel
  asks : List OrderBookLevel
  bestBid : ℚ
  bestAsk : ℚ
  deriving DecidableEq, Repr

/-- `std::numeric_limits<double>::max()` -/
def doubleMax : ℚ := (2 - 1 / 2 ^ 52) * 2 ^ 1023

namespace OrderBook

def make : OrderBook := ⟨[], [], 0, 0⟩

/-- The best prices are found among all the levels, in whatever order these are. -/
def update (_ : OrderBook) (bids asks : List OrderBookLevel) : OrderBook where
  bids := bids
  asks := asks
  bestBid := bids.foldl (fun best level => max best level.price) 0
  bestAsk := asks.foldl (fun best level => min best level.price) doubleMax

end OrderBook

/-- The model, with the books of its set. -/
structure OrderBookModel where
  orderbookset : List OrderBook
  maxLevels : ℤ
  combinedOrderBook : List OrderBookLevel
  deriving DecidableEq, Repr

namespace OrderBookModel

def getBestBid (model : OrderBookModel) : ℚ := (model.orderbookset.getLast?.map (·.bestBid)).getD 0

def getBestAsk (model : OrderBookModel) : ℚ := (model.orderbookset.getLast?.map (·.bestAsk)).getD 0

def getSpread (model : OrderBookModel) : ℚ :=
  if 0 < model.getBestBid ∧ 0 < model.getBestAsk then model.getBestAsk - model.getBestBid else 0

def getMidPrice (model : OrderBookModel) : ℚ :=
  if 0 < model.getBestBid ∧
    0 < model.getBestAsk then (model.getBestBid + model.getBestAsk) / 2 else 0

/-- The first levels, appended one by one. -/
def appendLevels (combined levels : List OrderBookLevel) (count : ℕ) : List OrderBookLevel :=
  (List.range count).foldl (fun combined i => combined ++ levels[i]?.toList) combined

/-- The number of levels shown, where a limit that is not positive is none. -/
def shown (model : OrderBookModel) (levels : List OrderBookLevel) : ℕ :=
  if 0 < model.maxLevels then min levels.length model.maxLevels.toNat else levels.length

def updateCombinedOrderBook (model : OrderBookModel) : OrderBookModel :=
  match model.orderbookset.getLast? with
  | none => { model with combinedOrderBook := [] }
  | some book =>
    let withAsks := appendLevels [] book.asks (model.shown book.asks)
    { model with combinedOrderBook := appendLevels withAsks book.bids (model.shown book.bids) }

def make : OrderBookModel := ⟨[], 20, []⟩

def setMaxLevels (model : OrderBookModel) (levels : ℤ) : OrderBookModel :=
  if model.maxLevels ≠ levels then updateCombinedOrderBook { model with maxLevels := levels }
  else model

/-- The set gets a book with the update and tells the model. -/
def feed (model : OrderBookModel) (bids asks : List OrderBookLevel) : OrderBookModel :=
  let books := model.orderbookset ++ [OrderBook.make.update bids asks]
  updateCombinedOrderBook
    { model with orderbookset := if 1000 < books.length then books.tail else books }

/-- The volumes of the rows from `i` on, for as long as they are of the side and `left` are not
used up. -/
def sumSide (levels : List OrderBookLevel) (side : String) (i : ℕ) : ℕ → ℤ → ℤ
  | 0, cumulative => cumulative
  | left + 1, cumulative =>
    match levels[i]? with
    | some level =>
      if level.side = side then sumSide levels side (i + 1) left (cumulative + level.volume)
      else cumulative
    | none => cumulative

def calculateCumulativeVolume (model : OrderBookModel) (index : ℤ) : ℤ :=
  if index < 0 ∨ (model.combinedOrderBook.length : ℤ) ≤ index then 0
  else
    match model.combinedOrderBook[index.toNat]? with
    | none => 0
    | some row =>
      if row.side = "ask" then sumSide model.combinedOrderBook "ask" 0 (index.toNat + 1) 0
      else if row.side = "bid" then
        match model.combinedOrderBook.findIdx? (·.side = "bid") with
        | some bidStartIndex =>
          sumSide model.combinedOrderBook "bid" bidStartIndex (index.toNat + 1 - bidStartIndex) 0
        | none => 0
      else 0

def calculateDepthPercentage (model : OrderBookModel) (index : ℤ) : ℚ :=
  if index < 0 ∨ (model.combinedOrderBook.length : ℤ) ≤ index then 0
  else
    match model.combinedOrderBook[index.toNat]? with
    | none => 0
    | some row =>
      let totalVolume : ℤ := model.combinedOrderBook.foldl
        (fun total level => if level.side = row.side then total + level.volume else total) 0
      if totalVolume = 0 then 0 else (model.calculateCumulativeVolume index : ℚ) / totalVolume * 100

/-- What is done to the model: an update of the book comes in, or the limit is set. -/
inductive Call where
  | feed (bids asks : List OrderBookLevel)
  | setMaxLevels (levels : ℤ)

def act (model : OrderBookModel) : Call → OrderBookModel
  | .feed bids asks => model.feed bids asks
  | .setMaxLevels levels => model.setMaxLevels levels

section Quotes

/-- A price is a positive number of type `double`. -/
def Priced (levels : List OrderBookLevel) : Prop :=
  ∀ level ∈ levels, 0 < level.price ∧ level.price ≤ doubleMax

/-- The best prices are those of the book, and 0 for a side that is empty; what is computed from
both is 0 where one is. -/
structure Quotes (model : OrderBookModel) (bids asks : List OrderBookLevel) : Prop where
  bestBid : if bids = [] then model.getBestBid = 0
    else IsGreatest {price | ∃ level ∈ bids, level.price = price} model.getBestBid
  bestAsk : if asks = [] then model.getBestAsk = 0
    else IsLeast {price | ∃ level ∈ asks, level.price = price} model.getBestAsk
  spread :
    model.getSpread = if bids = [] ∨ asks = [] then 0 else model.getBestAsk - model.getBestBid
  midPrice : model.getMidPrice = if bids = [] ∨ asks = [] then 0
    else (model.getBestBid + model.getBestAsk) / 2

variable (book : OrderBook) {bids asks : List OrderBookLevel}

/-- The best bid starts from 0, which no bid is below. -/
theorem update_bestBid (priced : Priced bids) (asks : List OrderBookLevel) :
    if bids = [] then (book.update bids asks).bestBid = 0
    else IsGreatest {price | ∃ level ∈ bids, level.price = price}
      (book.update bids asks).bestBid := by
  have greatest := Extremes.foldl_max_isGreatest (fun level : OrderBookLevel => level.price) bids 0
  split
  · rename_i none
    rw [OrderBook.update, none]
    rfl
  · rename_i some
    obtain ⟨level, member⟩ := List.exists_mem_of_ne_nil bids some
    have above : level.price ≤ bids.foldl (fun best level => max best level.price) 0 :=
      greatest.2 (Set.mem_insert_of_mem _ ⟨level, member, rfl⟩)
    refine ⟨?_, fun price inside => greatest.2 (Set.mem_insert_of_mem _ inside)⟩
    refine Set.mem_of_mem_insert_of_ne greatest.1 (ne_of_gt ?_)
    exact (priced level member).1.trans_le above

/-- The best ask starts from the greatest number, which is what it stays at for want of an ask. -/
theorem update_bestAsk (priced : Priced asks) (some : asks ≠ []) (bids : List OrderBookLevel) :
    IsLeast {price | ∃ level ∈ asks, level.price = price} (book.update bids asks).bestAsk := by
  have least :=
    Extremes.foldl_min_isLeast (fun level : OrderBookLevel => level.price) asks doubleMax
  obtain ⟨level, member⟩ := List.exists_mem_of_ne_nil asks some
  refine ⟨?_, fun price inside => least.2 (Set.mem_insert_of_mem _ inside)⟩
  rcases least.1 with top | inside
  · have below : (book.update bids asks).bestAsk ≤ level.price :=
      least.2 (Set.mem_insert_of_mem _ ⟨level, member, rfl⟩)
    have same : level.price = doubleMax := le_antisymm (priced level member).2 (top ▸ below)
    exact ⟨level, member, same.trans top.symm⟩
  · exact inside

theorem doubleMax_pos : 0 < doubleMax := by
  unfold doubleMax
  positivity

end Quotes

section Feeds

/-- The updates among the calls. -/
def feeds (calls : List Call) : List (List OrderBookLevel × List OrderBookLevel) :=
  calls.filterMap fun
    | .feed bids asks => some (bids, asks)
    | .setMaxLevels _ => none

@[simp] theorem updateCombinedOrderBook_orderbookset (model : OrderBookModel) :
    model.updateCombinedOrderBook.orderbookset = model.orderbookset := by
  unfold updateCombinedOrderBook
  split <;> rfl

@[simp] theorem setMaxLevels_orderbookset (model : OrderBookModel) (levels : ℤ) :
    (model.setMaxLevels levels).orderbookset = model.orderbookset := by
  unfold setMaxLevels
  split
  · rw [updateCombinedOrderBook_orderbookset]
  · rfl

theorem feed_last (model : OrderBookModel) (bids asks : List OrderBookLevel) :
    (model.feed bids asks).orderbookset.getLast? = some (OrderBook.make.update bids asks) := by
  rw [feed, updateCombinedOrderBook_orderbookset]
  split
  · rename_i many
    rw [List.tail_append_of_ne_nil (fun none => by simp [none] at many), List.getLast?_concat]
  · rw [List.getLast?_concat]

/-- The model's last book is that of the last update. -/
theorem run_last (calls : List Call) : (calls.foldl act make).orderbookset.getLast? =
    (feeds calls).getLast?.map fun update => OrderBook.make.update update.1 update.2 := by
  induction calls using List.reverseRecOn with
  | nil => rfl
  | append_singleton calls call ih =>
    rw [List.foldl_concat, feeds, List.filterMap_append]
    cases call with
    | feed bids asks => simp [act, feed_last]
    | setMaxLevels levels =>
      rw [act, setMaxLevels_orderbookset, ih]
      simp [feeds]

/-- The bids and asks that came last, none before the first update. -/
def lastUpdate (calls : List Call) : List OrderBookLevel × List OrderBookLevel :=
  (feeds calls).getLast?.getD ([], [])

theorem quotes_of_update {model : OrderBookModel} {bids asks : List OrderBookLevel}
    (bidsPriced : Priced bids) (asksPriced : Priced asks)
    (last : model.orderbookset.getLast? = some (OrderBook.make.update bids asks)) :
    model.Quotes bids asks ↔ asks ≠ [] := by
  have bid : model.getBestBid = (OrderBook.make.update bids asks).bestBid := by
    rw [getBestBid, last]
    rfl
  have ask : model.getBestAsk = (OrderBook.make.update bids asks).bestAsk := by
    rw [getBestAsk, last]
    rfl
  have bestBid := update_bestBid OrderBook.make bidsPriced asks
  rw [← bid] at bestBid
  constructor
  · rintro quotes rfl
    have none : model.getBestAsk = 0 := by simpa using quotes.bestAsk
    rw [ask] at none
    exact absurd none doubleMax_pos.ne'
  · intro some
    have bestAsk := update_bestAsk OrderBook.make asksPriced some bids
    rw [← ask] at bestAsk
    have askPos : 0 < model.getBestAsk := by
      obtain ⟨level, member, same⟩ := bestAsk.1
      exact same ▸ (asksPriced level member).1
    have bidPos : 0 < model.getBestBid ↔ bids ≠ [] := by
      split at bestBid
      · rename_i empty
        simp [bestBid, empty]
      · rename_i nonempty
        obtain ⟨level, member, same⟩ := bestBid.1
        exact iff_of_true (same ▸ (bidsPriced level member).1) nonempty
    refine ⟨bestBid, ?_, ?_, ?_⟩
    · rwa [if_neg some]
    · simp only [getSpread, bidPos, askPos, some, and_true, or_false, ite_not]
    · simp only [getMidPrice, bidPos, askPos, some, and_true, or_false, ite_not]

/-- The quotes of a run are right just when its last update has an ask, or it has none. -/
theorem run_quotes_iff (calls : List Call)
    (priced : ∀ update ∈ feeds calls, Priced update.1 ∧ Priced update.2) :
    Quotes (calls.foldl act make) (lastUpdate calls).1 (lastUpdate calls).2 ↔
      feeds calls = [] ∨ (lastUpdate calls).2 ≠ [] := by
  have last := run_last calls
  unfold lastUpdate
  cases found : (feeds calls).getLast? with
  | none =>
    have bid : getBestBid (calls.foldl act make) = 0 := by simp [getBestBid, last, found]
    have ask : getBestAsk (calls.foldl act make) = 0 := by simp [getBestAsk, last, found]
    refine iff_of_true ⟨?_, ?_, ?_, ?_⟩ (Or.inl (List.getLast?_eq_none_iff.mp found))
    · simpa using bid
    · simpa using ask
    · simp [getSpread, bid]
    · simp [getMidPrice, bid]
  | some update =>
    have known := priced update (List.mem_of_getLast? found)
    have some : feeds calls ≠ [] := fun none => by simp [none] at found
    rw [found] at last
    rw [or_iff_right some]
    exact quotes_of_update known.1 known.2 last

theorem thousand_le_doubleMax : 1000 ≤ doubleMax := by
  have exponent : (2 : ℚ) ^ 10 ≤ 2 ^ 1023 := pow_le_pow_right₀ (by norm_num) (by norm_num)
  calc (1000 : ℚ) ≤ 1 * 2 ^ 10 := by norm_num
    _ ≤ (2 - 1 / 2 ^ 52) * 2 ^ 1023 := mul_le_mul (by norm_num) exponent (by norm_num) (by norm_num)

/-- A level of one unit. -/
def levelAt (price : ℚ) (side : String) : OrderBookLevel := ⟨price, 1, 1, side⟩

theorem priced_singleton {price : ℚ} (positive : 0 < price) (small : price ≤ 1000) (side : String) :
    Priced [levelAt price side] := by
  intro level member
  rw [List.mem_singleton.mp member]
  exact ⟨positive, small.trans thousand_le_doubleMax⟩

/-- With one bid and no ask, the best ask is not 0. -/
theorem bid_without_ask : ¬ ∀ calls : List Call,
    (∀ update ∈ feeds calls, Priced update.1 ∧ Priced update.2) →
      Quotes (calls.foldl act make) (lastUpdate calls).1 (lastUpdate calls).2 := by
  intro quotes
  have reported := quotes [.feed [levelAt 100 "bid"] []] fun update member => by
    rw [List.mem_singleton.mp member]
    exact ⟨priced_singleton (by norm_num) (by norm_num) "bid",
      fun _ none => absurd none List.not_mem_nil⟩
  have none : doubleMax = 0 := reported.bestAsk
  exact absurd none doubleMax_pos.ne'

/-- With a bid and an ask, the quotes are right. -/
theorem bid_and_ask :
    Quotes ([.feed [levelAt 100 "bid"] [levelAt 101 "ask"]].foldl act make) [levelAt 100 "bid"]
    [levelAt 101 "ask"] :=
  (run_quotes_iff [.feed [levelAt 100 "bid"] [levelAt 101 "ask"]] fun update member => by
    rw [List.mem_singleton.mp member]
    exact ⟨priced_singleton (by norm_num) (by norm_num) "bid",
      priced_singleton (by norm_num) (by norm_num) "ask"⟩).mpr
      (Or.inr (List.cons_ne_nil _ _))

end Feeds

section Depth

/-- The levels say which side they are of, and no volume is negative. -/
structure Sided (side : String) (levels : List OrderBookLevel) : Prop where
  side : ∀ level ∈ levels, level.side = side
  nonneg : ∀ level ∈ levels, 0 ≤ level.volume

/-- The volume of some levels. -/
def volumeOf (levels : List OrderBookLevel) : ℤ := (levels.map (·.volume)).sum

/-- The rows of a side, from the first one on: the volumes are summed up along it, and are put in
relation to its whole volume. -/
structure Depth (model : OrderBookModel) (first : ℕ) (rows : List OrderBookLevel) : Prop where
  cumulative : ∀ i < rows.length,
    model.calculateCumulativeVolume (first + i : ℕ) = volumeOf (rows.take (i + 1))
  range : ∀ i < rows.length,
    0 ≤ model.calculateDepthPercentage (first + i : ℕ) ∧
      model.calculateDepthPercentage (first + i : ℕ) ≤ 100
  monotone : ∀ i j, i ≤ j → j < rows.length →
    model.calculateDepthPercentage (first + i : ℕ) ≤ model.calculateDepthPercentage (first + j : ℕ)
  whole : 0 < volumeOf rows → model.calculateDepthPercentage (first + (rows.length - 1) : ℕ) = 100

/-- The asks, and then the bids. -/
structure Shows (model : OrderBookModel) (asks bids : List OrderBookLevel) : Prop where
  rows : model.combinedOrderBook = asks ++ bids
  askDepth : model.Depth 0 asks
  bidDepth : model.Depth asks.length bids

theorem appendLevels_eq (combined levels : List OrderBookLevel) (count : ℕ) :
    appendLevels combined levels count = combined ++ levels.take count := by
  unfold appendLevels
  induction count with
  | zero => simp
  | succ count ih =>
    rw [List.range_succ, List.foldl_concat, ih, List.append_assoc, ← List.take_add_one]

/-- What is shown of the last book: its first asks, then its first bids. -/
theorem combined_eq {model : OrderBookModel} {book : OrderBook}
    (last : model.orderbookset.getLast? = some book) :
    model.updateCombinedOrderBook.combinedOrderBook =
      book.asks.take (model.shown book.asks) ++ book.bids.take (model.shown book.bids) := by
  simp only [updateCombinedOrderBook, last, appendLevels_eq, List.nil_append]

variable {side : String} {rows before behind : List OrderBookLevel}

theorem Sided.take (sided : Sided side rows) (n : ℕ) : Sided side (rows.take n) where
  side level member := sided.side level (List.mem_of_mem_take member)
  nonneg level member := sided.nonneg level (List.mem_of_mem_take member)

theorem volumeOf_append (front back : List OrderBookLevel) :
    volumeOf (front ++ back) = volumeOf front + volumeOf back := by
  rw [volumeOf, List.map_append, List.sum_append, volumeOf, volumeOf]

theorem Sided.volumeOf_nonneg (sided : Sided side rows) : 0 ≤ volumeOf rows := by
  refine List.sum_nonneg fun volume member => ?_
  obtain ⟨level, inside, rfl⟩ := List.mem_map.mp member
  exact sided.nonneg level inside

/-- Fewer rows of a side have no more volume. -/
theorem Sided.volumeOf_take_le (sided : Sided side rows) {i j : ℕ} (le : i ≤ j) :
    volumeOf (rows.take i) ≤ volumeOf (rows.take j) := by
  have split : (rows.take j).take i ++ (rows.take j).drop i = rows.take j :=
    List.take_append_drop i _
  have rest : Sided side ((rows.take j).drop i) :=
    ⟨fun level member => (sided.take j).side level (List.mem_of_mem_drop member),
      fun level member => (sided.take j).nonneg level (List.mem_of_mem_drop member)⟩
  have added := congrArg volumeOf split
  rw [volumeOf_append, List.take_take, min_eq_left le] at added
  have nonneg := rest.volumeOf_nonneg
  omega

variable (before behind) in
/-- The loop sums the rows of its side up to the one asked for. -/
theorem sumSide_eq (alike : ∀ level ∈ rows, level.side = side) {left : ℕ}
    (short : left ≤ rows.length) (total : ℤ) :
    sumSide (before ++ rows ++ behind) side before.length left total =
      total + volumeOf (rows.take left) := by
  induction left generalizing before rows total with
  | zero => simp [sumSide, volumeOf]
  | succ left ih =>
    obtain _ | ⟨row, rest⟩ := rows
    · simp at short
    have found : (before ++ row :: rest ++ behind)[before.length]? = some row := by simp
    have shifted : before ++ row :: rest ++ behind = (before ++ [row]) ++ rest ++ behind := by simp
    have next :
        sumSide (before ++ [row] ++ rest ++ behind) side (before ++ [row]).length left
          (total + row.volume) =
        total + row.volume + volumeOf (rest.take left) :=
      ih _ (fun level member => alike level (List.mem_cons_of_mem _ member)) (by simpa using short)
        (total + row.volume)
    rw [List.length_append, List.length_singleton, ← shifted] at next
    rw [sumSide, found]
    simp only [alike row List.mem_cons_self, if_true, next]
    simp [volumeOf, add_assoc]

variable {model : OrderBookModel}

theorem row_found (shown : model.combinedOrderBook = before ++ rows ++ behind) {i : ℕ}
    (inside : i < rows.length) :
    model.combinedOrderBook[before.length + i]? = some rows[i] := by
  rw [shown, List.append_assoc, List.getElem?_append_right (by omega), Nat.add_sub_cancel_left,
    List.getElem?_append_left inside, List.getElem?_eq_getElem inside]

theorem index_inside (shown : model.combinedOrderBook = before ++ rows ++ behind) {i : ℕ}
    (inside : i < rows.length) :
    ¬ (((before.length + i : ℕ) : ℤ) < 0 ∨ (model.combinedOrderBook.length : ℤ) ≤
      (before.length + i : ℕ)) := by
  have length := congrArg List.length shown
  rw [List.length_append, List.length_append] at length
  omega

theorem cumulative_ask (sided : Sided "ask" rows)
    (shown : model.combinedOrderBook = [] ++ rows ++ behind) :
    ∀ i < rows.length, model.calculateCumulativeVolume (([] : List OrderBookLevel).length + i : ℕ) =
      volumeOf (rows.take (i + 1)) := by
  intro i inside
  have own : rows[i].side = "ask" := sided.side _ (List.getElem_mem inside)
  have summed := sumSide_eq [] behind sided.side inside 0
  rw [calculateCumulativeVolume, if_neg (index_inside shown inside), Int.toNat_natCast,
    row_found shown inside]
  simp only [own, if_true, List.length_nil, zero_add] at summed ⊢
  rw [shown, summed]

theorem cumulative_bid (sided : Sided "bid" rows)
    (shown : model.combinedOrderBook = before ++ rows ++ [])
    (other : ∀ level ∈ before, level.side ≠ "bid") :
    ∀ i < rows.length, model.calculateCumulativeVolume (before.length + i : ℕ) =
      volumeOf (rows.take (i + 1)) := by
  intro i inside
  have own : rows[i].side = "bid" := sided.side _ (List.getElem_mem inside)
  have summed := sumSide_eq before [] sided.side inside 0
  have start : model.combinedOrderBook.findIdx? (·.side = "bid") = some before.length := by
    have none : before.findIdx? (·.side = "bid") = none :=
      List.findIdx?_eq_none_iff.mpr fun level member => decide_eq_false (other level member)
    have first : rows.findIdx? (·.side = "bid") = some 0 := by
      cases rows with
      | nil => exact absurd inside (Nat.not_lt_zero i)
      | cons row rest => simp [List.findIdx?_cons, sided.side row List.mem_cons_self]
    rw [shown, List.append_nil, List.findIdx?_append, none, first]
    simp
  have apart : before.length + i + 1 - before.length = i + 1 := by omega
  rw [calculateCumulativeVolume, if_neg (index_inside shown inside), Int.toNat_natCast,
    row_found shown inside]
  simp only [own, start, apart]
  rw [shown, summed]
  simp

theorem total_eq (sided : Sided side rows)
    (shown : model.combinedOrderBook = before ++ rows ++ behind)
    (beforeOther : ∀ level ∈ before, level.side ≠ side)
    (behindOther : ∀ level ∈ behind, level.side ≠ side) :
    model.combinedOrderBook.foldl (fun total level => if level.side = side then total + level.volume
      else total) 0 =
      volumeOf rows := by
  have quiet (levels : List OrderBookLevel) (other : ∀ level ∈ levels, level.side ≠ side)
      (start : ℤ) :
      levels.foldl (fun total level => if level.side = side then total + level.volume
        else total) start = start := by
    induction levels generalizing start with
    | nil => rfl
    | cons level levels ih =>
      rw [List.foldl_cons, if_neg (other level List.mem_cons_self),
        ih fun level member => other level (List.mem_cons_of_mem _ member)]
  have summed (levels : List OrderBookLevel) (alike : ∀ level ∈ levels, level.side = side)
      (start : ℤ) :
      levels.foldl (fun total level => if level.side = side then total + level.volume
        else total) start =
        start + volumeOf levels := by
    induction levels generalizing start with
    | nil => simp [volumeOf]
    | cons level levels ih =>
      rw [List.foldl_cons, if_pos (alike level List.mem_cons_self),
        ih fun level member => alike level (List.mem_cons_of_mem _ member)]
      simp [volumeOf, add_assoc]
  rw [shown, List.foldl_append, List.foldl_append, quiet before beforeOther,
    quiet behind behindOther, summed rows sided.side, zero_add]

/-- Where the volumes are summed up right, the percentages are those of the side's volume. -/
theorem percentage_eq (sided : Sided side rows)
    (shown : model.combinedOrderBook = before ++ rows ++ behind)
    (beforeOther : ∀ level ∈ before, level.side ≠ side)
    (behindOther : ∀ level ∈ behind, level.side ≠ side) (cumulative : ∀ i < rows.length,
      model.calculateCumulativeVolume (before.length + i : ℕ) =
        volumeOf (rows.take (i + 1))) {i : ℕ}
    (inside : i < rows.length) : model.calculateDepthPercentage (before.length + i : ℕ) =
      if volumeOf rows = 0 then 0
      else (volumeOf (rows.take (i + 1)) : ℚ) / volumeOf rows * 100 := by
  have own : rows[i].side = side := sided.side _ (List.getElem_mem inside)
  rw [calculateDepthPercentage, if_neg (index_inside shown inside), Int.toNat_natCast,
    row_found shown inside]
  simp only [own, total_eq sided shown beforeOther behindOther, cumulative i inside]

theorem depth_of_cumulative (sided : Sided side rows)
    (shown : model.combinedOrderBook = before ++ rows ++ behind)
    (beforeOther : ∀ level ∈ before, level.side ≠ side)
    (behindOther : ∀ level ∈ behind, level.side ≠ side) (cumulative : ∀ i < rows.length,
      model.calculateCumulativeVolume (before.length + i : ℕ) = volumeOf (rows.take (i + 1))) :
    Depth model before.length rows := by
  have percentage {i : ℕ} (inside : i < rows.length) :=
    percentage_eq sided shown beforeOther behindOther cumulative inside
  have total : (0 : ℚ) ≤ volumeOf rows := by exact_mod_cast sided.volumeOf_nonneg
  refine ⟨cumulative, fun i inside => ?_, fun i j le inside => ?_, fun positive => ?_⟩
  · have low : (0 : ℚ) ≤ volumeOf (rows.take (i + 1)) := by
      exact_mod_cast (sided.take _).volumeOf_nonneg
    have high : (volumeOf (rows.take (i + 1)) : ℚ) ≤ volumeOf rows := by
      have bound := sided.volumeOf_take_le inside
      rw [List.take_length] at bound
      exact_mod_cast bound
    rw [percentage inside]
    split
    · norm_num
    · have ratio : (volumeOf (rows.take (i + 1)) : ℚ) / volumeOf rows ≤ 1 :=
        div_le_one_of_le₀ high total
      exact ⟨by positivity, by linarith⟩
  · rw [percentage (le.trans_lt inside), percentage inside]
    split
    · exact le_refl 0
    · have more : (volumeOf (rows.take (i + 1)) : ℚ) ≤ volumeOf (rows.take (j + 1)) := by
        exact_mod_cast sided.volumeOf_take_le (Nat.succ_le_succ le)
      gcongr
  · have some : 0 < rows.length := by
      refine List.length_pos_of_ne_nil fun none => ?_
      simp [none, volumeOf] at positive
    have all : rows.take (rows.length - 1 + 1) = rows := by
      rw [Nat.sub_add_cancel some, List.take_length]
    have nonzero : (volumeOf rows : ℚ) ≠ 0 := by exact_mod_cast positive.ne'
    rw [percentage (Nat.sub_lt some one_pos), if_neg positive.ne', all, div_self nonzero, one_mul]

/-- A new model, and one whose book or limit has changed, shows its last book. -/
theorem run_current (calls : List Call) :
    (calls.foldl act make).updateCombinedOrderBook = calls.foldl act make := by
  have again (model : OrderBookModel) :
      model.updateCombinedOrderBook.updateCombinedOrderBook = model.updateCombinedOrderBook := by
    unfold updateCombinedOrderBook
    cases last : model.orderbookset.getLast? with
    | none => simp [last]
    | some book =>
      simp only [last]
      rfl
  induction calls using List.reverseRecOn with
  | nil => rfl
  | append_singleton calls call ih =>
    rw [List.foldl_concat]
    cases call with
    | feed bids asks => exact again _
    | setMaxLevels levels =>
      rw [act, setMaxLevels]
      split
      · exact again _
      · exact ih

/-- Whatever came in and whatever the limit is: the first asks of the last book are shown and then
its first bids, and the depth of each side is summed up along its rows. -/
theorem run_depth (calls : List Call) {book : OrderBook}
    (last : (calls.foldl act make).orderbookset.getLast? = some book) (asks : Sided "ask" book.asks)
    (bids : Sided "bid" book.bids) :
    Shows (calls.foldl act make) (book.asks.take ((calls.foldl act make).shown book.asks))
      (book.bids.take ((calls.foldl act make).shown book.bids)) := by
  have combined := combined_eq last
  rw [run_current] at combined
  have askRows := asks.take ((calls.foldl act make).shown book.asks)
  have bidRows := bids.take ((calls.foldl act make).shown book.bids)
  have askOther :
      ∀ level ∈ book.asks.take ((calls.foldl act make).shown book.asks), level.side ≠ "bid" := by
    intro level member
    rw [askRows.side level member]
    decide
  have bidOther :
      ∀ level ∈ book.bids.take ((calls.foldl act make).shown book.bids), level.side ≠ "ask" := by
    intro level member
    rw [bidRows.side level member]
    decide
  have nothing (side : String) : ∀ level ∈ ([] : List OrderBookLevel), level.side ≠ side :=
    fun _ none => absurd none List.not_mem_nil
  refine ⟨combined, ?_, ?_⟩
  · exact depth_of_cumulative askRows combined (nothing _) bidOther
      (cumulative_ask askRows combined)
  · rw [← List.append_nil (_ ++ _)] at combined
    exact depth_of_cumulative bidRows combined askOther (nothing _)
      (cumulative_bid bidRows combined askOther)

/-- Asks and bids of different volumes. -/
def someAsks : List OrderBookLevel :=
  [levelAt 101 "ask", { levelAt 102 "ask" with volume := 3 },
    { levelAt 103 "ask" with volume := 5 }]

def someBids : List OrderBookLevel := [{ levelAt 100 "bid" with volume := 2 }, levelAt 99 "bid"]

/-- Another book comes before, and two levels a side are shown of this one. -/
def fedTwice : List Call :=
  [.feed [levelAt 98 "bid"] [levelAt 99 "ask"], .setMaxLevels 2, .feed someBids someAsks]

theorem two_levels : Shows (fedTwice.foldl act make) (someAsks.take 2) someBids := by
  have asks : Sided "ask" someAsks := ⟨by simp [someAsks, levelAt], by simp [someAsks, levelAt]⟩
  have bids : Sided "bid" someBids := ⟨by simp [someBids, levelAt], by simp [someBids, levelAt]⟩
  have last : (fedTwice.foldl act make).orderbookset.getLast? =
      some (OrderBook.make.update someBids someAsks) := rfl
  exact run_depth fedTwice last asks bids

end Depth

end OrderBookModel
end BTrader
