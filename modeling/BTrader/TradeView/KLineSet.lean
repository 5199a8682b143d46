import BTrader.Broker.BinanceData
import BTrader.Lib.Extremes
import BTrader.Lib.Runs
import BTrader.Lib.Window

/-! The bars of an instrument, gathered into one K-line a minute. -/
namespace BTrader

/-- Times are in milliseconds since the epoch. -/
structure KLine where
  startTime : ℤ
  endTime : ℤ
  open_ : ℚ
  high : ℚ
  low : ℚ
  close : ℚ
  volume : ℤ
  amount : ℚ
  deriving DecidableEq, Repr

namespace KLine

/-- The minute of the timestamp, up to the next one. -/
def make (ts : ℤ) (o h l c : ℚ) (vol : ℤ) (amt : ℚ) : KLine :=
  let startMs := ts.tdiv 60000 * 60000
  ⟨startMs, startMs + 60000, o, h, l, c, vol, amt⟩

def contains (kline : KLine) (ts : ℤ) : Bool := kline.startTime ≤ ts && ts < kline.endTime

/-- The bar is added to the K-line. -/
def merge (kline : KLine) (bar : Kline) : KLine :=
  { kline with
    close := bar.close
    high := max kline.high bar.high
    low := max kline.low bar.low
    volume := castInt64 (kline.volume + bar.volume) }

end KLine

namespace KLineSet

/-- What the data set of the bar's instrument becomes, with times in milliseconds. -/
def addBar (dataset : List KLine) (bar : Kline) : List KLine :=
  let start := bar.startTime.toInt
  let end_ := bar.endTime.toInt
  let kline := KLine.make end_ bar.open_ bar.high bar.low bar.close (castInt64 bar.volume) 0
  let added := match dataset.getLast? with
    | some back => if back.contains start then dataset.dropLast ++ [back.merge bar]
        else dataset ++ [kline]
    | none => dataset ++ [kline]
  if 1000 < added.length then added.tail else added

end KLineSet

/-- The data sets of all instruments. -/
abbrev Database := String → List KLine

def Database.onIncommingBar (database : Database) (bar : Kline) : Database :=
  Function.update database bar.instrumentId (KLineSet.addBar (database bar.instrumentId) bar)

namespace KLineSet

/-- The start of the minute that the bar starts in. -/
def minuteOf (bar : Kline) : ℤ := bar.startTime.toInt / 60000 * 60000

/-- A bar within one minute, with a whole number for its volume. -/
structure WithinMinute (bar : Kline) : Prop where
  lasts : bar.startTime.toInt < bar.endTime.toInt
  ends : bar.endTime.toInt ≤ minuteOf bar + 60000
  integral : ∃ volume : ℤ, bar.volume = volume

/-- The bars of one instrument, in time order. -/
structure Feed (id : String) (bars : List Kline) : Prop where
  ofInstrument : ∀ bar ∈ bars, bar.instrumentId = id
  ordered : bars.Pairwise fun before bar => before.startTime.toInt ≤ bar.startTime.toInt
  within : ∀ bar ∈ bars, WithinMinute bar

/-- The minutes that a bar starts in, in order. -/
def minutes (bars : List Kline) : List ℤ := (bars.map minuteOf).toFinset.sort

/-- The bars of a minute. -/
def ofMinute (bars : List Kline) (minute : ℤ) : List Kline :=
  bars.filter fun bar => minuteOf bar = minute

/-- The K-line is the sum of the bars of its minute. -/
structure Sums (kline : KLine) (minute : ℤ) (bars : List Kline) : Prop where
  startTime : kline.startTime = minute
  open_ : bars.head?.map (·.open_) = some kline.open_
  close : bars.getLast?.map (·.close) = some kline.close
  high : IsGreatest {price | ∃ bar ∈ bars, bar.high = price} kline.high
  low : IsLeast {price | ∃ bar ∈ bars, bar.low = price} kline.low
  volume : (kline.volume : ℚ) = (bars.map (·.volume)).sum

/-- The data set has one K-line for each of the newest 1000 minutes that have bars. -/
def Right (dataset : List KLine) (bars : List Kline) : Prop :=
  List.Forall₂ (fun kline minute => Sums kline minute (ofMinute bars minute)) dataset
    ((minutes bars).rtake 1000)

/-- The first bar of a minute ends after the epoch and before its minute does, and none that
follows is above or below the lowest price that the minute has had. -/
def Tells (seen : List Kline) (bar : Kline) : Prop :=
  if ofMinute seen (minuteOf bar) = [] then 0 < bar.endTime.toInt ∧ ¬ 60000 ∣ bar.endTime.toInt
  else IsLeast {price | ∃ before ∈ ofMinute seen (minuteOf bar), before.low = price} bar.low

section Minutes
variable {bars : List Kline} {bar : Kline} {minute : ℤ}

theorem sort_concat {s : Finset ℤ} {m : ℤ} (below : ∀ x ∈ s, x < m) :
    (insert m s).sort = s.sort ++ [m] := by
  have listed : (s.sort ++ [m]).toFinset = insert m s := by
    ext x
    simp
  have nodup : (s.sort ++ [m]).Nodup := by
    rw [List.nodup_append_comm]
    refine List.nodup_cons.mpr ⟨fun member => ?_, s.sort_nodup _⟩
    exact lt_irrefl m (below m ((Finset.mem_sort _).mp member))
  have sorted : (s.sort ++ [m]).Pairwise (· ≤ ·) := by
    refine List.pairwise_append.mpr ⟨s.pairwise_sort _, List.pairwise_singleton _ _,
      fun x member y last => ?_⟩
    rw [List.mem_singleton.mp last]
    exact (below x ((Finset.mem_sort _).mp member)).le
  rw [← listed]
  exact (List.toFinset_sort _ nodup).mpr sorted

theorem mem_minutes : minute ∈ minutes bars ↔ ∃ bar ∈ bars, minuteOf bar = minute := by
  simp [minutes]

theorem ofMinute_eq_nil : ofMinute bars minute = [] ↔ minute ∉ minutes bars := by
  simp [ofMinute, mem_minutes]

theorem minutes_new (later : ∀ before ∈ bars, minuteOf before < minuteOf bar) :
    minutes (bars ++ [bar]) = minutes bars ++ [minuteOf bar] := by
  have joined : ((bars ++ [bar]).map minuteOf).toFinset =
      insert (minuteOf bar) (bars.map minuteOf).toFinset := by
    ext x
    simp
  rw [minutes, joined, sort_concat]
  · rfl
  · simpa using later

theorem minutes_seen (seen : minuteOf bar ∈ minutes bars) :
    minutes (bars ++ [bar]) = minutes bars := by
  have joined : ((bars ++ [bar]).map minuteOf).toFinset = (bars.map minuteOf).toFinset := by
    ext x
    obtain ⟨before, member, same⟩ := mem_minutes.mp seen
    simp only [List.map_append, List.toFinset_append, Finset.mem_union, List.mem_toFinset,
      List.mem_map, List.map_cons, List.map_nil, List.mem_singleton, or_iff_left_iff_imp]
    rintro rfl
    exact ⟨before, member, same⟩
  rw [minutes, joined, minutes]

/-- The minute of the newest bar comes last, after the earlier ones. -/
theorem minutes_last (seen : minute ∈ minutes bars)
    (newest : ∀ before ∈ bars, minuteOf before ≤ minute) :
    ∃ earlier : List ℤ, (∀ m ∈ earlier, m < minute) ∧ minutes bars = earlier ++ [minute] := by
  have member : minute ∈ (bars.map minuteOf).toFinset := (Finset.mem_sort _).mp seen
  have below : ∀ m ∈ (bars.map minuteOf).toFinset.erase minute, m < minute := by
    intro m inside
    obtain ⟨apart, inside⟩ := Finset.mem_erase.mp inside
    obtain ⟨before, among, rfl⟩ := List.mem_map.mp (List.mem_toFinset.mp inside)
    exact lt_of_le_of_ne (newest before among) apart
  refine ⟨((bars.map minuteOf).toFinset.erase minute).sort,
    fun m inside => below m ((Finset.mem_sort _).mp inside), ?_⟩
  rw [minutes, ← sort_concat below, Finset.insert_erase member]

theorem ofMinute_other (other : minuteOf bar ≠ minute) :
    ofMinute (bars ++ [bar]) minute = ofMinute bars minute := by
  simp [ofMinute, other]

theorem ofMinute_own :
    ofMinute (bars ++ [bar]) (minuteOf bar) = ofMinute bars (minuteOf bar) ++ [bar] := by
  simp [ofMinute]

end Minutes

section Klines
variable {dataset : List KLine} {kline : KLine} {minute : ℤ} {own : List Kline} {bar : Kline}

/-- What a bar makes of a new K-line. -/
def ofBar (bar : Kline) : KLine :=
  .make bar.endTime.toInt bar.open_ bar.high bar.low bar.close (castInt64 bar.volume) 0

theorem addBar_merged (inside : kline.contains bar.startTime.toInt)
    (short : (dataset ++ [kline]).length ≤ 1000) :
    addBar (dataset ++ [kline]) bar = dataset ++ [kline.merge bar] := by
  have added :
      addBar (dataset ++ [kline]) bar = if 1000 < (dataset ++ [kline.merge bar]).length then
      (dataset ++ [kline.merge bar]).tail else dataset ++ [kline.merge bar] := by
    simp only [addBar, List.getLast?_concat, inside, if_true, List.dropLast_concat]
  rw [List.length_append, List.length_singleton] at short
  rw [added, if_neg (by simp; omega)]

theorem addBar_new
    (outside : ∀ back ∈ dataset.getLast?, back.contains bar.startTime.toInt = false) :
    addBar dataset bar = Window.push 1000 dataset (ofBar bar) := by
  unfold addBar
  cases last : dataset.getLast? with
  | none => rfl
  | some back =>
    simp only [outside back last]
    rfl

/-- The greater of two lows is the low of both where they are the same. -/
theorem isLeast_max_iff {price : ℚ} (least : IsLeast {x | ∃ before ∈ own, before.low = x} price) :
    IsLeast {x | ∃ before ∈ own ++ [bar], before.low = x} (max price bar.low) ↔
      IsLeast {x | ∃ before ∈ own, before.low = x} bar.low := by
  have both := Extremes.isLeast_concat (fun before : Kline => before.low) least bar
  constructor
  · intro greater
    have same : min price bar.low = max price bar.low := both.unique greater
    have equal : price = bar.low := inf_eq_sup.mp same
    rwa [← equal]
  · intro alike
    have equal : price = bar.low := least.unique alike
    rw [equal, max_self]
    rwa [equal, min_self] at both

theorem sums_merge (sums : Sums kline minute own) (integral : ∃ volume : ℤ, bar.volume = volume) :
    Sums (kline.merge bar) minute (own ++ [bar]) ↔
      IsLeast {price | ∃ before ∈ own, before.low = price} bar.low := by
  rw [← isLeast_max_iff sums.low]
  refine ⟨fun merged => merged.low, fun low => ?_⟩
  obtain ⟨volume, whole⟩ := integral
  have nonempty : own ≠ [] := by
    rintro rfl
    exact absurd sums.open_ (by simp)
  refine ⟨sums.startTime, ?_, ?_, Extremes.isGreatest_concat _ sums.high bar, low, ?_⟩
  · rw [List.head?_append_of_ne_nil _ nonempty]
    exact sums.open_
  · rw [List.getLast?_concat]
    rfl
  · have added : castInt64 ((kline.volume : ℚ) + bar.volume) = kline.volume + volume := by
      rw [whole, ← Int.cast_add, castInt64_intCast]
    rw [List.map_append, List.sum_append, ← sums.volume, KLine.merge, added, Int.cast_add, ← whole]
    simp

/-- A new K-line belongs to the minute that its bar ends in. -/
theorem sums_ofBar (integral : ∃ volume : ℤ, bar.volume = volume) :
    Sums (ofBar bar) minute [bar] ↔ bar.endTime.toInt.tdiv 60000 * 60000 = minute := by
  refine ⟨fun sums => sums.startTime, fun start => ?_⟩
  obtain ⟨volume, whole⟩ := integral
  refine ⟨start, rfl, rfl, ?_, ?_, ?_⟩
  · simp [ofBar, KLine.make]
  · simp [ofBar, KLine.make]
  · simp [ofBar, KLine.make, whole]

theorem endMinute_iff (within : WithinMinute bar) :
    bar.endTime.toInt.tdiv 60000 * 60000 = minuteOf bar ↔
    0 < bar.endTime.toInt ∧ ¬ 60000 ∣ bar.endTime.toInt := by
  have lasts := within.lasts
  have ends := within.ends
  unfold minuteOf at ends ⊢
  rcases le_or_gt 0 bar.endTime.toInt with nonneg | negative
  · rw [Int.tdiv_eq_ediv_of_nonneg nonneg]
    omega
  · have rounded : bar.endTime.toInt.tdiv 60000 = -(-bar.endTime.toInt / 60000) := by
      rw [← Int.tdiv_eq_ediv_of_nonneg (by omega), Int.neg_tdiv, neg_neg]
    rw [rounded]
    omega

end Klines

section Steps
variable {id : String} {seen : List Kline} {bar : Kline} {dataset : List KLine}

/-- Each K-line lasts a minute. -/
def Minutely (dataset : List KLine) : Prop :=
  ∀ kline ∈ dataset, kline.endTime = kline.startTime + 60000

theorem addBar_minutely (minutely : Minutely dataset) : Minutely (addBar dataset bar) := by
  have trimmed (added : List KLine) (all : Minutely added) :
      Minutely (if 1000 < added.length then added.tail else added) := by
    intro kline member
    split at member
    · exact all kline (List.mem_of_mem_tail member)
    · exact all kline member
  have appended (kline : KLine) (lasts : kline.endTime = kline.startTime + 60000)
      (front : List KLine)
      (all : Minutely front) : Minutely (front ++ [kline]) := by
    intro other member
    rcases List.mem_append.mp member with earlier | last
    · exact all other earlier
    · rwa [List.mem_singleton.mp last]
  refine trimmed _ ?_
  split
  · rename_i back last
    split
    · refine appended _ ?_ _ fun kline member => minutely kline (List.mem_of_mem_dropLast member)
      exact minutely back (List.mem_of_getLast? last)
    · exact appended _ rfl _ minutely
  · exact appended _ rfl _ minutely

theorem Feed.newest (feed : Feed id (seen ++ [bar])) :
    ∀ before ∈ seen, minuteOf before ≤ minuteOf bar := by
  intro before member
  have ordered :=
    (List.pairwise_append.mp feed.ordered).2.2 before member bar (List.mem_singleton_self bar)
  unfold minuteOf
  omega

/-- A data set that is right stays so just when the bar tells its minute. -/
theorem addBar_right_iff (feed : Feed id (seen ++ [bar])) (minutely : Minutely dataset)
    (right : Right dataset seen) :
    Right (addBar dataset bar) (seen ++ [bar]) ↔ Tells seen bar := by
  have within := feed.within bar (by simp)
  have newest := feed.newest
  have lower : minuteOf bar ≤ bar.startTime.toInt := by
    unfold minuteOf
    omega
  by_cases known : minuteOf bar ∈ minutes seen
  · obtain ⟨earlier, below, listed⟩ := minutes_last known newest
    unfold Right at right ⊢
    rw [minutes_seen known, listed, List.rtake_concat_succ]
    rw [listed, List.rtake_concat_succ] at right
    obtain ⟨front, back, rfl, fronts, sums⟩ := Window.forall₂_concat_right right
    have inside : back.contains bar.startTime.toInt := by
      have lasts := minutely back (by simp)
      have upper : bar.startTime.toInt < minuteOf bar + 60000 := within.lasts.trans_le within.ends
      rw [KLine.contains, lasts, sums.startTime]
      simp [lower, upper]
    have short : (front ++ [back]).length ≤ 1000 := by
      have least := Window.length_rtake_le 999 earlier
      have same := fronts.length_eq
      simp
      omega
    have kept :
        List.Forall₂ (fun kline minute => Sums kline minute (ofMinute (seen ++ [bar]) minute)) front
        (earlier.rtake 999) := by
      refine (Window.forall₂_congr_mem fun minute member kline => ?_).mp fronts
      rw [ofMinute_other (below minute (Window.mem_of_mem_rtake member)).ne']
    rw [addBar_merged inside short, Window.forall₂_concat, and_iff_right kept, ofMinute_own,
      sums_merge sums within.integral, Tells, if_neg (fun none => ofMinute_eq_nil.mp none known)]
  · have later : ∀ before ∈ seen, minuteOf before < minuteOf bar := fun before member =>
      lt_of_le_of_ne (newest before member) fun same =>
        known (mem_minutes.mpr ⟨before, member, same⟩)
    have outside : ∀ back ∈ dataset.getLast?, back.contains bar.startTime.toInt = false := by
      intro back last
      have member := List.mem_of_getLast? last
      obtain ⟨minute, inside, sums⟩ := Window.forall₂_mem right back member
      obtain ⟨before, among, rfl⟩ := mem_minutes.mp (Window.mem_of_mem_rtake inside)
      have apart := later before among
      have ended : minuteOf before + 60000 ≤ bar.startTime.toInt := by
        unfold minuteOf at apart lower ⊢
        omega
      rw [KLine.contains, minutely back member, sums.startTime]
      simp [ended]
    have held :
        List.Forall₂ (fun kline minute =>
        Sums kline minute (ofMinute (seen ++ [bar]) minute)) dataset
        ((minutes seen).rtake 1000) := by
      refine (Window.forall₂_congr_mem fun minute member kline => ?_).mp right
      rw [ofMinute_other fun same => known (same ▸ Window.mem_of_mem_rtake member)]
    have own := ofMinute_eq_nil.mpr known
    rw [Right, addBar_new outside, minutes_new later, ← Window.push_rtake (by norm_num),
      Window.forall₂_push (by norm_num) held,
      ofMinute_own, own, List.nil_append, sums_ofBar within.integral, endMinute_iff within,
        Tells, if_pos own]

end Steps

section Runs
variable {id : String} {bars : List Kline}

theorem Feed.init {bar : Kline} (feed : Feed id (bars ++ [bar])) : Feed id bars where
  ofInstrument other member := feed.ofInstrument other (List.mem_append_left _ member)
  ordered := (List.pairwise_append.mp feed.ordered).1
  within other member := feed.within other (List.mem_append_left _ member)

/-- The bars of an instrument go into its data set alone. -/
theorem onIncommingBar_own (ofInstrument : ∀ bar ∈ bars, bar.instrumentId = id)
    (database : Database) :
    bars.foldl Database.onIncommingBar database id = bars.foldl addBar (database id) := by
  induction bars generalizing database with
  | nil => rfl
  | cons bar bars ih =>
    have own : bar.instrumentId = id := ofInstrument bar List.mem_cons_self
    rw [List.foldl_cons, ih fun other member => ofInstrument other (List.mem_cons_of_mem _ member),
      List.foldl_cons]
    rw [Database.onIncommingBar, own, Function.update_self]

theorem foldl_minutely (bars : List Kline) : Minutely (bars.foldl addBar []) := by
  induction bars using List.reverseRecOn with
  | nil => exact fun _ member => absurd member List.not_mem_nil
  | append_singleton bars bar ih =>
    rw [List.foldl_concat]
    exact addBar_minutely ih

/-- The data set is right after each bar of a feed just when each of them tells its minute. -/
theorem onIncommingBar_right_iff (feed : Feed id bars) :
    (∀ seen, seen <+: bars → Right (seen.foldl Database.onIncommingBar (fun _ => []) id) seen) ↔
      ∀ seen bar, seen ++ [bar] <+: bars → Tells seen bar := by
  have first : Right ([].foldl addBar []) [] := by
    rw [Right, minutes, List.map_nil, List.toFinset_nil, Finset.sort_empty, List.rtake_nil]
    exact .nil
  rw [← Runs.prefixes_iff (fun seen => Right (seen.foldl addBar []) seen) (fun _ _ => Feed.init)
    (fun seen bar feed right => ?_) first bars feed]
  · refine forall_congr' fun seen => forall_congr' fun inside => ?_
    rw [onIncommingBar_own fun bar member => feed.ofInstrument bar (inside.subset member)]
  · rw [List.foldl_concat]
    exact addBar_right_iff feed (foldl_minutely seen) right

/-- A bar at one price. -/
def barAt (startTime endTime : Int64) (price volume : ℚ) : Kline :=
  ⟨⟨"btcusdt", "binance", endTime, price⟩, startTime, price, price, price, volume⟩

theorem single_feed {bar : Kline} (within : WithinMinute bar) : Feed bar.instrumentId [bar] where
  ofInstrument other member := by rw [List.mem_singleton.mp member]
  ordered := List.pairwise_singleton _ _
  within other member := by rwa [List.mem_singleton.mp member]

/-- A bar of a whole minute becomes the K-line of the next one. -/
theorem whole_minute : ¬ ∀ (id : String) (bars : List Kline), Feed id bars →
    Right (bars.foldl Database.onIncommingBar (fun _ => []) id) bars := by
  intro right
  have within : WithinMinute (barAt 0 60000 100 1) := ⟨by decide, by decide, 1, by simp [barAt]⟩
  obtain ⟨minute, member, sums⟩ :=
    Window.forall₂_mem (right _ _ (single_feed within)) (ofBar (barAt 0 60000 100 1))
    (by rw [onIncommingBar_own (single_feed within).ofInstrument]; exact List.mem_singleton_self _)
  obtain ⟨bar, single, start⟩ := mem_minutes.mp (Window.mem_of_mem_rtake member)
  rw [List.mem_singleton.mp single] at start
  have next : (60000 : ℤ) = minute := sums.startTime
  rw [← next] at start
  exact absurd start (by decide)

/-- Two bars of a minute at its lowest price, the second up to a higher one, and one of the next
minute that ends a millisecond before it does. -/
def threeBars : List Kline :=
  [barAt 0 20000 100 1, { barAt 20000 60000 100 2 with high := 105 }, barAt 60000 119999 101 1]

theorem threeBars_feed : Feed "btcusdt" threeBars where
  ofInstrument bar member := by
    simp only [threeBars, List.mem_cons, List.not_mem_nil, or_false] at member
    rcases member with rfl | rfl | rfl <;> rfl
  ordered := by simp [threeBars, barAt]
  within bar member := by
    simp only [threeBars, List.mem_cons, List.not_mem_nil, or_false] at member
    rcases member with rfl | rfl | rfl
    · exact ⟨by decide, by decide, 1, by simp [barAt]⟩
    · exact ⟨by decide, by decide, 2, by simp [barAt]⟩
    · exact ⟨by decide, by decide, 1, by simp [barAt]⟩

/-- The second bar is merged into the first one's K-line. -/
theorem threeBars_right :
    (threeBars.foldl Database.onIncommingBar (fun _ => []) "btcusdt").length = 2 ∧
      Right (threeBars.foldl Database.onIncommingBar (fun _ => []) "btcusdt") threeBars := by
  refine ⟨by decide +kernel,
    (onIncommingBar_right_iff threeBars_feed).mpr (fun seen bar inside => ?_) _
      (List.prefix_refl _)⟩
  obtain ⟨rest, whole⟩ := inside
  simp only [threeBars, List.append_assoc, List.singleton_append] at whole
  match seen with
  | [] =>
    obtain ⟨rfl, -⟩ := List.cons.inj whole
    have none : ofMinute [] (minuteOf (barAt 0 20000 100 1)) = [] := rfl
    rw [Tells, if_pos none]
    exact ⟨by decide, by decide⟩
  | [_] =>
    simp only [List.singleton_append, List.cons.injEq] at whole
    obtain ⟨rfl, rfl, -⟩ := whole
    have one :
        ofMinute [barAt 0 20000 100 1] (minuteOf { barAt 20000 60000 100 2 with high := 105 }) =
        [barAt 0 20000 100 1] := rfl
    rw [Tells, one, if_neg (List.cons_ne_nil _ _)]
    simp [barAt]
  | [_, _] =>
    simp only [List.cons_append, List.nil_append, List.cons.injEq] at whole
    obtain ⟨rfl, rfl, rfl, -⟩ := whole
    have none : ofMinute [barAt 0 20000 100 1, { barAt 20000 60000 100 2 with high := 105 }]
        (minuteOf (barAt 60000 119999 101 1)) = [] := rfl
    rw [Tells, if_pos none]
    exact ⟨by decide, by decide⟩
  | _ :: _ :: _ :: _ => simp at whole

end Runs

end KLineSet
end BTrader
