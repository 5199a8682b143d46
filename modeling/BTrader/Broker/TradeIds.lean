import BTrader.Infra.Time
import BTrader.Broker.Cash

/-! When the ids of the trades are different and in range. -/
namespace BTrader
open Infra

/-- From the year 2000 to the year 2100, in nanoseconds of the system clock. -/
def InCentury (nanos : Int) : Prop :=
  946684800 * nanosecondsPerSecond ≤ nanos ∧ nanos < 4133980800 * nanosecondsPerSecond

instance (nanos : Int) : Decidable (InCentury nanos) := inferInstanceAs (Decidable (_ ∧ _))

/-- What the clock of some process reads in the century. -/
def ReadAt (unit : TimeUnit) (time : Int64) : Prop :=
  ∃ offset base instant, InCentury (instant + offset) ∧
    time = Int64.ofInt (nowTime unit (baseAt offset base) (clockAt instant))

theorem nowTime_century (unit : TimeUnit) (offset base : Int) {instant : Int}
    (inside : InCentury (instant + offset)) :
    946684800 * nanosecondsPerSecond / unit.tick ≤
      nowTime unit (baseAt offset base) (clockAt instant) ∧
      nowTime unit (baseAt offset base) (clockAt instant) ≤ 4133980800 * nanosecondsPerSecond /
        unit.tick := by
  obtain ⟨lower, upper⟩ := inside
  rw [nowTime_eq]
  cases unit <;> simp only [TimeUnit.tick, nanosecondsPerMillisecond,
    nanosecondsPerSecond] at lower upper ⊢ <;>
    split <;> omega

theorem ReadAt.bounds {unit : TimeUnit} {time : Int64} (read : ReadAt unit time) :
    946684800 * nanosecondsPerSecond / unit.tick ≤ time.toInt ∧
      time.toInt ≤ 4133980800 * nanosecondsPerSecond / unit.tick := by
  obtain ⟨offset, base, instant, inside, rfl⟩ := read
  have bounds := nowTime_century unit offset base inside
  have fits : IsInt64 (nowTime unit (baseAt offset base) (clockAt instant)) := by
    unfold IsInt64
    cases unit <;> simp only [TimeUnit.tick, nanosecondsPerMillisecond,
      nanosecondsPerSecond] at bounds <;> omega
  rw [Int64.toInt_ofInt_of_le fits.1 fits.2]
  exact bounds

/-- The id of a trade of that order at that time. -/
def tradeIdAt (time : Int64) (orderId : UInt64) : UInt64 :=
  (time * 1000000).toUInt64 + orderId % 1000000

/-- The computation of the id, in whole numbers. -/
def tradeIdSum (time : Int64) (orderId : UInt64) : Int :=
  time.toInt * 1000000 + (orderId % 1000000).toNat

theorem lastDigits (orderId : UInt64) : (orderId % 1000000).toNat < 1000000 := by
  rw [UInt64.toNat_mod]
  exact Nat.mod_lt _ (by decide)

variable {unit : TimeUnit} {time : Int64}

theorem tradeIdSum_fits_iff (read : ReadAt unit time) (orderId : UInt64) :
    IsInt64 (tradeIdSum time orderId) ↔ unit ≠ .nano := by
  have bounds := read.bounds
  have digits := lastDigits orderId
  unfold IsInt64 tradeIdSum
  cases unit <;> simp only [TimeUnit.tick, nanosecondsPerMillisecond,
    nanosecondsPerSecond] at bounds <;>
    simp only [ne_eq, reduceCtorEq, not_false_eq_true, not_true_eq_false, iff_true, iff_false]
      <;> omega

/-- In range, the id is the sum. -/
theorem tradeIdAt_toNat (read : ReadAt unit time) (coarse : unit ≠ .nano) (orderId : UInt64) :
    ((tradeIdAt time orderId).toNat : Int) = tradeIdSum time orderId := by
  have fits := (tradeIdSum_fits_iff read orderId).mpr coarse
  have digits := lastDigits orderId
  have positive : 0 ≤ time.toInt := by
    have bounds := read.bounds
    cases unit <;> simp only [TimeUnit.tick, nanosecondsPerMillisecond,
      nanosecondsPerSecond] at bounds <;> omega
  unfold IsInt64 tradeIdSum at fits
  have product : (time * 1000000).toInt = time.toInt * 1000000 := by
    rw [Int64.toInt_mul]
    change (time.toInt * 1000000).bmod (2 ^ 64) = _
    rw [Int.bmod_eq_of_le] <;> omega
  have whole : (time * 1000000).toUInt64.toNat = (time.toInt * 1000000).toNat := by
    rw [Int64.toNat_toUInt64_of_le, ← product]
    · rfl
    · rw [Int64.le_iff_toInt_le, product]
      change 0 ≤ _
      omega
  rw [tradeIdAt, tradeIdSum, UInt64.toNat_add, whole]
  omega

theorem tradeIdAt_eq_iff {time' : Int64} (read : ReadAt unit time) (read' : ReadAt unit time')
    (coarse : unit ≠ .nano)
    (id id' : UInt64) : tradeIdAt time id = tradeIdAt time' id' ↔ time = time' ∧
      id % 1000000 = id' % 1000000 := by
  constructor
  · intro same
    have sums : tradeIdSum time id = tradeIdSum time' id' := by
      rw [← tradeIdAt_toNat read coarse, ← tradeIdAt_toNat read' coarse, same]
    have digits := lastDigits id
    have digits' := lastDigits id'
    unfold tradeIdSum at sums
    constructor
    · apply Int64.toInt_inj.mp
      omega
    · apply UInt64.toNat_inj.mp
      omega
  · rintro ⟨rfl, digits⟩
    rw [tradeIdAt, tradeIdAt, digits]

/-- The trades by their ids. -/
structure TradeBook where
  trades : Std.TreeMap UInt64 Trade

namespace TradeBook

def empty : TradeBook := ⟨∅⟩

def set (book : TradeBook) (trade : Trade) : TradeBook :=
  ⟨book.trades.insert trade.tradeId (.put book.trades[trade.tradeId]? trade)⟩

def contains (book : TradeBook) (tradeId : UInt64) : Bool := book.trades.contains tradeId

def size (book : TradeBook) : Nat := book.trades.size

def setBatch (book : TradeBook) (trades : List Trade) : TradeBook := trades.foldl set book

theorem setBatch_contains (trades : List Trade) (tradeId : UInt64) :
    (empty.setBatch trades).contains tradeId = true ↔ tradeId ∈ trades.map Trade.tradeId := by
  induction trades using List.reverseRecOn with
  | nil => simp [setBatch, empty, contains]
  | append_singleton trades trade ih =>
    have last : empty.setBatch (trades ++ [trade]) = (empty.setBatch trades).set trade := by
      simp [setBatch, List.foldl_append]
    rw [last, List.map_append, List.mem_append, ← ih]
    simp only [contains, set, Std.TreeMap.contains_insert, Bool.or_eq_true, beq_iff_eq,
      Std.compare_eq_iff_eq, List.map_singleton, List.mem_singleton]
    exact or_comm.trans (or_congr_right eq_comm)

/-- The book keeps all trades just when their ids are different. -/
theorem setBatch_size (trades : List Trade) :
    (empty.setBatch trades).size ≤ trades.length ∧
      ((empty.setBatch trades).size = trades.length ↔ (trades.map Trade.tradeId).Nodup) := by
  induction trades using List.reverseRecOn with
  | nil => simp [setBatch, empty, size]
  | append_singleton trades trade ih =>
    have last : empty.setBatch (trades ++ [trade]) = (empty.setBatch trades).set trade := by
      simp [setBatch, List.foldl_append]
    have known := setBatch_contains trades trade.tradeId
    have grown : (empty.setBatch (trades ++ [trade])).size =
        if (empty.setBatch trades).contains trade.tradeId then (empty.setBatch trades).size
        else (empty.setBatch trades).size + 1 := by
      rw [last]
      exact Std.TreeMap.size_insert
    rw [grown, List.length_append, List.length_singleton, List.map_append, List.map_singleton,
      List.nodup_append_comm, List.singleton_append, List.nodup_cons, ← known]
    by_cases twice : (empty.setBatch trades).contains trade.tradeId = true
    · rw [if_pos twice]
      simp only [twice, not_true_eq_false, false_and, iff_false]
      omega
    · rw [if_neg twice, and_iff_right twice, ← ih.2]
      omega

end TradeBook

namespace BrokerSim

/-- The time and the order that the id of the trade of a turn is made of. -/
def source (b : BrokerSim) : Action → Option (Int64 × UInt64)
  | .turn readings key =>
    (b.made (.turn readings key)).map fun filled => ((readings key).idTime, filled.1.orderId)
  | _ => none

end BrokerSim

namespace Session
open BrokerSim

/-- What the ids of the trades of a run are made of. -/
def sources (s : Session) (events : List Event) : List (Int64 × UInt64) :=
  (s.moves events).filterMap fun move => move.1.broker.source move.2

theorem act_tradeIds {s : Session} (traced : s.Traced) (action : Action) :
    (s.act action).broker.trades.map Trade.tradeId = s.broker.trades.map Trade.tradeId ++
      ((s.broker.source action).map fun source => tradeIdAt source.1 source.2).toList := by
  cases made : s.broker.made action with
  | none =>
    rw [(act_unmade traced made).2.1]
    cases action with
    | insert input => simp [source]
    | cancel input now => simp [source]
    | turn readings key => simp [source, made]
  | some filled =>
    obtain ⟨order, trade⟩ := filled
    rw [(act_asset made).1]
    obtain ⟨readings, key, rfl, _⟩ := act_made made
    obtain ⟨volume, _, _, _, rfl⟩ := made_turn made
    simp [source, made, tradeOf, generateSummaryTrade, tradeIdAt]

/-- The ids of the trades of a run are those of its sources. -/
theorem run_tradeIds {b : BrokerSim} (noOrders : b.activeOrders.size = 0) (none : b.trades = [])
    (events : List Event) :
    ((actions ⟨b, []⟩ events).foldl act ⟨b, []⟩).broker.trades.map Trade.tradeId =
      (sources ⟨b, []⟩ events).map fun source => tradeIdAt source.1 source.2 := by
  have kept (s : Session) (action : Action) (traced : s.Traced) : (s.act action).Traced :=
    act_traced traced action
  let ids (s : Session) := s.broker.trades.map Trade.tradeId
  let id (s : Session) (action : Action) :=
    (s.broker.source action).map fun source => tradeIdAt source.1 source.2
  have adds (s : Session) (action : Action) (traced : s.Traced) :
      ids (s.act action) = ids s ++ (id s action).toList :=
    act_tradeIds traced action
  have out := Runs.outputs kept adds (traced_start noOrders) (actions ⟨b, []⟩ events)
  change ids _ = _
  rw [out, sources, List.map_filterMap]
  simp only [ids, none, List.map_nil, List.nil_append]
  rfl

/-- In the century the ids of all trades are different and in range, and a book by ids keeps
them all, if and only if the unit is not the nanosecond or nothing is traded, and no two
trades of one time are of orders with the same last six digits. -/
theorem trade_ids_iff (unit : TimeUnit) (cfg : SimulationCfg) (now : Int64) (events : List Event)
    (clock : ∀ source ∈ sources ⟨(make now).setup cfg, []⟩ events, ReadAt unit source.1) :
    ((((actions ⟨(make now).setup cfg, []⟩ events).foldl act ⟨(make now).setup cfg,
      []⟩).broker.trades.map
          Trade.tradeId).Nodup ∧
      (TradeBook.empty.setBatch
          ((actions ⟨(make now).setup cfg, []⟩ events).foldl act ⟨(make now).setup cfg,
            []⟩).broker.trades).size =
        ((actions ⟨(make now).setup cfg, []⟩ events).foldl act ⟨(make now).setup cfg,
          []⟩).broker.trades.length ∧
      ∀ source ∈ sources ⟨(make now).setup cfg, []⟩ events,
        IsInt64 (tradeIdSum source.1 source.2)) ↔
    (unit ≠ .nano ∨ sources ⟨(make now).setup cfg, []⟩ events = []) ∧
      (sources ⟨(make now).setup cfg, []⟩ events).Pairwise fun earlier later =>
        ¬ (earlier.1 = later.1 ∧ earlier.2 % 1000000 = later.2 % 1000000) := by
  rw [(TradeBook.setBatch_size _).2, ← and_assoc, and_self, run_tradeIds rfl rfl, and_comm]
  have range :
      (∀ source ∈ sources ⟨(make now).setup cfg, []⟩ events,
      IsInt64 (tradeIdSum source.1 source.2)) ↔
      unit ≠ .nano ∨ sources ⟨(make now).setup cfg, []⟩ events = [] := by
    constructor
    · intro fits
      cases same : sources ⟨(make now).setup cfg, []⟩ events with
      | nil => exact .inr rfl
      | cons first rest =>
        have member : first ∈ sources ⟨(make now).setup cfg, []⟩ events := by
          rw [same]
          exact List.mem_cons_self
        exact .inl ((tradeIdSum_fits_iff (clock first member) _).mp (fits first member))
    · rintro (coarse | none)
      · exact fun source member => (tradeIdSum_fits_iff (clock source member) _).mpr coarse
      · simp [none]
  rw [range]
  apply and_congr_right
  rintro (coarse | none)
  · rw [List.Nodup, List.pairwise_map]
    apply List.Pairwise.iff_of_mem
    intro earlier later member member'
    exact not_congr (tradeIdAt_eq_iff (clock earlier member) (clock later member') coarse _ _)
  · simp [none]

/-- Two market sells of one unit, and a round without depth at that time. -/
def twoSells (orderId₁ orderId₂ : UInt64) (time : Int64) : List Event :=
  [.insert (marketOrder orderId₁ .sell .open_ 1), .insert (marketOrder orderId₂ .sell .open_ 1),
    .round fun _ => { Reading.noDepth with idTime := time }]

/-- Read at 1.7 billion seconds. -/
theorem read_milli : ReadAt .milli 1700000000000 :=
  ⟨0, 0, 1700000000 * nanosecondsPerSecond, by decide +kernel, by decide +kernel⟩

theorem read_nano : ReadAt .nano 1700000000000000000 :=
  ⟨0, 0, 1700000000 * nanosecondsPerSecond, by decide +kernel, by decide +kernel⟩

theorem trade_ids_iff_two :
    ((((actions ⟨(make 0).setup defaults, []⟩ (twoSells 7 8 1700000000000)).foldl act
          ⟨(make 0).setup defaults, []⟩).broker.trades.map Trade.tradeId).Nodup ∧
      (TradeBook.empty.setBatch
          ((actions ⟨(make 0).setup defaults, []⟩ (twoSells 7 8 1700000000000)).foldl act
            ⟨(make 0).setup defaults, []⟩).broker.trades).size =
        ((actions ⟨(make 0).setup defaults, []⟩ (twoSells 7 8 1700000000000)).foldl act
          ⟨(make 0).setup defaults, []⟩).broker.trades.length ∧
      ∀ source ∈ sources ⟨(make 0).setup defaults, []⟩ (twoSells 7 8 1700000000000),
        IsInt64 (tradeIdSum source.1 source.2)) ↔
    (TimeUnit.milli ≠ .nano ∨
      sources ⟨(make 0).setup defaults, []⟩ (twoSells 7 8 1700000000000) = []) ∧
      (sources ⟨(make 0).setup defaults, []⟩ (twoSells 7 8 1700000000000)).Pairwise
        fun earlier later =>
        ¬ (earlier.1 = later.1 ∧ earlier.2 % 1000000 = later.2 % 1000000) := by
  refine trade_ids_iff .milli defaults 0 _ fun source member => ?_
  have told : (sources ⟨(make 0).setup defaults, []⟩ (twoSells 7 8 1700000000000)).map Prod.fst =
      [1700000000000, 1700000000000] := by
    decide +kernel
  have time : source.1 ∈ [(1700000000000 : Int64), 1700000000000] := by
    rw [← told]
    exact List.mem_map_of_mem member
  have same : source.1 = 1700000000000 := by simpa using time
  rw [same]
  exact read_milli

/-- Orders 7 and 1000007 that are filled in one millisecond get trades of one id, and in
nanoseconds the computation of an id overflows. -/
theorem trade_ids_clash :
    (ReadAt .milli 1700000000000 ∧
      ¬ (((actions ⟨(make 0).setup defaults, []⟩ (twoSells 7 1000007 1700000000000)).foldl act
        ⟨(make 0).setup defaults, []⟩).broker.trades.map Trade.tradeId).Nodup) ∧
    ReadAt .nano 1700000000000000000 ∧
      ¬ ∀ source ∈ sources ⟨(make 0).setup defaults, []⟩ (twoSells 7 8 1700000000000000000),
        IsInt64 (tradeIdSum source.1 source.2) := by
  refine ⟨⟨read_milli, by decide +kernel⟩, read_nano, fun fits => ?_⟩
  have first : (1700000000000000000, 7) ∈
      sources ⟨(make 0).setup defaults, []⟩ (twoSells 7 8 1700000000000000000) := by
    decide +kernel
  have range := fits _ first
  exact (tradeIdSum_fits_iff read_nano 7).mp range rfl

end Session
end BTrader
