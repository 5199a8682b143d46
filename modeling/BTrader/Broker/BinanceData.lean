import BTrader.Infra.Json
import BTrader.Core.Equity
import BTrader.Broker.BrokerSim
import BTrader.Extension.DepthCallBoard

/-! What `BinanceData` publishes of the messages of the exchange, and the way of a quote to the
matcher. The ids are the strings in their arrays, which are taken to have the room. -/
namespace BTrader
open Infra

/-- A bar as it is published. -/
structure Kline extends Bar where
  startTime : Int64
  open_ : ℚ
  high : ℚ
  low : ℚ
  volume : ℚ

structure Quote extends InstrumentDepth where
  instrumentId : String
  exchangeId : String

inductive MDType where
  | unknown | kline | depth | trade
  deriving DecidableEq

namespace BinanceData

/-- What is copied from `c_str()`. -/
def cStr (s : String) : String := .ofList (s.toList.takeWhile (· ≠ Char.ofNat 0))

/-- `stream.substr(0, stream.find('@'))` -/
def streamSymbol (stream : String) : String := .ofList (stream.toList.takeWhile (· ≠ '@'))

/-- `find` finds the name. -/
def finds (s name : String) : Bool := name.toList <:+: s.toList

def getMdtype (data : Json) : MDType :=
  match data.index "stream" with
  | .ok (.string streamName) =>
    if finds streamName "kline" then .kline
    else if finds streamName "depth" then .depth
    else .unknown
  | _ => .unknown

/-- One side of a quote while it is filled. -/
structure Levels where
  idx : Nat
  price : Fin 20 → ℚ
  volume : Fin 20 → ℚ

namespace Levels

def empty : Levels := ⟨0, fun _ => 0, fun _ => 0⟩

def push (levels : Levels) (bound : levels.idx < 20) (price volume : ℚ) : Levels where
  idx := levels.idx + 1
  price := Function.update levels.price ⟨levels.idx, bound⟩ price
  volume := Function.update levels.volume ⟨levels.idx, bound⟩ volume

end Levels

section
variable (stod : String → Option ℚ)

def safeStringToDouble (str : String) : ℚ := if str = "" then 0 else (stod str).getD 0

/-- `safe_string_to_double(json[key].get<std::string>())` -/
def numberAt (json : Json) (key : String) : Except JsonFault ℚ := do
  return safeStringToDouble stod (← (← json.index key).getString)

/-- The assignments to the members of the bar. -/
def barOf (data klineJson : Json) : Except JsonFault Kline := do
  let instrumentId ← (← (← data.index "data").index "s").getString
  return {
    instrumentId := cStr instrumentId
    exchangeId := "binance"
    startTime := ← (← klineJson.index "t").getInt64
    endTime := ← (← klineJson.index "T").getInt64
    open_ := ← numberAt stod klineJson "o"
    close := ← numberAt stod klineJson "c"
    high := ← numberAt stod klineJson "h"
    low := ← numberAt stod klineJson "l"
    volume := ← numberAt stod klineJson "v" }

/-- Nothing is published when a bar is not closed. -/
def klineOf (data : Json) : Except JsonFault (Option Kline) := do
  if !data.contains "data" then return none
  if !(← data.index "data").contains "k" then return none
  let klineJson ← (← data.index "data").index "k"
  if !klineJson.contains "x" then return none
  if !(← (← klineJson.index "x").getBool) then return none
  return some (← barOf stod data klineJson)

/-- The loop over the entries of one side. -/
def fillLevels : List Json → Levels → Except JsonFault Levels
  | [], levels => .ok levels
  | item :: items, levels =>
    if bound : levels.idx < 20 then
      match item with
      | .array (first :: second :: _) => do
        let price := safeStringToDouble stod (← first.getString)
        let volume := safeStringToDouble stod (← second.getString)
        fillLevels items (levels.push bound price volume)
      | _ => fillLevels items levels
    else .ok levels

def quoteOf (data : Json) : Except JsonFault (Option Quote) := do
  if !data.contains "data" then return none
  if !(← data.index "data").contains "bids" || !(← data.index "data").contains "asks" then
    return none
  let stream ← (← data.index "stream").getString
  let bids ← fillLevels stod (← (← data.index "data").index "bids").items .empty
  let asks ← fillLevels stod (← (← data.index "data").index "asks").items .empty
  return some {
    instrumentId := cStr (streamSymbol stream)
    exchangeId := "binance"
    realDepthSize := .ofNat bids.idx
    bidPrice := bids.price
    bidVolume := bids.volume
    askPrice := asks.price
    askVolume := asks.volume }

/-- An exception is caught, and nothing is published. -/
def guarded {α : Type} (run : Except JsonFault (Option α)) : Except JsonFault (Option α) :=
  if run matches .error .typeError then .ok none else run

def processKlineData (data : Json) : Except JsonFault (Option Kline) := guarded (klineOf stod data)

def processDepthData (data : Json) : Except JsonFault (Option Quote) := guarded (quoteOf stod data)

inductive Published where
  | bar (bar : Kline)
  | quote (quote : Quote)

/-- The message as it was parsed, none when this failed. -/
def onMsg (enableKline enableDepth : Bool) (message : Option Json) :
    Except JsonFault (Option Published) :=
  match message with
  | none => .ok none
  | some data =>
    if !(data.contains "stream" && data.contains "data") then .ok none
    else
      match getMdtype data with
      | .kline => if enableKline then (·.map Published.bar) <$> processKlineData stod data
          else .ok none
      | .depth => if enableDepth then (·.map Published.quote) <$> processDepthData stod data
          else .ok none
      | _ => .ok none

/-- The members of a level that is well formed. -/
def levelOf : Json → Option (ℚ × ℚ)
  | .array (.string price :: .string volume :: _) =>
    some (safeStringToDouble stod price, safeStringToDouble stod volume)
  | _ => none

end

/-- An array of two elements or more begins with two strings. -/
def Wellformed : Json → Prop
  | .array (first :: second :: _) => (∃ price, first = .string price) ∧
      ∃ volume, second = .string volume
  | _ => True

namespace Levels

def list (levels : Levels) : List (ℚ × ℚ) := List.ofFn fun i => (levels.price i, levels.volume i)

/-- The levels so far, and zeros behind them. -/
def Holds (levels : Levels) (done : List (ℚ × ℚ)) : Prop :=
  done.length = levels.idx ∧ levels.idx ≤ 20 ∧
    levels.list = done ++ List.replicate (20 - levels.idx) (0, 0)

theorem ofFn_update {α : Type} {n : Nat} (f : Fin n → α) (k : Fin n) (x : α) :
    List.ofFn (Function.update f k x) = (List.ofFn f).set k x := by
  rw [List.ofFn_eq_map, List.ofFn_eq_map, (List.nodup_finRange n).map_update,
    if_pos (List.mem_finRange k), List.idxOf_finRange]

theorem holds_empty : empty.Holds [] := ⟨rfl, by decide, by decide⟩

theorem holds_push {levels : Levels} {done : List (ℚ × ℚ)} (holds : levels.Holds done)
    (bound : levels.idx < 20)
    (price volume : ℚ) : (levels.push bound price volume).Holds (done ++ [(price, volume)]) := by
  obtain ⟨length, _, filled⟩ := holds
  have stored :
      (levels.push bound price volume).list = levels.list.set levels.idx (price, volume) := by
    have entries :
        (fun i =>
        ((levels.push bound price volume).price i, (levels.push bound price volume).volume i)) =
        Function.update (fun i => (levels.price i, levels.volume i)) ⟨levels.idx, bound⟩
          (price, volume) := by
      funext i
      by_cases here : i = ⟨levels.idx, bound⟩
      · subst here
        simp only [push, Function.update_self]
      · simp only [push, Function.update_of_ne here]
    rw [list, entries, ofFn_update, list]
  have rest : List.replicate (20 - levels.idx) ((0, 0) : ℚ × ℚ) =
      (0, 0) :: List.replicate (20 - (levels.idx + 1)) (0, 0) := by
    rw [← List.replicate_succ]
    congr 1
    omega
  refine ⟨by simp [length, push], bound, ?_⟩
  rw [stored, filled, rest, List.set_append, if_neg (by omega), length, Nat.sub_self,
    List.set_cons_zero, List.append_assoc]
  rfl

end Levels

section
variable {stod : String → Option ℚ}

/-- An entry that is no level is passed over. -/
theorem fillLevels_skip {item : Json} (wellformed : Wellformed item)
    (none : levelOf stod item = none) (items : List Json)
    {levels : Levels} (bound : levels.idx < 20) :
      fillLevels stod (item :: items) levels = fillLevels stod items levels := by
  rw [fillLevels, dif_pos bound]
  split
  · obtain ⟨⟨price, rfl⟩, volume, rfl⟩ := wellformed
    cases none
  · rfl

theorem fillLevels_level {item : Json} {level : ℚ × ℚ} (entry : levelOf stod item = some level)
    (items : List Json) {levels : Levels} (bound : levels.idx < 20) :
    fillLevels stod (item :: items) levels =
      fillLevels stod items (levels.push bound level.1 level.2) := by
  rw [fillLevels, dif_pos bound]
  unfold levelOf at entry
  split at entry
  · cases entry
    rfl
  · cases entry

/-- The loop puts the first twenty levels in their order, and leaves zeros behind them. -/
theorem fillLevels_spec {items : List Json} (wellformed : ∀ item ∈ items, Wellformed item)
    {levels : Levels} {done : List (ℚ × ℚ)} (holds : levels.Holds done) :
    ∃ filled, fillLevels stod items levels = .ok filled ∧
      filled.Holds ((done ++ items.filterMap (levelOf stod)).take 20) := by
  induction items generalizing levels done with
  | nil =>
    have all : (done ++ [].filterMap (levelOf stod)).take 20 = done := by
      rw [List.filterMap_nil, List.append_nil,
        List.take_of_length_le (by rw [holds.1]; exact holds.2.1)]
    exact ⟨levels, rfl, all.symm ▸ holds⟩
  | cons item items ih =>
    have rest := fun item member => wellformed item (List.mem_cons_of_mem _ member)
    have first := wellformed item List.mem_cons_self
    by_cases bound : levels.idx < 20
    · cases entry : levelOf stod item with
      | none =>
        obtain ⟨filled, ran, filledHolds⟩ := ih rest holds
        rw [fillLevels_skip first entry items bound, List.filterMap_cons_none entry]
        exact ⟨filled, ran, filledHolds⟩
      | some level =>
        obtain ⟨filled, ran, filledHolds⟩ := ih rest (Levels.holds_push holds bound level.1 level.2)
        rw [List.append_assoc, List.singleton_append] at filledHolds
        rw [fillLevels_level entry items bound, List.filterMap_cons_some entry]
        exact ⟨filled, ran, filledHolds⟩
    · have full : (done ++ (item :: items).filterMap (levelOf stod)).take 20 = done := by
        have length : done.length = 20 := by
          have most := holds.2.1
          rw [holds.1]
          omega
        rw [← length, List.take_left']
        rfl
      refine ⟨levels, ?_, full.symm ▸ holds⟩
      rw [fillLevels, dif_neg bound]

/-- A message of the depth of a market. -/
def IsDepth (message : Json) (stream : String) (bids asks : List Json) : Prop :=
  message.index "stream" = .ok (.string stream) ∧ ∃ data, message.index "data" = .ok data ∧
    data.index "bids" = .ok (.array bids) ∧ data.index "asks" = .ok (.array asks)

theorem processDepthData_spec {message : Json} {stream : String} {bids asks : List Json}
    (isDepth : IsDepth message stream bids asks) (wellBids : ∀ item ∈ bids, Wellformed item)
    (wellAsks : ∀ item ∈ asks, Wellformed item) :
    ∃ bidLevels askLevels : Levels, bidLevels.Holds ((bids.filterMap (levelOf stod)).take 20) ∧
      askLevels.Holds ((asks.filterMap (levelOf stod)).take 20) ∧
      processDepthData stod message = .ok (some {
        instrumentId := cStr (streamSymbol stream), exchangeId := "binance",
        realDepthSize := .ofNat bidLevels.idx,
        bidPrice := bidLevels.price, bidVolume := bidLevels.volume, askPrice := askLevels.price,
        askVolume := askLevels.volume }) := by
  obtain ⟨streamed, data, hasData, hasBids, hasAsks⟩ := isDepth
  obtain ⟨bidLevels, bidsRan, bidsHold⟩ := @fillLevels_spec stod _ wellBids _ _ Levels.holds_empty
  obtain ⟨askLevels, asksRan, asksHold⟩ := @fillLevels_spec stod _ wellAsks _ _ Levels.holds_empty
  refine ⟨bidLevels, askLevels, by simpa using bidsHold, by simpa using asksHold, ?_⟩
  have ran : quoteOf stod message = .ok (some {
      instrumentId := cStr (streamSymbol stream), exchangeId := "binance",
      realDepthSize := .ofNat bidLevels.idx,
      bidPrice := bidLevels.price, bidVolume := bidLevels.volume, askPrice := askLevels.price,
      askVolume := askLevels.volume }) := by
    simp only [quoteOf, Json.contains_of_index hasData, hasData, Json.contains_of_index hasBids,
      Json.contains_of_index hasAsks,
      hasBids, hasAsks, streamed, bind, Except.bind, pure, Except.pure, Json.getString, Json.items,
        bidsRan, asksRan]
    rfl
  rw [processDepthData, ran]
  rfl

end

/-! The way of a quote to the matcher. -/

open RecordStores (Record DepthString)

/-- The array a string is assigned to when it is new. -/
def array (N : Nat) (s : String) : CharArray N := (CharArray.zero N).assign s.toUTF8.toList

/-- What `LiveSubscriber::on_quote` makes of a quote. -/
def depthOf (quote : Quote) : Record DepthString.size InstrumentDepth where
  strings
    | .instrumentId => array 32 quote.instrumentId
    | .exchangeId => array 16 quote.exchangeId
  rest := { quote.toInstrumentDepth with realDepthSize := 20 }

variable (sizeof : Nat)

def onQuote (isSimulation : Bool) (board : Extension.DepthCallBoard)
    (mapping : Extension.Mapping InstrumentDepth) (quote : Quote) :
    Extension.DepthCallBoard × Extension.Mapping InstrumentDepth :=
  if isSimulation then board.set sizeof mapping (array 32 quote.instrumentId) (depthOf quote)
  else (board, mapping)

/-- `InstrumentDepth<20>` as it is constructed. -/
def noDepth : Record DepthString.size InstrumentDepth :=
  .fresh ⟨0, fun _ => 0, fun _ => 0, fun _ => 0, fun _ => 0⟩

/-- The depth the matcher has when it gets one from the board. -/
def marketDepth [NeZero sizeof] (board : Extension.DepthCallBoard)
    (mapping : Extension.Mapping InstrumentDepth) (instrumentId : CharArray 32) : InstrumentDepth :=
  ((board.get sizeof mapping instrumentId noDepth).1.getD noDepth).rest

/-- The board gives that record for the instrument. -/
def Gives [NeZero sizeof] (board : Extension.DepthCallBoard)
    (mapping : Extension.Mapping InstrumentDepth)
    (instrumentId : CharArray 32) (input : Record DepthString.size InstrumentDepth) : Prop :=
  ∃ e, (board.get sizeof mapping instrumentId noDepth).1 = some e ∧ e.Returns input

/-- `get` of the one board returns what the other has set last for the instrument, whatever it is.
-/
def GivesLast [NeZero sizeof] (writer reader : Extension.DepthCallBoard)
    (mapping : Extension.Mapping InstrumentDepth) (instrumentId : CharArray 32) : Prop :=
  ∀ input : Record DepthString.size InstrumentDepth, (input.strings .instrumentId).chars =
    instrumentId.chars →
    Gives sizeof reader (writer.set sizeof mapping instrumentId input).2 instrumentId input

variable {sizeof} in
theorem Gives.marketDepth [NeZero sizeof] {board : Extension.DepthCallBoard}
    {mapping : Extension.Mapping InstrumentDepth}
    {instrumentId : CharArray 32} {input : Record DepthString.size InstrumentDepth}
    (gives : Gives sizeof board mapping instrumentId input) :
    BinanceData.marketDepth sizeof board mapping instrumentId = input.rest := by
  obtain ⟨e, got, same, _⟩ := gives
  rw [BinanceData.marketDepth, got, Option.getD_some, same]

/-- The zeros behind the levels are no valid levels. -/
theorem Levels.Holds.filter {levels : Levels} {done : List (ℚ × ℚ)} (holds : levels.Holds done) :
    levels.list.filter BrokerSim.validLevel = done.filter BrokerSim.validLevel := by
  have padding :
      (List.replicate (20 - levels.idx) ((0, 0) : ℚ × ℚ)).filter BrokerSim.validLevel = [] := by
    rw [List.filter_replicate, if_neg (by decide +kernel)]
  rw [holds.2.2, List.filter_append, padding, List.append_nil]

theorem buildPriceLevels_all (depth : InstrumentDepth) (side : Side)
    (all : depth.realDepthSize = 20) :
    BrokerSim.buildPriceLevels depth side =
      (List.ofFn fun i => if side = .buy then (depth.askPrice i, depth.askVolume i)
        else (depth.bidPrice i, depth.bidVolume i)).filter BrokerSim.validLevel := by
  have every : (List.finRange 20).filter (fun i => i.val < depth.realDepthSize.toNat) =
      List.finRange 20 := by
    rw [all]
    exact List.filter_eq_self.mpr fun i _ => by simp
  rw [BrokerSim.buildPriceLevels, every, List.ofFn_eq_map]

/-- With the simulation on, a quote is what the board gives for its instrument. -/
theorem onQuote_gives [NeZero sizeof] {writer reader : Extension.DepthCallBoard}
    {mapping : Extension.Mapping InstrumentDepth} {quote : Quote}
    (last : GivesLast sizeof writer reader mapping (array 32 quote.instrumentId)) :
    Gives sizeof reader (onQuote sizeof true writer mapping quote).2 (array 32 quote.instrumentId)
      (depthOf quote) :=
  last (depthOf quote) rfl

/-- The levels the matcher sees are the first twenty well-formed entries of its side that have a
price and a volume. -/
theorem depth_intact (stod : String → Option ℚ) [NeZero sizeof] {message : Json} {stream : String}
    {bids asks : List Json}
    (isDepth : IsDepth message stream bids asks) (wellBids : ∀ item ∈ bids, Wellformed item)
    (wellAsks : ∀ item ∈ asks, Wellformed item) :
    ∃ quote, processDepthData stod message = .ok (some quote) ∧
      ∀ (writer reader : Extension.DepthCallBoard) (mapping : Extension.Mapping InstrumentDepth),
        GivesLast sizeof writer reader mapping (array 32 quote.instrumentId) →
        ∀ side, BrokerSim.buildPriceLevels
            (marketDepth sizeof reader (onQuote sizeof true writer mapping quote).2
              (array 32 quote.instrumentId)) side =
          (((if side = .buy then asks else bids).filterMap (levelOf stod)).take 20).filter
            BrokerSim.validLevel := by
  obtain ⟨bidLevels, askLevels, bidsHold, asksHold, ran⟩ :=
    @processDepthData_spec stod _ _ _ _ isDepth wellBids wellAsks
  refine ⟨_, ran, fun writer reader mapping last side => ?_⟩
  rw [(onQuote_gives sizeof last).marketDepth, buildPriceLevels_all _ _ rfl]
  by_cases buy : side = .buy
  · simp only [buy, if_true]
    exact asksHold.filter
  · simp only [buy, if_false]
    exact bidsHold.filter

/-- A mapping that has just been cleared, with room for one record. -/
def cleared : Extension.Mapping InstrumentDepth := ⟨1000, 16, 16, 696, fun _ => noDepth⟩

/-- The two boards that have initialised it. -/
def writerBoard : Extension.DepthCallBoard := ⟨true, true, fun _ => none⟩
def readerBoard : Extension.DepthCallBoard := ⟨false, true, fun _ => none⟩

theorem cleared_givesLast (instrumentId : CharArray 32) :
    GivesLast 696 writerBoard readerBoard cleared instrumentId := by
  intro input own
  have set : (writerBoard.set 696 cleared instrumentId input).2 =
      Extension.DepthCallBoard.store { cleared with usedLength := cleared.usedLength + 696 }
        cleared.usedLength input := rfl
  rw [Gives, set]
  generalize same :
    Extension.DepthCallBoard.store { cleared with usedLength := cleared.usedLength + 696 }
    cleared.usedLength input = after
  have first : after.headerLength = cleared.usedLength := by
    rw [← same]
    rfl
  have record : after.records after.headerLength = noDepth.assign input := by
    rw [first, ← same]
    exact Extension.DepthCallBoard.store_self ..
  have inside : after.headerLength + 696 ≤ after.usedLength := by
    rw [← same]
    exact Nat.le_refl 712
  have here :
      hash32 instrumentId.chars =
      hash32 ((after.records after.headerLength).strings .instrumentId).chars := by
    rw [record, noDepth, Record.fresh_assign_chars, own]
  have found :
      Extension.DepthCallBoard.scan 696 after (hash32 instrumentId.chars) after.headerLength =
      some after.headerLength := by
    rw [Extension.DepthCallBoard.scan, if_pos inside, if_pos here]
  refine ⟨_, Extension.DepthCallBoard.get_scan rfl found noDepth, ?_⟩
  rw [record]
  exact Record.fresh_assign_returns ..

/-- One bid, no ask, and something that is no entry. -/
def oneBid : Json :=
  .object [("stream", .string "btcusdt@depth20"),
    ("data", .object [("bids", .array [.null, .array [.string "10.5", .string "3"]]),
      ("asks", .array [])])]

def oneBidStod (s : String) : Option ℚ :=
  if s = "10.5" then some (21 / 2) else if s = "3" then some 3 else none

theorem depth_intact_bid :
    ∃ quote, processDepthData oneBidStod oneBid = .ok (some quote) ∧ ∀ side,
      BrokerSim.buildPriceLevels
          (marketDepth 696 readerBoard (onQuote 696 true writerBoard cleared quote).2
            (array 32 quote.instrumentId)) side =
        (((if side = .buy then [] else [.null, .array [.string "10.5", .string "3"]]).filterMap
          (levelOf oneBidStod)).take 20).filter BrokerSim.validLevel := by
  obtain ⟨quote, ran, levels⟩ :=
    depth_intact 696 oneBidStod (⟨rfl, _, rfl, rfl, rfl⟩ : IsDepth oneBid _ _ _)
    (by simp [Wellformed]) (by simp)
  exact ⟨quote, ran, levels _ _ cleared (cleared_givesLast _)⟩

end BinanceData
end BTrader
