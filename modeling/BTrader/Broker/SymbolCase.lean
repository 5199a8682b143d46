import BTrader.Broker.BinanceData

/-! The ids that bars and quotes of one symbol carry, and what is looked up with them. -/
namespace BTrader.BinanceData
open Infra PositionBook

/-- A name that an id's array holds and a stream's name can begin with. -/
structure Symbol where
  name : String
  short : name.utf8ByteSize < 32
  plain : Char.ofNat 0 ∉ name.toList
  noMark : '@' ∉ name.toList

/-- A kline message for the symbol, its stream in lower and its `s` in upper case. -/
def IsKline (symbol : Symbol) (message : Json) : Prop :=
  (∃ kind, message.index "stream" = .ok (.string (symbol.name.toLower ++ "@kline_" ++ kind))) ∧
    ∃ data, message.index "data" = .ok data ∧ data.index "s" = .ok (.string symbol.name.toUpper)

def IsSymbolDepth (symbol : Symbol) (message : Json) : Prop :=
  ∃ kind, message.index "stream" = .ok (.string (symbol.name.toLower ++ "@depth" ++ kind))

/-- The ids are equal, and with the id of either one a look-up in the board finds the depth of the
quote, and the bar finds the position that a trade opened. -/
structure Meet (bar : Kline) (quote : Quote) : Prop where
  instrument : bar.instrumentId = quote.instrumentId
  exchange : bar.exchangeId = quote.exchangeId
  depth : ∀ id, id = bar.instrumentId ∨ id = quote.instrumentId →
    ∀ (board : RecordStores.DepthCallBoard InstrumentDepth) output, board.isWriting →
      ∃ e, ((board.set (array 32 quote.instrumentId) (depthOf quote)).get (array 32 id) output).1 =
        some e ∧
        e.rest = (depthOf quote).rest
  position : ∀ (book : Book) (trade : Trade) direction,
    trade.instrumentId = bar.instrumentId ∨ trade.instrumentId = quote.instrumentId →
      trade.exchangeId = quote.exchangeId →
    trade.offset = .open_ → positionDirection trade = some direction →
      ∃ position, (book.update trade).positions.get bar.instrumentId bar.exchangeId direction =
        some position ∧
        position.updateTime = trade.tradeTime

theorem case_of_not_isAlpha {c : Char} (noLetter : ¬ c.isAlpha) :
    c.toLower = c ∧ c.toUpper = c := by
  rw [Char.isAlpha, Bool.or_eq_true, not_or] at noLetter
  exact ⟨Char.toLower_eq_of_not_isUpper noLetter.1, Char.toUpper_eq_of_not_isLower noLetter.2⟩

/-- Only a letter has two cases. -/
theorem toLower_eq_toUpper_iff (c : Char) : c.toLower = c.toUpper ↔ ¬ c.isAlpha := by
  constructor
  · intro same letter
    have upper : c.toUpper.isUpper = true := (Char.isUpper_toUpper_eq_isAlpha c).trans letter
    rw [← same, Char.isUpper_toLower_eq_false] at upper
    cases upper
  · intro noLetter
    obtain ⟨lower, upper⟩ := case_of_not_isAlpha noLetter
    rw [lower, upper]

/-- What is no letter comes of itself alone. -/
theorem toLower_eq_iff {c d : Char} (other : ¬ d.isAlpha) : c.toLower = d ↔ c = d := by
  constructor
  · intro same
    rw [← same, Char.isAlpha_toLower_eq_isAlpha] at other
    rw [← same, (case_of_not_isAlpha other).1]
  · rintro rfl
    exact (case_of_not_isAlpha other).1

theorem toUpper_eq_iff {c d : Char} (other : ¬ d.isAlpha) : c.toUpper = d ↔ c = d := by
  constructor
  · intro same
    rw [← same, Char.isAlpha_toUpper_eq_isAlpha] at other
    rw [← same, (case_of_not_isAlpha other).2]
  · rintro rfl
    exact (case_of_not_isAlpha other).2

theorem not_mem_toLower {s : String} {d : Char} (other : ¬ d.isAlpha) (free : d ∉ s.toList) :
    d ∉ s.toLower.toList := by
  rw [String.toLower, String.toList_map, List.mem_map]
  rintro ⟨c, member, same⟩
  exact free ((toLower_eq_iff other).mp same ▸ member)

theorem not_mem_toUpper {s : String} {d : Char} (other : ¬ d.isAlpha) (free : d ∉ s.toList) :
    d ∉ s.toUpper.toList := by
  rw [String.toUpper, String.toList_map, List.mem_map]
  rintro ⟨c, member, same⟩
  exact free ((toUpper_eq_iff other).mp same ▸ member)

theorem cStr_plain {s : String} (plain : Char.ofNat 0 ∉ s.toList) : cStr s = s := by
  have all : s.toList.takeWhile (· ≠ Char.ofNat 0) = s.toList := by
    rw [List.takeWhile_eq_self_iff]
    intro c member
    simpa using fun same : c = Char.ofNat 0 => plain (same ▸ member)
  rw [cStr, all, String.ofList_toList]

/-- The stream's name begins with the symbol. -/
theorem streamSymbol_append {s rest : String} (noMark : '@' ∉ s.toList)
    (mark : rest.toList.head? = some '@') :
    streamSymbol (s ++ rest) = s := by
  have all : ∀ c ∈ s.toList, decide (c ≠ '@') = true := by
    intro c member
    simpa using fun same : c = '@' => noMark (same ▸ member)
  have stops : rest.toList.takeWhile (· ≠ '@') = [] := by
    cases letters : rest.toList with
    | nil => rfl
    | cons c letters' =>
      rw [letters] at mark
      cases mark
      rfl
  rw [streamSymbol, String.toList_append, List.takeWhile_append_of_pos all, stops, List.append_nil,
    String.ofList_toList]

theorem name_case_iff (name : String) :
    name.toUpper = name.toLower ↔ ∀ c ∈ name.toList, ¬ c.isAlpha := by
  rw [← String.toList_inj, String.toUpper, String.toLower, String.toList_map, String.toList_map,
    List.map_eq_map_iff]
  exact forall₂_congr fun c _ => eq_comm.trans (toLower_eq_toUpper_iff c)

section
variable {stod : String → Option ℚ} {symbol : Symbol} {message : Json}

theorem guarded_some {α : Type} {run : Except JsonFault (Option α)} {x : α}
    (result : guarded run = .ok (some x)) :
    run = .ok (some x) := by
  unfold guarded at result
  split at result
  · cases result
  · exact result

theorem barOf_ids {data klineJson : Json} {bar : Kline}
    (built : barOf stod data klineJson = .ok bar) :
    bar.exchangeId = "binance" ∧ ∃ inner id, data.index "data" = .ok inner ∧
      inner.index "s" = .ok id ∧
      ∃ s, id.getString = .ok s ∧ bar.instrumentId = cStr s := by
  obtain ⟨inner, hasData, built⟩ := ok_of_bind built
  obtain ⟨id, hasId, built⟩ := ok_of_bind built
  obtain ⟨s, string, built⟩ := ok_of_bind built
  obtain ⟨_, _, built⟩ := ok_of_bind built
  obtain ⟨_, _, built⟩ := ok_of_bind built
  obtain ⟨_, _, built⟩ := ok_of_bind built
  obtain ⟨_, _, built⟩ := ok_of_bind built
  obtain ⟨_, _, built⟩ := ok_of_bind built
  obtain ⟨_, _, built⟩ := ok_of_bind built
  obtain ⟨_, _, built⟩ := ok_of_bind built
  obtain ⟨_, _, built⟩ := ok_of_bind built
  obtain ⟨_, _, built⟩ := ok_of_bind built
  cases built
  exact ⟨rfl, inner, id, hasData, hasId, s, string, rfl⟩

/-- A bar that is published was built of the message. -/
theorem klineOf_some {bar : Kline} (published : klineOf stod message = .ok (some bar)) :
    ∃ klineJson, barOf stod message klineJson = .ok bar := by
  unfold klineOf at published
  split at published
  · cases published
  obtain ⟨_, _, published⟩ := ok_of_bind published
  split at published
  · cases published
  obtain ⟨_, _, published⟩ := ok_of_bind published
  obtain ⟨klineJson, _, published⟩ := ok_of_bind published
  split at published
  · cases published
  obtain ⟨_, _, published⟩ := ok_of_bind published
  obtain ⟨_, _, published⟩ := ok_of_bind published
  split at published
  · cases published
  obtain ⟨built, ran, published⟩ := ok_of_bind published
  cases published
  exact ⟨klineJson, ran⟩

theorem processKlineData_ids {bar : Kline} (isKline : IsKline symbol message)
    (published : processKlineData stod message = .ok (some bar)) :
    bar.instrumentId = symbol.name.toUpper ∧ bar.exchangeId = "binance" := by
  obtain ⟨klineJson, built⟩ := klineOf_some (guarded_some published)
  obtain ⟨exchange, inner, id, hasData, hasId, s, string, instrument⟩ := barOf_ids built
  obtain ⟨_, data, hasData', hasId'⟩ := isKline
  rw [hasData'] at hasData
  cases hasData
  rw [hasId'] at hasId
  cases hasId
  cases string
  exact ⟨instrument.trans (cStr_plain (not_mem_toUpper (by decide) symbol.plain)), exchange⟩

theorem quoteOf_some {quote : Quote} (published : quoteOf stod message = .ok (some quote)) :
    quote.exchangeId = "binance" ∧ ∃ stream s, message.index "stream" = .ok stream ∧
      stream.getString = .ok s ∧
      quote.instrumentId = cStr (streamSymbol s) := by
  unfold quoteOf at published
  split at published
  · cases published
  obtain ⟨_, _, published⟩ := ok_of_bind published
  obtain ⟨_, _, published⟩ := ok_of_bind published
  split at published
  · cases published
  obtain ⟨stream, hasStream, published⟩ := ok_of_bind published
  obtain ⟨s, string, published⟩ := ok_of_bind published
  obtain ⟨_, _, published⟩ := ok_of_bind published
  obtain ⟨_, _, published⟩ := ok_of_bind published
  obtain ⟨_, _, published⟩ := ok_of_bind published
  obtain ⟨_, _, published⟩ := ok_of_bind published
  obtain ⟨_, _, published⟩ := ok_of_bind published
  obtain ⟨_, _, published⟩ := ok_of_bind published
  cases published
  exact ⟨rfl, stream, s, hasStream, string, rfl⟩

theorem processDepthData_ids {quote : Quote} (isDepth : IsSymbolDepth symbol message)
    (published : processDepthData stod message = .ok (some quote)) :
    quote.instrumentId = symbol.name.toLower ∧ quote.exchangeId = "binance" := by
  obtain ⟨exchange, stream, s, hasStream, string, instrument⟩ :=
    quoteOf_some (guarded_some published)
  obtain ⟨kind, hasStream'⟩ := isDepth
  rw [hasStream'] at hasStream
  cases hasStream
  cases string
  have name : streamSymbol (symbol.name.toLower ++ "@depth" ++ kind) = symbol.name.toLower := by
    rw [String.append_assoc]
    exact streamSymbol_append (not_mem_toLower (by decide) symbol.noMark)
      (by rw [String.toList_append]; rfl)
  rw [instrument, name]
  exact ⟨cStr_plain (not_mem_toLower (by decide) symbol.plain), exchange⟩

theorem some_of_map {α β : Type} {f : α → β} {run : Except JsonFault (Option α)} {y : β}
    (result : (·.map f) <$> run = .ok (some y)) : ∃ x, run = .ok (some x) ∧ f x = y := by
  cases run with
  | error fault => cases result
  | ok value =>
    cases value with
    | none => cases result
    | some x =>
      cases result
      exact ⟨x, rfl, rfl⟩

theorem onMsg_some {enableKline enableDepth : Bool} {published : Published}
    (result : onMsg stod enableKline enableDepth (some message) = .ok (some published)) :
    (∃ bar, processKlineData stod message = .ok (some bar) ∧ .bar bar = published) ∨
      ∃ quote, processDepthData stod message = .ok (some quote) ∧ .quote quote = published := by
  simp only [onMsg] at result
  split at result
  · cases result
  split at result
  · split at result
    · exact .inl (some_of_map result)
    · cases result
  · split at result
    · exact .inr (some_of_map result)
    · cases result
  · cases result

end

/-- A trade that opens leaves a position under its key that it dated. -/
theorem update_opened (book : Book) {trade : Trade} {direction : Direction}
    (opens : trade.offset = .open_) (side : positionDirection trade = some direction) :
    ∃ position, (book.update trade).positions.get trade.instrumentId trade.exchangeId direction =
      some position ∧
      position.updateTime = trade.tradeTime := by
  change ∃ position, (book.positions.update trade).positions direction
    (hashInstrument trade.exchangeId trade.instrumentId) = _ ∧ _
  simp only [PositionBook.update, side]
  split
  · refine ⟨created direction trade, ?_, rfl⟩
    rw [assign_positions, if_pos Iff.rfl, Function.update_self]
  · rename_i position _
    rw [assign_positions, if_pos Iff.rfl, Function.update_self, updated, if_pos opens]
    exact ⟨_, rfl, rfl⟩

theorem meet_of_ids {bar : Kline} {quote : Quote}
    (instrument : bar.instrumentId = quote.instrumentId)
    (exchange : bar.exchangeId = quote.exchangeId) : Meet bar quote where
  instrument := instrument
  exchange := exchange
  depth := by
    intro id either board output writing
    rw [instrument, or_self] at either
    rw [either, RecordStores.DepthCallBoard.get_set board _ _ _ writing]
    exact ⟨_, rfl, rfl⟩
  position := by
    intro book trade direction either traded opens side
    rw [instrument, or_self] at either
    rw [instrument, exchange, ← either, ← traded]
    exact update_opened book opens side

/-- Bars and quotes of a symbol meet just when there is no letter in it. -/
theorem ids_meet_iff (stod : String → Option ℚ) (enableKline enableDepth : Bool) (symbol : Symbol)
    {kline depth : Json}
    (isKline : IsKline symbol kline) (isDepth : IsSymbolDepth symbol depth) {bar : Kline}
    {quote : Quote}
    (barPublished : onMsg stod enableKline enableDepth (some kline) = .ok (some (.bar bar)))
    (quotePublished : onMsg stod enableKline enableDepth (some depth) = .ok (some (.quote quote))) :
    Meet bar quote ↔ ∀ c ∈ symbol.name.toList, ¬ c.isAlpha := by
  obtain ⟨_, barRan, ⟨⟩⟩ | ⟨_, _, ⟨⟩⟩ := onMsg_some barPublished
  obtain ⟨_, _, ⟨⟩⟩ | ⟨_, quoteRan, ⟨⟩⟩ := onMsg_some quotePublished
  obtain ⟨barId, barExchange⟩ := processKlineData_ids isKline barRan
  obtain ⟨quoteId, quoteExchange⟩ := processDepthData_ids isDepth quoteRan
  rw [← name_case_iff, ← barId, ← quoteId]
  constructor
  · exact Meet.instrument
  · intro instrument
    exact meet_of_ids instrument (barExchange.trans quoteExchange.symm)

def digits : Symbol := ⟨"1000", by decide, by decide, by decide⟩

def klineMessage (stream symbol : String) : Json :=
  .object [("stream", .string stream),
    ("data", .object [("s", .string symbol), ("k", .object [("x", .bool true),
    ("t", .integer 1), ("T", .integer 2), ("o", .string "1"), ("c", .string "1"),
      ("h", .string "1"), ("l", .string "1"),
    ("v", .string "1")])])]

def depthMessage (stream : String) : Json :=
  .object [("stream", .string stream), ("data", .object [("bids", .array []), ("asks", .array [])])]

def one (s : String) : Option ℚ := if s = "1" then some 1 else none

/-- Messages in the two cases of a name. -/
theorem isKline_of {symbol : Symbol} {lower upper : String}
    (isLower : symbol.name.toList.map Char.toLower = lower.toList)
    (isUpper : symbol.name.toList.map Char.toUpper = upper.toList) :
    IsKline symbol (klineMessage (lower ++ "@kline_" ++ "1m") upper) := by
  rw [← String.toList_map, String.toList_inj] at isLower isUpper
  exact ⟨⟨"1m", by rw [String.toLower, isLower]; rfl⟩, _, rfl, by rw [String.toUpper, isUpper]; rfl⟩

theorem isSymbolDepth_of {symbol : Symbol} {lower : String}
    (isLower : symbol.name.toList.map Char.toLower = lower.toList) :
    IsSymbolDepth symbol (depthMessage (lower ++ "@depth" ++ "20")) := by
  rw [← String.toList_map, String.toList_inj] at isLower
  exact ⟨"20", by rw [String.toLower, isLower]; rfl⟩

theorem ids_meet_digits :
    Meet ⟨⟨"1000", "binance", 2, 1⟩, 1, 1, 1, 1, 1⟩
      ⟨⟨0, fun _ => 0, fun _ => 0, fun _ => 0, fun _ => 0⟩, "1000", "binance"⟩ ↔
      ∀ c ∈ digits.name.toList, ¬ c.isAlpha :=
  ids_meet_iff one true true digits (@isKline_of _ "1000" "1000" rfl rfl)
    (@isSymbolDepth_of _ "1000" rfl) rfl rfl

/-- The bar says `BTC`, the quote `btc`. -/
theorem letters_part :
    ¬ ∀ (stod : String → Option ℚ) (symbol : Symbol) (kline depth : Json), IsKline symbol kline →
      IsSymbolDepth symbol depth →
      ∀ bar quote, onMsg stod true true (some kline) = .ok (some (.bar bar)) →
        onMsg stod true true (some depth) = .ok (some (.quote quote)) → Meet bar quote := by
  intro claim
  have met := claim one ⟨"BTC", by decide, by decide, by decide⟩ _ _
    (@isKline_of _ "btc" "BTC" rfl rfl) (@isSymbolDepth_of _ "btc" rfl)
    ⟨⟨"BTC", "binance", 2, 1⟩, 1, 1, 1, 1, 1⟩ ⟨⟨0, fun _ => 0, fun _ => 0, fun _ => 0, fun _ => 0⟩,
      "btc", "binance"⟩ rfl rfl
  exact absurd met.instrument (by decide)

end BTrader.BinanceData
