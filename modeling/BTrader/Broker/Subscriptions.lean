import BTrader.Infra.CharArray
import BTrader.Lib.Runs

/-! The instruments that `BinanceData` is subscribed to. A key is told by the string of its
`instrument_id`. Where an entry is erased, each one behind it is assigned to the place before. -/
namespace BTrader.BinanceData
open Infra

/-- A key, by its `instrument_id`. The last byte is a NUL as in every array that was zeroed and
then assigned strings for which it has the room. -/
structure InstrumentKey where
  instrumentId : CharArray 32
  terminated : instrumentId.bytes[31]? = some 0
  deriving DecidableEq

namespace InstrumentKey

/-- `instrument_id.to_string()` -/
def symbol (key : InstrumentKey) : String :=
  .ofList (key.instrumentId.chars.map fun c => Char.ofNat c.toNat)

/-- The symbol after `transform(..., ::tolower)`. -/
def lower (key : InstrumentKey) : String := key.symbol.toLower

theorem chars_short (key : InstrumentKey) : key.instrumentId.chars.length < 32 := by
  have zero : 0 ∈ key.instrumentId.bytes := List.mem_of_getElem? key.terminated
  exact CharArray.chars_length_lt (if_pos zero : key.instrumentId.toString =
    some key.instrumentId.chars)

/-- The assignment of another key, member by member. -/
def assignFrom (key other : InstrumentKey) : InstrumentKey where
  instrumentId := key.instrumentId.assignFrom other.instrumentId
  terminated := by
    have short := other.chars_short
    have length := key.instrumentId.length
    change (CString.overwrite key.instrumentId.bytes other.instrumentId.chars)[31]? = some 0
    rw [CString.overwrite_of_le (by omega), List.getElem?_append_right (by omega),
      List.getElem?_drop, Nat.add_sub_cancel' (by omega)]
    exact key.terminated

/-- The array has a NUL where the other's string ends. -/
def EndsWith (key other : InstrumentKey) : Prop :=
  key.instrumentId.bytes[other.instrumentId.chars.length]? = some 0

instance (key other : InstrumentKey) : Decidable (key.EndsWith other) :=
  inferInstanceAs (Decidable (_ = _))

/-- What is behind the other's string stays in the array. -/
theorem assignFrom_chars (key other : InstrumentKey) : (key.assignFrom other).instrumentId.chars =
    other.instrumentId.chars ++
      CString.chars (key.instrumentId.bytes.drop other.instrumentId.chars.length) := by
  have short := other.chars_short
  have length := key.instrumentId.length
  change CString.chars (CString.overwrite key.instrumentId.bytes other.instrumentId.chars) = _
  rw [CString.overwrite_of_le (by omega), CString.chars_append (CharArray.chars_plain _)]

theorem symbol_length (key : InstrumentKey) :
    key.symbol.length = key.instrumentId.chars.length := by
  simp [symbol]

theorem assignFrom_length_iff (key other : InstrumentKey) :
    other.symbol.length ≤ (key.assignFrom other).symbol.length ∧
    ((key.assignFrom other).symbol.length ≤ other.symbol.length ↔ key.EndsWith other) := by
  have short := other.chars_short
  have length := key.instrumentId.length
  have inside : other.instrumentId.chars.length < key.instrumentId.bytes.length := by omega
  simp only [symbol_length, assignFrom_chars, List.length_append]
  refine ⟨Nat.le_add_right _ _, ?_⟩
  rw [EndsWith, List.getElem?_eq_getElem inside, List.drop_eq_getElem_cons inside, Option.some_inj]
  by_cases zero : key.instrumentId.bytes[other.instrumentId.chars.length] = 0
  · simp [zero, CString.chars]
  · simpa [zero, CString.chars] using inside

theorem EndsWith.symbol {key other : InstrumentKey} (ends : key.EndsWith other) :
    (key.assignFrom other).symbol = other.symbol := by
  have short := ((key.assignFrom_length_iff other).2).mpr ends
  have chars := key.assignFrom_chars other
  simp only [symbol_length, chars, List.length_append] at short
  have nothing : CString.chars (key.instrumentId.bytes.drop other.instrumentId.chars.length) = [] :=
    List.eq_nil_of_length_eq_zero (by omega)
  rw [InstrumentKey.symbol, chars, nothing, List.append_nil, InstrumentKey.symbol]

end InstrumentKey

/-- A message to the exchange. -/
structure StreamRequest where
  method : String
  params : List String
  id : UInt64
  deriving DecidableEq, Repr

structure Subscriptions where
  uri : String
  defaultSymbol : String
  isConnected : Bool
  enableKline : Bool
  enableDepth : Bool
  klineInterval : String
  depthLevels : Int
  subscribedInstruments : List InstrumentKey
  subscriptionIdCounter : UInt64

namespace Subscriptions

def wsStreamPrefix : String := "wss://stream.binance.com:443"

/-- The streams of some symbols. -/
def streams (s : Subscriptions) (symbols : List String) : List String :=
  symbols.flatMap fun symbol =>
    (if s.enableKline then [symbol ++ "@kline_" ++ s.klineInterval] else []) ++
      if s.enableDepth then [symbol ++ "@depth" ++ toString s.depthLevels] else []

def streamsUri (streams : List String) : String :=
  wsStreamPrefix ++ "/stream?streams=" ++ "/".intercalate streams

def updateStreamsUri (s : Subscriptions) (symbols : List String) : Subscriptions :=
  if s.streams symbols = [] then s else { s with uri := streamsUri (s.streams symbols) }

def setDefaultStreams (s : Subscriptions) : Subscriptions :=
  { s with
    uri :=
      if s.streams [s.defaultSymbol] = [] then
        wsStreamPrefix ++ "/stream?streams=btcusdt@kline_1s/btcusdt@depth20"
      else streamsUri (s.streams [s.defaultSymbol]) }

def getSubscribedSymbols (s : Subscriptions) : List String :=
  s.subscribedInstruments.map InstrumentKey.lower

def updateStreamsUriFromSubscribed (s : Subscriptions) : Subscriptions :=
  s.updateStreamsUri s.getSubscribedSymbols

def isSubscribed (s : Subscriptions) (symbol : String) : Bool :=
  s.subscribedInstruments.any fun key => key.lower = symbol.toLower

/-- Each symbol at its first place. -/
def symbolsOf (keys : List InstrumentKey) : List String :=
  keys.foldl (fun symbols key => if key.lower ∈ symbols then symbols else symbols ++ [key.lower]) []

/-- The next id, and the message that bears it. -/
def request (s : Subscriptions) (method : String) (params : List String) :
    StreamRequest × Subscriptions :=
  (⟨method, params, s.subscriptionIdCounter + 1⟩,
    { s with subscriptionIdCounter := s.subscriptionIdCounter + 1 })

/-- `written` tells whether the client takes the message. -/
def subscribe (s : Subscriptions) (written : Bool) (keys : List InstrumentKey) :
    Bool × Option StreamRequest × Subscriptions :=
  if keys = [] then (false, none, s)
  else if !s.isConnected then (false, none, s)
  else
    let symbols := symbolsOf keys
    if s.streams symbols = [] then (false, none, s)
    else
      let (message, s) := s.request "SUBSCRIBE" (s.streams symbols)
      if !written then (false, some message, s)
      else
        let s := s.updateStreamsUri symbols
        (true, some message, { s with subscribedInstruments := s.subscribedInstruments ++ keys })

/-- `erase` of the first entry: each one behind is assigned to the place before. -/
def shiftDown : List InstrumentKey → List InstrumentKey
  | place :: next :: rest => place.assignFrom next :: shiftDown (next :: rest)
  | _ => []

/-- The first entry with the key's string is erased. -/
def eraseKey (instruments : List InstrumentKey) (key : InstrumentKey) : List InstrumentKey :=
  instruments.takeWhile (fun existing => existing.symbol ≠ key.symbol) ++
    shiftDown (instruments.dropWhile fun existing => existing.symbol ≠ key.symbol)

/-- The loop over the keys. -/
def removeKeys (instruments keys : List InstrumentKey) : List InstrumentKey :=
  keys.foldl eraseKey instruments

def unsubscribe (s : Subscriptions) (written : Bool) (keys : List InstrumentKey) :
    Bool × Option StreamRequest × Subscriptions :=
  if keys = [] then (false, none, s)
  else if !s.isConnected then (false, none, s)
  else
    let streams := s.streams (keys.map InstrumentKey.lower)
    if streams = [] then (false, none, s)
    else
      let (message, s) := s.request "UNSUBSCRIBE" streams
      if !written then (false, some message, s)
      else
        let s := { s with subscribedInstruments := removeKeys s.subscribedInstruments keys }
        (true, some message,
          if s.subscribedInstruments ≠ [] then s.updateStreamsUriFromSubscribed
          else s.setDefaultStreams)

def clearSubscriptions (s : Subscriptions) : Option StreamRequest × Subscriptions :=
  if s.subscribedInstruments = [] then (none, s)
  else
    let current := s.streams s.getSubscribedSymbols
    let (message, s) :=
      if current = [] then (none, s)
      else
        let (message, s) := s.request "UNSUBSCRIBE" current
        (some message, s)
    (message, { s with subscribedInstruments := [] }.setDefaultStreams)

/-- A call, and what the connection does between the calls. -/
inductive Call where
  | subscribe (written : Bool) (keys : List InstrumentKey)
  | unsubscribe (written : Bool) (keys : List InstrumentKey)
  | clearSubscriptions
  | connection (isUp : Bool)

/-- The service, and the symbols that were subscribed and not unsubscribed or cleared since. -/
structure Tracked where
  service : Subscriptions
  symbols : Set String

/-- A call that returns false was not successful: it changes no subscription. -/
def Tracked.act (t : Tracked) : Call → Tracked
  | .subscribe written keys =>
    let (success, _, service) := t.service.subscribe written keys
    ⟨service, if success then t.symbols ∪ {symbol | symbol ∈ keys.map InstrumentKey.lower}
      else t.symbols⟩
  | .unsubscribe written keys =>
    let (success, _, service) := t.service.unsubscribe written keys
    ⟨service, if success then t.symbols \ {symbol | symbol ∈ keys.map InstrumentKey.lower}
      else t.symbols⟩
  | .clearSubscriptions => ⟨t.service.clearSubscriptions.2, ∅⟩
  | .connection isUp => ⟨{ t.service with isConnected := isUp }, t.symbols⟩

/-- The queries answer by the symbols, and list each of them once. -/
structure Tracked.Right (t : Tracked) : Prop where
  queried : ∀ symbol, t.service.isSubscribed symbol = true ↔ symbol.toLower ∈ t.symbols
  listed : ∀ symbol ∈ t.symbols, t.service.getSubscribedSymbols.count symbol = 1
  known : ∀ symbol ∈ t.service.getSubscribedSymbols, symbol ∈ t.symbols

/-- Whether a `subscribe` or an `unsubscribe` goes through. -/
def accepts (s : Subscriptions) (written : Bool) (keys : List InstrumentKey) : Bool :=
  !keys.isEmpty && s.isConnected && (s.enableKline || s.enableDepth) && written

/-- From the key's entry on each array has a NUL where the next string ends. -/
def Shifts (instruments : List InstrumentKey) (key : InstrumentKey) : Prop :=
  (instruments.dropWhile fun existing => existing.symbol ≠
    key.symbol).IsChain InstrumentKey.EndsWith

/-- What the lists of a call must be like. New keys have different symbols, none of them subscribed.
Of the entries that go by a key's symbol each is spelled like one of the keys, and no `erase` of the
loop brings a string to a place where a longer one was. -/
def Tracked.Meets (t : Tracked) : Call → Prop
  | .subscribe written keys => t.service.accepts written keys = true →
    (keys.map InstrumentKey.lower).Nodup ∧ ∀ key ∈ keys, t.service.isSubscribed key.symbol = false
  | .unsubscribe written keys => t.service.accepts written keys = true →
    (∀ entry ∈ t.service.subscribedInstruments, entry.lower ∈ keys.map InstrumentKey.lower →
      entry.symbol ∈ keys.map InstrumentKey.symbol) ∧
    ∀ erasure ∈ Runs.moves eraseKey t.service.subscribedInstruments keys, Shifts erasure.1 erasure.2
  | _ => True

section Steps

theorem isSubscribed_iff (s : Subscriptions) (symbol : String) :
    s.isSubscribed symbol = true ↔ symbol.toLower ∈ s.getSubscribedSymbols := by
  simp [isSubscribed, getSubscribedSymbols]

theorem right_iff (t : Tracked) : t.Right ↔
    t.service.getSubscribedSymbols.Nodup ∧ ∀ symbol, symbol ∈ t.service.getSubscribedSymbols ↔
      symbol ∈ t.symbols := by
  constructor
  · rintro ⟨_, listed, known⟩
    constructor
    · rw [List.nodup_iff_count_le_one]
      intro symbol
      by_cases here : symbol ∈ t.service.getSubscribedSymbols
      · exact (listed symbol (known symbol here)).le
      · rw [List.count_eq_zero_of_not_mem here]
        exact Nat.zero_le 1
    · refine fun symbol => ⟨known symbol, fun member => ?_⟩
      exact List.count_pos_iff.mp (by rw [listed symbol member]; exact Nat.one_pos)
  · rintro ⟨distinct, same⟩
    refine ⟨fun symbol => ?_, fun symbol member => ?_, fun symbol here => (same symbol).mp here⟩
    · rw [isSubscribed_iff, same]
    · exact List.count_eq_one_of_mem distinct ((same symbol).mpr member)

theorem streams_eq_nil (s : Subscriptions) (symbols : List String) :
    s.streams symbols = [] ↔ symbols = [] ∨ (s.enableKline || s.enableDepth) = false := by
  have each :
      s.streams symbols = [] ↔ ∀ symbol ∈ symbols, (s.enableKline || s.enableDepth) = false := by
    rw [streams, List.flatMap_eq_nil_iff]
    refine forall₂_congr fun symbol _ => ?_
    cases s.enableKline <;> cases s.enableDepth <;> simp
  rw [each]
  cases symbols with
  | nil => simp
  | cons symbol symbols =>
    simp only [reduceCtorEq, false_or]
    exact ⟨fun off => off symbol List.mem_cons_self, fun off _ _ => off⟩

/-- The symbols of the keys, each of them once. -/
theorem symbolsOf_spec (keys : List InstrumentKey) :
    (symbolsOf keys).Nodup ∧ ∀ symbol, symbol ∈ symbolsOf keys ↔
      symbol ∈ keys.map InstrumentKey.lower := by
  induction keys using List.reverseRecOn with
  | nil => simp [symbolsOf]
  | append_singleton keys key ih =>
    obtain ⟨distinct, same⟩ := ih
    have last : symbolsOf (keys ++ [key]) =
        if key.lower ∈ symbolsOf keys then symbolsOf keys else symbolsOf keys ++ [key.lower] := by
      rw [symbolsOf, List.foldl_append]
      rfl
    simp only [last, List.map_append, List.mem_append, List.map_cons, List.map_nil,
      List.mem_singleton]
    split
    · rename_i known
      refine ⟨distinct, fun symbol => ?_⟩
      rw [same]
      constructor
      · exact Or.inl
      · rintro (old | rfl)
        · exact old
        · exact (same _).mp known
    · rename_i new
      constructor
      · rw [List.nodup_append]
        refine ⟨distinct, List.nodup_singleton _, ?_⟩
        rintro symbol here other there rfl
        exact new (List.mem_singleton.mp there ▸ here)
      · intro symbol
        rw [List.mem_append, List.mem_singleton, same]

theorem symbolsOf_eq_nil (keys : List InstrumentKey) : symbolsOf keys = [] ↔ keys = [] := by
  rw [List.eq_nil_iff_forall_not_mem, ← List.map_eq_nil_iff (f := InstrumentKey.lower),
    List.eq_nil_iff_forall_not_mem]
  exact forall_congr' fun symbol => not_congr ((symbolsOf_spec keys).2 symbol)

theorem subscribe_success (s : Subscriptions) (written : Bool) (keys : List InstrumentKey) :
    (s.subscribe written keys).1 = s.accepts written keys := by
  unfold subscribe accepts
  by_cases empty : keys = []
  · simp [empty]
  · cases up : s.isConnected with
    | false => simp [empty]
    | true =>
      cases enabled : s.enableKline || s.enableDepth with
      | false => simp [empty, streams_eq_nil, enabled]
      | true => cases written <;> simp [empty, streams_eq_nil, symbolsOf_eq_nil, enabled]

theorem unsubscribe_success (s : Subscriptions) (written : Bool) (keys : List InstrumentKey) :
    (s.unsubscribe written keys).1 = s.accepts written keys := by
  unfold unsubscribe accepts
  by_cases empty : keys = []
  · simp [empty]
  · cases up : s.isConnected with
    | false => simp [empty]
    | true =>
      cases enabled : s.enableKline || s.enableDepth with
      | false => simp [empty, streams_eq_nil, enabled]
      | true => cases written <;> simp [empty, streams_eq_nil, enabled]

theorem updateStreamsUri_instruments (s : Subscriptions) (symbols : List String) :
    (s.updateStreamsUri symbols).subscribedInstruments = s.subscribedInstruments := by
  unfold updateStreamsUri
  split <;> rfl

theorem updateStreamsUri_accepts (s : Subscriptions) (symbols : List String) (written : Bool)
    (keys : List InstrumentKey) :
    (s.updateStreamsUri symbols).accepts written keys = s.accepts written keys := by
  unfold updateStreamsUri
  split <;> rfl

/-- Subscribing changes nothing that a later call depends on. -/
theorem subscribe_accepts (s : Subscriptions) (written : Bool) (keys : List InstrumentKey)
    (later : Bool) (others : List InstrumentKey) :
    (s.subscribe written keys).2.2.accepts later others = s.accepts later others := by
  unfold subscribe
  split
  · rfl
  · split
    · rfl
    · dsimp only
      split
      · rfl
      · cases written with
        | false => rfl
        | true =>
          exact updateStreamsUri_accepts (s.request "SUBSCRIBE" (s.streams (symbolsOf keys))).2
            (symbolsOf keys) later others

theorem subscribe_instruments (s : Subscriptions) (written : Bool) (keys : List InstrumentKey) :
    (s.subscribe written keys).2.2.subscribedInstruments =
      if (s.subscribe written keys).1 then s.subscribedInstruments ++ keys
      else s.subscribedInstruments := by
  unfold subscribe
  split
  · rfl
  · split
    · rfl
    · dsimp only
      split
      · rfl
      · cases written with
        | false => rfl
        | true =>
          have kept :=
            updateStreamsUri_instruments (s.request "SUBSCRIBE" (s.streams (symbolsOf keys))).2
              (symbolsOf keys)
          exact congrArg (· ++ keys) kept

theorem unsubscribe_instruments (s : Subscriptions) (written : Bool) (keys : List InstrumentKey) :
    (s.unsubscribe written keys).2.2.subscribedInstruments =
      if (s.unsubscribe written keys).1 then removeKeys s.subscribedInstruments keys
      else s.subscribedInstruments := by
  unfold unsubscribe
  split
  · rfl
  · split
    · rfl
    · dsimp only
      split
      · rfl
      · cases written with
        | false => rfl
        | true =>
          simp only [Bool.not_true, Bool.false_eq_true, if_false, if_true]
          split
          · exact updateStreamsUri_instruments _ _
          · rfl

theorem clear_instruments (s : Subscriptions) :
    s.clearSubscriptions.2.subscribedInstruments = [] := by
  unfold clearSubscriptions
  split
  · assumption
  · rfl

/-- The strings behind the entry move down as they are when the arrays have their NULs. -/
theorem shiftDown_symbols {entries : List InstrumentKey}
    (chain : entries.IsChain InstrumentKey.EndsWith) :
    (shiftDown entries).map InstrumentKey.symbol = entries.tail.map InstrumentKey.symbol := by
  induction entries with
  | nil => rfl
  | cons place rest ih =>
    cases rest with
    | nil => rfl
    | cons next rest =>
      obtain ⟨ends, rest_chain⟩ := List.isChain_cons_cons.mp chain
      simpa [shiftDown, ends.symbol] using ih rest_chain

/-- They do not get shorter, and keep their lengths only then. -/
theorem shiftDown_lengths (entries : List InstrumentKey) :
    (entries.tail.map fun key => key.symbol.length).sum ≤
      ((shiftDown entries).map fun key => key.symbol.length).sum ∧
      (((shiftDown entries).map fun key => key.symbol.length).sum ≤
          (entries.tail.map fun key => key.symbol.length).sum →
        entries.IsChain InstrumentKey.EndsWith) := by
  induction entries with
  | nil => simp [shiftDown]
  | cons place rest ih =>
    cases rest with
    | nil => simp [shiftDown]
    | cons next rest =>
      obtain ⟨longer, only⟩ := ih
      obtain ⟨grown, ends⟩ := place.assignFrom_length_iff next
      simp only [shiftDown, List.tail_cons, List.map_cons, List.sum_cons] at longer only ⊢
      refine ⟨by omega, fun short => ?_⟩
      exact List.isChain_cons_cons.mpr ⟨ends.mp (by omega), only (by omega)⟩

/-- One `erase` then takes one string out of the list. -/
theorem eraseKey_symbols {instruments : List InstrumentKey} {key : InstrumentKey}
    (shifts : Shifts instruments key) :
    (eraseKey instruments key).map InstrumentKey.symbol =
      (instruments.map InstrumentKey.symbol).erase key.symbol := by
  induction instruments with
  | nil => rfl
  | cons entry rest ih =>
    by_cases spelled : entry.symbol = key.symbol
    · rw [Shifts, List.dropWhile_cons_of_neg (by simpa using spelled)] at shifts
      rw [eraseKey, List.takeWhile_cons_of_neg (by simpa using spelled),
        List.dropWhile_cons_of_neg (by simpa using spelled), List.nil_append,
          shiftDown_symbols shifts,
        List.map_cons, spelled, List.erase_cons_head, List.tail_cons]
    · rw [Shifts, List.dropWhile_cons_of_pos (by simpa using spelled)] at shifts
      have others := ih shifts
      rw [eraseKey] at others ⊢
      rw [List.takeWhile_cons_of_pos (by simpa using spelled),
        List.dropWhile_cons_of_pos (by simpa using spelled),
        List.cons_append, List.map_cons, others, List.map_cons,
        List.erase_cons_tail (by simpa using spelled)]

theorem removeKeys_symbols {instruments keys : List InstrumentKey}
    (shifts : ∀ erasure ∈ Runs.moves eraseKey instruments keys, Shifts erasure.1 erasure.2) :
    (removeKeys instruments keys).map InstrumentKey.symbol =
      (instruments.map InstrumentKey.symbol).diff (keys.map InstrumentKey.symbol) := by
  induction keys generalizing instruments with
  | nil => rfl
  | cons key keys ih =>
    have first := shifts _ List.mem_cons_self
    have rest := ih fun erasure member => shifts erasure (List.mem_cons_of_mem _ member)
    rw [removeKeys, List.foldl_cons, ← removeKeys, rest, eraseKey_symbols first, List.map_cons,
      List.diff_cons]

theorem Tracked.Right.congr {t : Tracked} (right : t.Right) {service : Subscriptions}
    (same : service.subscribedInstruments = t.service.subscribedInstruments) :
      Tracked.Right ⟨service, t.symbols⟩ := by
  rw [right_iff, getSubscribedSymbols] at right ⊢
  rwa [same]

theorem subscribe_right {t : Tracked} (right : t.Right) (written : Bool)
    (keys : List InstrumentKey) :
    (t.act (.subscribe written keys)).Right ↔ t.Meets (.subscribe written keys) := by
  have stored := subscribe_instruments t.service written keys
  rw [Tracked.act, Tracked.Meets, ← subscribe_success]
  by_cases success : (t.service.subscribe written keys).1 = true
  · obtain ⟨distinct, same⟩ := (right_iff t).mp right
    rw [if_pos success] at stored
    simp only [success, if_true, forall_true_left]
    rw [right_iff, getSubscribedSymbols, stored, List.map_append, ← getSubscribedSymbols,
      List.nodup_append]
    constructor
    · rintro ⟨⟨_, new, apart⟩, _⟩
      refine ⟨new, fun key member => ?_⟩
      rw [← Bool.not_eq_true, isSubscribed_iff]
      exact fun here => apart _ here _ (List.mem_map_of_mem member) rfl
    · rintro ⟨new, absent⟩
      refine ⟨⟨distinct, new, ?_⟩, fun symbol => ?_⟩
      · rintro symbol here other there rfl
        obtain ⟨key, member, rfl⟩ := List.mem_map.mp there
        have unknown := absent key member
        rw [← Bool.not_eq_true, isSubscribed_iff] at unknown
        exact unknown here
      · rw [List.mem_append, same]
        rfl
  · rw [if_neg success] at stored
    simp only [success, Bool.false_eq_true, if_false, false_implies, iff_true]
    exact right.congr stored

/-- Entries with different symbols of which the loop leaves the other strings as they are. -/
theorem removed_right {t : Tracked} (right : t.Right) {keys : List InstrumentKey}
    {service : Subscriptions} (symbols : service.subscribedInstruments.map InstrumentKey.symbol =
      (t.service.subscribedInstruments.map InstrumentKey.symbol).diff
        (keys.map InstrumentKey.symbol)) :
    Tracked.Right ⟨service, t.symbols \ {symbol | symbol ∈ keys.map InstrumentKey.lower}⟩ ↔
      ∀ entry ∈ t.service.subscribedInstruments, entry.lower ∈ keys.map InstrumentKey.lower →
        entry.symbol ∈ keys.map InstrumentKey.symbol := by
  obtain ⟨distinct, same⟩ := (right_iff t).mp right
  have listed (s : Subscriptions) : s.getSubscribedSymbols =
      (s.subscribedInstruments.map InstrumentKey.symbol).map String.toLower := by
    rw [getSubscribedSymbols, List.map_map]
    rfl
  rw [listed] at distinct
  have strings : (t.service.subscribedInstruments.map InstrumentKey.symbol).Nodup := distinct.of_map
  have shorter :=
    ((List.diff_sublist _ (keys.map InstrumentKey.symbol)).map String.toLower).nodup distinct
  have left (symbol : String) : symbol ∈ service.getSubscribedSymbols ↔
      ∃ entry ∈ t.service.subscribedInstruments, entry.symbol ∉ keys.map InstrumentKey.symbol ∧
        entry.lower = symbol := by
    rw [listed, symbols, List.mem_map]
    constructor
    · rintro ⟨string, member, rfl⟩
      obtain ⟨present, absent⟩ := strings.mem_sdiff_iff.mp member
      obtain ⟨entry, there, rfl⟩ := List.mem_map.mp present
      exact ⟨entry, there, absent, rfl⟩
    · rintro ⟨entry, there, absent, rfl⟩
      exact ⟨entry.symbol, strings.mem_sdiff_iff.mpr ⟨List.mem_map_of_mem there, absent⟩, rfl⟩
  rw [right_iff]
  dsimp only
  constructor
  · rintro ⟨_, known⟩ entry member named
    by_contra spelled
    exact ((known entry.lower).mp ((left _).mpr ⟨entry, member, spelled, rfl⟩)).2 named
  · intro spelled
    refine ⟨by rwa [listed, symbols], fun symbol => ?_⟩
    rw [left]
    constructor
    · rintro ⟨entry, present, absent, rfl⟩
      exact ⟨(same _).mp (List.mem_map_of_mem present),
        fun named => absent (spelled entry present named)⟩
    · rintro ⟨member, unnamed⟩
      obtain ⟨entry, present, rfl⟩ := List.mem_map.mp ((same symbol).mpr member)
      refine ⟨entry, present, fun there => unnamed ?_, rfl⟩
      obtain ⟨key, among, equal⟩ := List.mem_map.mp there
      exact List.mem_map.mpr ⟨key, among, congrArg String.toLower equal⟩

theorem lower_length (key : InstrumentKey) : key.lower.length = key.symbol.length :=
  String.length_map

/-- An `erase` that takes no more than the key's string away leaves the others as they are. -/
theorem shifts_of_lengths {instruments : List InstrumentKey} {key : InstrumentKey}
    (short : ∀ entry ∈ instruments, entry.symbol = key.symbol →
      ((eraseKey instruments key).map fun entry => entry.symbol.length).sum + key.symbol.length ≤
        (instruments.map fun entry => entry.symbol.length).sum) : Shifts instruments key := by
  have split :=
    List.takeWhile_append_dropWhile (p := fun existing : InstrumentKey =>
      existing.symbol ≠ key.symbol)
    (l := instruments)
  rw [Shifts]
  cases found : instruments.dropWhile fun existing => existing.symbol ≠ key.symbol with
  | nil => exact .nil
  | cons entry back =>
    have spelled : entry.symbol = key.symbol := by
      have stopped :=
        List.head?_dropWhile_not (fun existing : InstrumentKey => existing.symbol ≠
          key.symbol) instruments
      rw [found] at stopped
      simpa using stopped
    have member : entry ∈ instruments := by
      rw [← split, found]
      simp
    have short := short entry member spelled
    rw [eraseKey, found] at short
    conv_rhs at short => rw [← split, found]
    simp only [List.map_append, List.sum_append, List.map_cons, List.sum_cons] at short
    refine (shiftDown_lengths (entry :: back)).2 ?_
    rw [List.tail_cons]
    rw [spelled] at short
    omega

/-- One key that is unsubscribed rightly has left the other strings as they were. -/
theorem shifts_of_right {t : Tracked} (right : t.Right) {key : InstrumentKey}
    {service : Subscriptions}
    (removed : service.subscribedInstruments = eraseKey t.service.subscribedInstruments key)
    (after :
      Tracked.Right ⟨service, t.symbols \ {symbol | symbol ∈ [key].map InstrumentKey.lower}⟩) :
    Shifts t.service.subscribedInstruments key := by
  obtain ⟨distinct, same⟩ := (right_iff t).mp right
  obtain ⟨distinct', same'⟩ := (right_iff _).mp after
  dsimp only at distinct' same'
  refine shifts_of_lengths fun entry member spelled => ?_
  have here : key.lower ∈ t.service.getSubscribedSymbols :=
    List.mem_map.mpr ⟨entry, member, congrArg String.toLower spelled⟩
  have left :
      service.getSubscribedSymbols.Perm (t.service.getSubscribedSymbols.erase key.lower) := by
    refine (List.perm_ext_iff_of_nodup distinct' (distinct.erase _)).mpr fun symbol => ?_
    rw [same', distinct.mem_erase_iff, same]
    simp [and_comm]
  have lengths :=
    ((List.Perm.cons key.lower left).trans (List.perm_cons_erase here).symm).map String.length
  have total := lengths.sum_eq
  simp only [getSubscribedSymbols, removed, List.map_cons, List.map_map,
    Function.comp_def, lower_length, List.sum_cons] at total
  omega

/-- The keys are one at most, or each `erase` of the loop leaves the other strings as they are. -/
def Tracked.Plain (t : Tracked) : Call → Prop
  | .unsubscribe _ keys => keys.length ≤ 1 ∨
      ∀ erasure ∈ Runs.moves eraseKey t.service.subscribedInstruments keys,
        Shifts erasure.1 erasure.2
  | _ => True

theorem unsubscribe_right {t : Tracked} (right : t.Right) {written : Bool}
    {keys : List InstrumentKey} :
    (t.Meets (.unsubscribe written keys) → (t.act (.unsubscribe written keys)).Right) ∧
      (t.Plain (.unsubscribe written keys) → (t.act (.unsubscribe written keys)).Right →
        t.Meets (.unsubscribe written keys)) := by
  have stored := unsubscribe_instruments t.service written keys
  rw [Tracked.act, Tracked.Meets, Tracked.Plain, ← unsubscribe_success]
  by_cases success : (t.service.unsubscribe written keys).1 = true
  · rw [if_pos success] at stored
    simp only [success, if_true, forall_true_left]
    have removed (shifts : ∀ erasure ∈ Runs.moves eraseKey t.service.subscribedInstruments keys,
        Shifts erasure.1 erasure.2) := removed_right right (stored ▸ removeKeys_symbols shifts)
    constructor
    · rintro ⟨spelled, shifts⟩
      exact (removed shifts).mpr spelled
    · intro plain after
      have shifts : ∀ erasure ∈ Runs.moves eraseKey t.service.subscribedInstruments keys,
          Shifts erasure.1 erasure.2 := by
        rcases plain with few | shifts
        · match keys, few with
          | [], _ => simp [Runs.moves]
          | [key], _ =>
            simp only [Runs.moves, List.mem_singleton, forall_eq]
            exact shifts_of_right right stored after
        · exact shifts
      exact ⟨(removed shifts).mp after, shifts⟩
  · rw [if_neg success] at stored
    simp only [success, Bool.false_eq_true, if_false, false_implies, implies_true, and_true]
    exact fun _ => right.congr stored

/-- A call that meets the condition keeps the queries right, and a plain one only then. -/
theorem act_right {t : Tracked} (right : t.Right) (c : Call) :
    (t.Meets c → (t.act c).Right) ∧ (t.Plain c → (t.act c).Right → t.Meets c) := by
  cases c with
  | subscribe written keys =>
    have exact := subscribe_right right written keys
    exact ⟨exact.mpr, fun _ => exact.mp⟩
  | unsubscribe written keys => exact unsubscribe_right right
  | clearSubscriptions =>
    refine ⟨fun _ => ?_, fun _ _ => trivial⟩
    rw [right_iff, Tracked.act, getSubscribedSymbols, clear_instruments]
    simp
  | connection isUp => exact ⟨fun _ => right.congr rfl, fun _ _ => trivial⟩

end Steps

/-- A service without subscriptions, whatever its configuration. -/
def Tracked.fresh (s : Subscriptions) : Tracked := ⟨{ s with subscribedInstruments := [] }, ∅⟩

theorem fresh_right (s : Subscriptions) : (Tracked.fresh s).Right := by
  rw [right_iff]
  simp [Tracked.fresh, getSubscribedSymbols]

/-- The queries are right in every state of a run whose calls all meet the condition. Of the runs
that unsubscribe one key at a time, or garble no entry, only these keep them right. -/
theorem queries_right_iff (s : Subscriptions) (calls : List Call) :
    ((∀ move ∈ Runs.moves Tracked.act (.fresh s) calls, move.1.Meets move.2) →
      ∀ t ∈ Runs.states Tracked.act (.fresh s) calls, t.Right) ∧
    ((∀ move ∈ Runs.moves Tracked.act (.fresh s) calls, move.1.Plain move.2) →
      (∀ t ∈ Runs.states Tracked.act (.fresh s) calls, t.Right) →
      ∀ move ∈ Runs.moves Tracked.act (.fresh s) calls, move.1.Meets move.2) := by
  constructor
  · have kept (t : Tracked) (c : Call) (right : t.Right) (meets : t.Meets c) : (t.act c).Right :=
      (act_right right c).1 meets
    exact Runs.invariant kept (fresh_right s) calls
  · intro plain right move member
    have before := Runs.moves_states _ _ move member
    exact (act_right (right _ before.1) move.2).2 (plain move member) (right _ before.2)

def connected : Subscriptions := ⟨"", "btcusdt", true, true, true, "1s", 20, [], 1000⟩

/-- The key that is made of a string of at most 31 characters. -/
def keyOf (s : List UInt8) (short : s.length < 32) : InstrumentKey where
  instrumentId := (CharArray.zero 32).assign s
  terminated := by
    change (CString.overwrite (List.replicate 32 0) s)[31]? = some 0
    rw [CString.overwrite_of_le (by simp; omega), List.getElem?_append_right (by omega),
      List.getElem?_drop, Nat.add_sub_cancel' (by omega)]
    rfl

def upper : InstrumentKey := keyOf [66, 84, 67] (by decide)
def lowered : InstrumentKey := keyOf [98, 116, 99] (by decide)

/-- `LONGSYM` and `AB`: without the first the list has `ABNGSYM`. -/
example : eraseKey [keyOf [76, 79, 78, 71, 83, 89, 77] (by decide), keyOf [65, 66] (by decide)]
    (keyOf [76, 79, 78, 71, 83, 89, 77] (by decide)) =
      [keyOf [65, 66, 78, 71, 83, 89, 77] (by decide)] := by
  decide

theorem lower_spellings : upper.lower = lowered.lower ∧ upper.symbol ≠ lowered.symbol := by
  constructor
  · rw [InstrumentKey.lower, InstrumentKey.lower, ← String.toList_inj, String.toLower,
      String.toLower, String.toList_map, String.toList_map]
    decide
  · decide

/-- One symbol in two spellings: the second one alone is unsubscribed, and the first one stays. -/
theorem spelling_stays : ¬ ∀ (s : Subscriptions) (calls : List Call),
    ∀ t ∈ Runs.states Tracked.act (.fresh s) calls, t.Right := by
  intro claim
  have right := claim connected [.subscribe true [upper], .unsubscribe true [lowered]]
  have first := right _ (.tail _ (.head _))
  have second := right _ (.tail _ (.tail _ (.head _)))
  generalize reached : (Tracked.fresh connected).act (.subscribe true [upper]) = t at first second
  have service : t.service = ((Tracked.fresh connected).service.subscribe true [upper]).2.2 := by
    rw [← reached, Tracked.act]
  have subscribes : (Tracked.fresh connected).service.accepts true [upper] = true := rfl
  have stored : t.service.subscribedInstruments = [] ++ [upper] := by
    rw [service, subscribe_instruments, subscribe_success, if_pos subscribes]
    rfl
  have accepted : t.service.accepts true [lowered] = true := by
    rw [service, subscribe_accepts]
    rfl
  have named : upper.lower ∈ [lowered].map InstrumentKey.lower := by
    rw [lower_spellings.1]
    exact List.mem_cons_self
  have plain : t.Plain (.unsubscribe true [lowered]) := Or.inl le_rfl
  have spelled := ((act_right first _).2 plain second accepted).1 upper (by simp [stored]) named
  exact lower_spellings.2 (by simpa using spelled)

def other : InstrumentKey := keyOf [69, 84, 72] (by decide)

theorem lower_other : upper.lower ≠ other.lower := by
  rw [Ne, InstrumentKey.lower, InstrumentKey.lower, ← String.toList_inj, String.toLower,
    String.toLower, String.toList_map, String.toList_map]
  decide

/-- Two keys, of which the first one is unsubscribed. -/
theorem queries_right_iff_two :
    ∀ t ∈ Runs.states Tracked.act (.fresh connected) [.subscribe true [upper, other],
      .unsubscribe true [upper]],
      t.Right := by
  refine (queries_right_iff connected _).1 ?_
  simp only [Runs.moves, List.forall_mem_cons, List.not_mem_nil, false_implies,
    implies_true, and_true]
  refine ⟨fun _ => ⟨by simpa using lower_other, fun key _ => rfl⟩, fun _ => ?_⟩
  have stored :
      ((Tracked.fresh connected).act
        (.subscribe true [upper, other])).service.subscribedInstruments =
      [upper, other] := by
    have subscribes : (Tracked.fresh connected).service.accepts true [upper, other] = true := rfl
    rw [Tracked.act, subscribe_instruments, subscribe_success, if_pos subscribes]
    rfl
  rw [stored]
  constructor
  · intro entry member named
    simp only [List.mem_cons, List.not_mem_nil, or_false, List.map_cons,
      List.map_nil] at member named ⊢
    rcases member with rfl | rfl
    · rfl
    · exact absurd named.symm lower_other
  · intro erasure member
    rw [Runs.moves, Runs.moves, List.mem_singleton] at member
    subst member
    exact (List.isChain_pair.mpr (by decide) : [upper, other].IsChain InstrumentKey.EndsWith)

end Subscriptions
end BTrader.BinanceData
