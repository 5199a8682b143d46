import BTrader.Core.PositionVolume

/-! The books keyed by `hash_instrument`, over any hash of strings: which instruments they
keep apart. -/
namespace BTrader
open PositionBook

inductive CurrencyType where
  | unknown | cny | hkd | usd | jpy | gbp | eur | cnh | sgd | myr
  deriving DecidableEq, Repr

/-- The struct `Instrument`. -/
structure InstrumentRecord where
  instrumentId : String
  exchangeId : String
  instrumentType : InstrumentType
  productId : Fin 128 → Int8
  contractMultiplier : Int32
  priceTick : ℚ
  openDate : String
  createDate : String
  expireDate : String
  deliveryYear : Int32
  deliveryMonth : Int32
  isTrading : Bool
  forceUpdateRatio : Bool
  longMarginRatio : ℚ
  shortMarginRatio : ℚ
  conversionRate : ℚ
  exchangeRate : ℚ
  currencyType : CurrencyType

/-- The product is copied whole, as it is no character array. -/
def InstrumentRecord.put (old : Option InstrumentRecord) (record : InstrumentRecord) :
    InstrumentRecord :=
  { record with
    instrumentId := assignString (old.elim "" instrumentId) record.instrumentId
    exchangeId := assignString (old.elim "" exchangeId) record.exchangeId
    openDate := assignString (old.elim "" openDate) record.openDate
    createDate := assignString (old.elim "" createDate) record.createDate
    expireDate := assignString (old.elim "" expireDate) record.expireDate }

def InstrumentRecord.instrument (record : InstrumentRecord) : Instrument :=
  (record.exchangeId, record.instrumentId)

def Position.instrument (position : Position) : Instrument :=
  (position.exchangeId, position.instrumentId)

/-- An entry of the same instrument is replaced by one of it. -/
theorem Position.put_instrument {old : Option Position} {position : Position}
    (own : ∀ before ∈ old, before.instrument = position.instrument) :
      (put old position).instrument = position.instrument := by
  cases old with
  | none => rw [put_none]
  | some before =>
    have same := own before rfl
    simp only [instrument, Prod.mk.injEq] at same
    simp only [instrument, put, Option.elim_some, same, assignString_self]

theorem InstrumentRecord.put_instrument {old : Option InstrumentRecord} {record : InstrumentRecord}
    (own : ∀ before ∈ old, before.instrument = record.instrument) :
      (put old record).instrument = record.instrument := by
  cases old with
  | none => simp only [instrument, put, Option.elim_none, assignString_empty]
  | some before =>
    have same := own before rfl
    simp only [instrument, Prod.mk.injEq] at same
    simp only [instrument, put, Option.elim_some, same, assignString_self]

structure InstrumentBook where
  instruments : UInt32 → Option InstrumentRecord

section
variable (hashStr32 : String → UInt32)

/-- `hash_instrument` of the two ids. -/
def Instrument.keyBy (instrument : Instrument) : UInt32 :=
  hashStr32 instrument.2 ^^^ hashStr32 instrument.1

namespace PositionBook

def setBy (book : PositionBook) (position : Position) : PositionBook :=
  let hashKey := position.instrument.keyBy hashStr32
  book.assign position.direction hashKey
    (some (.put (book.positions position.direction hashKey) position))

def getBy (book : PositionBook) (instrument : Instrument) (direction : Direction) :
    Option Position :=
  book.positions direction (instrument.keyBy hashStr32)

/-- The long position, then the short one. -/
def getAllPositionsBy (book : PositionBook) (instrument : Instrument) : List Position :=
  (book.longPositions (instrument.keyBy hashStr32)).toList ++
    (book.shortPositions (instrument.keyBy hashStr32)).toList

def updateBy (book : PositionBook) (trade : Trade) : PositionBook :=
  match positionDirection trade with
  | none => book
  | some direction =>
    let hashKey := trade.instrument.keyBy hashStr32
    match book.positions direction hashKey with
    | none => book.assign direction hashKey (some (created direction trade))
    | some position => book.assign direction hashKey (updated position trade)

def removePositionBy (book : PositionBook) (instrument : Instrument) (direction : Direction) :
    Bool × PositionBook :=
  let hashKey := instrument.keyBy hashStr32
  match book.positions direction hashKey with
  | none => (false, book)
  | some _ => (true, book.assign direction hashKey none)

end PositionBook

namespace InstrumentBook

def empty : InstrumentBook := ⟨fun _ => none⟩

def setBy (book : InstrumentBook) (record : InstrumentRecord) : InstrumentBook :=
  let hashKey := record.instrument.keyBy hashStr32
  ⟨Function.update book.instruments hashKey (some (.put (book.instruments hashKey) record))⟩

def getBy (book : InstrumentBook) (instrument : Instrument) : Option InstrumentRecord :=
  book.instruments (instrument.keyBy hashStr32)

def containsBy (book : InstrumentBook) (instrument : Instrument) : Bool :=
  (book.instruments (instrument.keyBy hashStr32)).isSome

def setBatchBy (book : InstrumentBook) (records : List InstrumentRecord) : InstrumentBook :=
  records.foldl (setBy hashStr32) book

end InstrumentBook
end

/-! With the program's own hash these are the functions of the books. -/

theorem Instrument.keyBy_eq (instrument : Instrument) :
    instrument.keyBy Infra.hashStr32 = instrument.key := rfl

namespace PositionBook

theorem setBy_eq (book : PositionBook) (position : Position) :
    book.setBy Infra.hashStr32 position = book.set position :=
  rfl

theorem getBy_eq (book : PositionBook) (instrument : Instrument) (direction : Direction) :
    book.getBy Infra.hashStr32 instrument direction =
      book.get instrument.2 instrument.1 direction := rfl

theorem updateBy_eq (book : PositionBook) (trade : Trade) :
    book.updateBy Infra.hashStr32 trade = book.update trade :=
  rfl

end PositionBook

/-- A call that changes a position book. -/
inductive PositionCall where
  | set (position : Position)
  | update (trade : Trade)
  | removePosition (instrument : Instrument) (direction : Direction)

namespace PositionCall
variable (hashStr32 : String → UInt32)

/-- The instrument a call concerns. -/
def instrument : PositionCall → Instrument
  | set position => position.instrument
  | update trade => trade.instrument
  | removePosition instrument _ => instrument

def run (book : PositionBook) : PositionCall → PositionBook
  | set position => book.setBy hashStr32 position
  | update trade => book.updateBy hashStr32 trade
  | removePosition instrument direction => (book.removePositionBy hashStr32 instrument direction).2

/-- A call leaves the book, or assigns one entry under its instrument's key: no entry, or one
with the instrument's ids where those found there had them. -/
theorem run_cases (book : PositionBook) (call : PositionCall) :
    call.run hashStr32 book = book ∨
      ∃ direction entry, call.run hashStr32 book =
        book.assign direction (call.instrument.keyBy hashStr32) entry ∧
        ((∀ position ∈ book.positions direction (call.instrument.keyBy hashStr32),
            position.instrument = call.instrument) →
          ∀ position ∈ entry, position.instrument = call.instrument) := by
  cases call with
  | set position =>
    refine .inr ⟨position.direction, _, rfl, fun own made member => ?_⟩
    cases member
    exact Position.put_instrument own
  | update trade =>
    simp only [run, updateBy, instrument]
    cases acts : positionDirection trade with
    | none => exact .inl rfl
    | some direction =>
      right
      cases found : book.positions direction (trade.instrument.keyBy hashStr32) with
      | none =>
        refine ⟨direction, some (created direction trade), by simp only [found],
          fun _ made member => ?_⟩
        cases member
        rfl
      | some position =>
        refine ⟨direction, updated position trade, by simp only [found], fun own made member => ?_⟩
        have same : position.instrument = trade.instrument := own position found
        simp only [updated, Option.mem_def] at member
        split at member
        · cases member
          exact same
        · split at member
          · contradiction
          · cases member
            exact same
  | removePosition instrument direction =>
    simp only [run, removePositionBy]
    cases found : book.positions direction (instrument.keyBy hashStr32) with
    | none => exact .inl rfl
    | some position => exact .inr ⟨direction, none, rfl, by simp⟩

variable {hashStr32}

theorem run_frame (book : PositionBook) (call : PositionCall) {key : UInt32}
    (other : key ≠ call.instrument.keyBy hashStr32) (direction : Direction) :
    (call.run hashStr32 book).positions direction key = book.positions direction key := by
  rcases run_cases hashStr32 book call with same | ⟨side, entry, assigned, _⟩
  · rw [same]
  · rw [assigned, assign_positions]
    split
    · exact Function.update_of_ne other _ _
    · rfl

/-- Every entry stands under its own key, and its ids are among the instruments. -/
def Owned (hashStr32 : String → UInt32) (instruments : Set Instrument)
    (book : PositionBook) : Prop :=
  ∀ direction key, ∀ position ∈ book.positions direction key,
    position.instrument ∈ instruments ∧ position.instrument.keyBy hashStr32 = key

theorem run_owned {instruments : Set Instrument} {book : PositionBook} {call : PositionCall}
    (distinct : Set.InjOn (Instrument.keyBy hashStr32) instruments)
    (known : call.instrument ∈ instruments) (owned : Owned hashStr32 instruments book) :
      Owned hashStr32 instruments (call.run hashStr32 book) := by
  rcases run_cases hashStr32 book call with same | ⟨side, entry, assigned, own⟩
  · rw [same]
    exact owned
  · have entries : ∀ position ∈ entry, position.instrument = call.instrument := by
      refine own fun position found => ?_
      obtain ⟨inside, key⟩ := owned side _ position found
      exact distinct inside known key
    intro direction key position found
    rw [assigned, assign_positions] at found
    split at found
    · by_cases here : key = call.instrument.keyBy hashStr32
      · subst here
        rw [Function.update_self] at found
        rw [entries position found]
        exact ⟨known, rfl⟩
      · rw [Function.update_of_ne here] at found
        exact owned direction key position found
    · exact owned direction key position found

end PositionCall

namespace InstrumentBook
variable {hashStr32 : String → UInt32}

/-- Every record stands under its own key, and its ids are among the instruments. -/
def Owned (hashStr32 : String → UInt32) (instruments : Set Instrument)
    (book : InstrumentBook) : Prop :=
  ∀ key, ∀ record ∈ book.instruments key,
    record.instrument ∈ instruments ∧ record.instrument.keyBy hashStr32 = key

theorem setBy_frame (book : InstrumentBook) (record : InstrumentRecord) {key : UInt32}
    (other : key ≠ record.instrument.keyBy hashStr32) :
    (book.setBy hashStr32 record).instruments key = book.instruments key :=
  Function.update_of_ne other _ _

theorem setBy_owned {instruments : Set Instrument} {book : InstrumentBook}
    {record : InstrumentRecord} (distinct : Set.InjOn (Instrument.keyBy hashStr32) instruments)
    (known : record.instrument ∈ instruments) (owned : book.Owned hashStr32 instruments) :
      (book.setBy hashStr32 record).Owned hashStr32 instruments := by
  intro key found member
  by_cases here : key = record.instrument.keyBy hashStr32
  · subst here
    simp only [setBy, Function.update_self] at member
    cases member
    have own : ∀ before ∈ book.instruments (record.instrument.keyBy hashStr32), before.instrument =
        record.instrument := by
      intro before found
      obtain ⟨inside, key⟩ := owned _ before found
      exact distinct inside known key
    rw [InstrumentRecord.put_instrument own]
    exact ⟨known, rfl⟩
  · exact owned key found ((setBy_frame book record here).symm.trans member)

end InstrumentBook

namespace Instrument
variable (hashStr32 : String → UInt32)

/-- What concerns the first instrument leaves what is found of the second. -/
structure Apart (first second : Instrument) : Prop where
  positions (book : PositionBook) (calls : List PositionCall)
    (concern : ∀ call ∈ calls, call.instrument = first) :
    (∀ direction, (calls.foldl (PositionCall.run hashStr32) book).getBy hashStr32 second direction =
        book.getBy hashStr32 second direction) ∧
      (calls.foldl (PositionCall.run hashStr32) book).getAllPositionsBy hashStr32 second =
        book.getAllPositionsBy hashStr32 second
  instruments (book : InstrumentBook) (records : List InstrumentRecord)
    (concern : ∀ record ∈ records, record.instrument = first) :
    (book.setBatchBy hashStr32 records).getBy hashStr32 second = book.getBy hashStr32 second ∧
      (book.setBatchBy hashStr32 records).containsBy hashStr32 second =
        book.containsBy hashStr32 second

/-- From empty books on, what is found bears the ids asked for. -/
structure Own (instruments : Set Instrument) : Prop where
  positions (calls : List PositionCall) (concern : ∀ call ∈ calls, call.instrument ∈ instruments)
    (asked : Instrument) (known : asked ∈ instruments) (direction : Direction) :
    ∀ position ∈ (calls.foldl (PositionCall.run hashStr32) .empty).getBy hashStr32 asked direction,
      position.instrument = asked
  instruments (records : List InstrumentRecord)
    (concern : ∀ record ∈ records, record.instrument ∈ instruments)
    (asked : Instrument) (known : asked ∈ instruments) :
    ∀ record ∈ (InstrumentBook.empty.setBatchBy hashStr32 records).getBy hashStr32 asked,
      record.instrument = asked

variable {hashStr32}

theorem apart_of_keys {first second : Instrument}
    (keys : first.keyBy hashStr32 ≠ second.keyBy hashStr32) :
    Apart hashStr32 first second where
  positions book calls concern := by
    have frame (direction : Direction) :
        (calls.foldl (PositionCall.run hashStr32) book).positions direction
          (second.keyBy hashStr32) =
          book.positions direction (second.keyBy hashStr32) := by
      induction calls generalizing book with
      | nil => rfl
      | cons call calls ih =>
        have own : call.instrument = first := concern call List.mem_cons_self
        rw [List.foldl_cons, ih _ fun call member => concern call (List.mem_cons_of_mem _ member)]
        exact PositionCall.run_frame book call (by rw [own]; exact keys.symm) direction
    have long := frame .long
    have short := frame .short
    simp only [PositionBook.positions, if_true, reduceCtorEq, if_false] at long short
    exact ⟨frame, by rw [getAllPositionsBy, getAllPositionsBy, long, short]⟩
  instruments book records concern := by
    have frame : (book.setBatchBy hashStr32 records).instruments (second.keyBy hashStr32) =
        book.instruments (second.keyBy hashStr32) := by
      induction records generalizing book with
      | nil => rfl
      | cons record records ih =>
        have own : record.instrument = first := concern record List.mem_cons_self
        have later := ih (book.setBy hashStr32 record) fun record member =>
            concern record (List.mem_cons_of_mem _ member)
        exact later.trans (InstrumentBook.setBy_frame book record (by rw [own]; exact keys.symm))
    exact ⟨frame, congrArg Option.isSome frame⟩

theorem own_of_keys {instruments : Set Instrument}
    (distinct : Set.InjOn (keyBy hashStr32) instruments) :
    Own hashStr32 instruments where
  positions calls concern asked known direction position found := by
    have start : PositionCall.Owned hashStr32 instruments .empty := by
      intro direction key position member
      cases direction <;> contradiction
    have owned :
        PositionCall.Owned hashStr32 instruments
          (calls.foldl (PositionCall.run hashStr32) .empty) :=
      List.foldlRecOn calls _ start fun _ owned call member =>
        PositionCall.run_owned distinct (concern call member) owned
    obtain ⟨inside, key⟩ := owned direction _ position found
    exact distinct inside known key
  instruments records concern asked known record found := by
    have start : InstrumentBook.empty.Owned hashStr32 instruments :=
      fun _ _ member => by contradiction
    have owned : (InstrumentBook.empty.setBatchBy hashStr32 records).Owned hashStr32 instruments :=
      List.foldlRecOn records _ start fun _ owned record member =>
        InstrumentBook.setBy_owned distinct (concern record member) owned
    obtain ⟨inside, key⟩ := owned _ record found
    exact distinct inside known key

/-- A position of the instrument, with nothing else in it. -/
def position (instrument : Instrument) : Position :=
  ⟨0, "", instrument.2, .unknown, instrument.1, .long, 1, 0, 0⟩

/-- Instruments kept apart have different keys. -/
theorem Apart.keys {first second : Instrument} (apart : Apart hashStr32 first second) :
    first.keyBy hashStr32 ≠ second.keyBy hashStr32 := by
  intro same
  have frame :=
    (apart.positions .empty [.set first.position]
      (by simp [PositionCall.instrument, position, Position.instrument])).1 .long
  have stored : (PositionBook.empty.setBy hashStr32 first.position).getBy hashStr32 second .long =
      some first.position := by
    rw [getBy, ← same]
    refine (Function.update_self _ _ _).trans ?_
    exact congrArg some (Position.put_none first.position)
  exact Option.some_ne_none _ (stored.symm.trans frame)

theorem keys_iff {instruments : Set Instrument}
    (injective :
      Set.InjOn hashStr32 {s | ∃ instrument ∈ instruments, s = instrument.1 ∨ s = instrument.2}) :
    Set.InjOn (keyBy hashStr32) instruments ↔
      ∀ first ∈ instruments, ∀ second ∈ instruments, first.1 ≠ second.1 → first.2 ≠ second.2 →
        hashStr32 first.1 ^^^ hashStr32 second.1 ≠ hashStr32 first.2 ^^^ hashStr32 second.2 :=
  Infra.xor_key_injOn_iff (fun _ _ => Prod.ext) injective

/-- Over any hash that tells the strings apart, the books keep the instruments apart if and
only if there are no two with different exchanges and different ids whose hashes differ in
the same bits. -/
theorem apart_iff (hashStr32 : String → UInt32) (instruments : Set Instrument)
    (injective :
      Set.InjOn hashStr32 {s | ∃ instrument ∈ instruments, s = instrument.1 ∨ s = instrument.2}) :
    ((∀ first ∈ instruments, ∀ second ∈ instruments, first ≠ second →
      Apart hashStr32 first second) ∧
        Own hashStr32 instruments) ↔
      ∀ first ∈ instruments, ∀ second ∈ instruments, first.1 ≠ second.1 → first.2 ≠ second.2 →
        hashStr32 first.1 ^^^ hashStr32 second.1 ≠ hashStr32 first.2 ^^^ hashStr32 second.2 := by
  rw [← keys_iff injective]
  constructor
  · rintro ⟨apart, _⟩ first here second there same
    by_contra different
    exact (apart first here second there different).keys same
  · intro distinct
    refine ⟨fun first here second there different => ?_, own_of_keys distinct⟩
    exact apart_of_keys fun same => different (distinct here there same)

theorem apart_iff_two :
    ((∀ first ∈ ({("X", "IF"), ("Y", "IC")} : Set Instrument),
      ∀ second ∈ ({("X", "IF"), ("Y", "IC")} : Set Instrument),
        first ≠ second → Apart Infra.hashStr32 first second) ∧
          Own Infra.hashStr32 {("X", "IF"), ("Y", "IC")}) ↔
      ∀ first ∈ ({("X", "IF"), ("Y", "IC")} : Set Instrument),
        ∀ second ∈ ({("X", "IF"), ("Y", "IC")} : Set Instrument),
        first.1 ≠ second.1 → first.2 ≠ second.2 →
        Infra.hashStr32 first.1 ^^^ Infra.hashStr32 second.1 ≠
          Infra.hashStr32 first.2 ^^^ Infra.hashStr32 second.2 := by
  have distinct : (["X", "IF", "Y", "IC"].map Infra.hashStr32).Nodup := by decide +kernel
  have inside (s : String) (used : ∃ instrument ∈ ({("X", "IF"), ("Y", "IC")} : Set Instrument),
      s = instrument.1 ∨ s = instrument.2) : s ∈ ["X", "IF", "Y", "IC"] := by
    obtain ⟨instrument, rfl | rfl, rfl | rfl⟩ := used <;> decide
  exact apart_iff Infra.hashStr32 _ fun a here b there same =>
    List.inj_on_of_nodup_map distinct (inside a here) (inside b there) same

/-- An instrument and the one with its ids swapped share an entry. -/
theorem swapped_merge :
    ¬ ∀ (hashStr32 : String → UInt32) (first second : Instrument),
      Set.InjOn hashStr32 {first.1, first.2, second.1, second.2} → first ≠ second →
        Apart hashStr32 first second := by
  intro apart
  have injective : Set.InjOn Infra.hashStr32 {"ETH", "BTC", "BTC", "ETH"} := by
    have different : Infra.hashStr32 "ETH" ≠ Infra.hashStr32 "BTC" := by decide +kernel
    simp [Set.InjOn, different, different.symm]
  exact (apart Infra.hashStr32 ("ETH", "BTC") ("BTC", "ETH") injective (by decide)).keys
    (by decide +kernel)

end Instrument
end BTrader
