import BTrader.Core.Types
import BTrader.Infra.CharArray

/-! Records with character arrays, and the stores that keep them by assignment. A record is
assigned member by member; a key without an entry gets one with zeroed arrays first. -/
namespace BTrader.Infra.CharArray
variable {N : Nat}

/-- There are only zeros behind the string. -/
def Padded (a : CharArray N) : Prop := ∃ zeros, a.bytes = a.chars ++ List.replicate zeros 0

/-- The string as text, a character for each byte. -/
def text (a : CharArray N) : String := .ofList (a.chars.map fun c => Char.ofNat c.toNat)

theorem padded_zero (N : Nat) : (zero N).Padded := by
  have none : (zero N).chars = [] := by cases N <;> rfl
  exact ⟨N, by rw [none]; rfl⟩

theorem Padded.assign_chars {a : CharArray N} (padded : a.Padded) {s : List UInt8} (plain : 0 ∉ s)
    (short : s.length ≤ N) :
    (a.assign s).Padded ∧ (a.assign s).chars = s ++ a.chars.drop s.length := by
  obtain ⟨zeros, bytes⟩ := padded
  have nothing (n : Nat) : CString.chars (List.replicate n 0) = [] := by cases n <;> rfl
  have whole : (a.assign s).bytes =
      (s ++ a.chars.drop s.length) ++ List.replicate (zeros - (s.length - a.chars.length)) 0 := by
    change CString.overwrite a.bytes s = _
    rw [CString.overwrite_of_le (by rwa [a.length]), bytes, List.drop_append, List.drop_replicate,
      List.append_assoc]
  have plain' : 0 ∉ s ++ a.chars.drop s.length := by
    simp only [List.mem_append, not_or]
    exact ⟨plain, fun member => a.chars_plain (List.mem_of_mem_drop member)⟩
  have chars : (a.assign s).chars = s ++ a.chars.drop s.length := by
    change CString.chars (a.assign s).bytes = _
    rw [whole, CString.chars_append plain', nothing, List.append_nil]
  exact ⟨⟨_, by rw [chars, whole]⟩, chars⟩

/-- The arrays of the records in use, zeroed and then assigned, hold what their strings say. -/
theorem Padded.assignFrom {a : CharArray N} (padded : a.Padded) (other : CharArray N) :
    (a.assignFrom other).Padded ∧ (a.assignFrom other).text = assignString a.text other.text := by
  have short : other.chars.length ≤ N := (CString.chars_length_le other.bytes).trans other.length.le
  obtain ⟨again, chars⟩ := padded.assign_chars other.chars_plain short
  refine ⟨again, ?_⟩
  change String.ofList (List.map _ (a.assign other.chars).chars) = _
  rw [chars]
  simp [assignString, text, List.map_drop]

end BTrader.Infra.CharArray

namespace BTrader.RecordStores
open Infra

/-- A record with an array for each of the names, and its other members. -/
structure Record {ι : Type} (size : ι → Nat) (δ : Type) where
  strings (i : ι) : CharArray (size i)
  rest : δ

namespace Record
variable {ι δ : Type} {size : ι → Nat}

def assign (r other : Record size δ) : Record size δ :=
  ⟨fun i => (r.strings i).assignFrom (other.strings i), other.rest⟩

/-- A new entry's arrays; its other members are about to be assigned. -/
def fresh (rest : δ) : Record size δ := ⟨fun i => .zero (size i), rest⟩

/-- `map[key] = record`, by what was there. -/
def put (old : Option (Record size δ)) (r : Record size δ) : Record size δ :=
  (old.getD (fresh r.rest)).assign r

/-- All arrays hold NUL-terminated strings. -/
def Terminated (r : Record size δ) : Prop := ∀ i, (r.strings i).toString.isSome

instance [Fintype ι] (r : Record size δ) : Decidable r.Terminated :=
  inferInstanceAs (Decidable (∀ i, (r.strings i).toString.isSome))

/-- The record gives back what was set. -/
def Returns (r other : Record size δ) : Prop :=
  r.rest = other.rest ∧ ∀ i, (r.strings i).toString = (other.strings i).toString

/-- Where the strings of the other record end, the arrays have NULs. -/
def EndsWith (r other : Record size δ) : Prop :=
  ∀ i, (r.strings i).bytes[(other.strings i).chars.length]? = some 0

theorem Terminated.toString {r : Record size δ} (terminated : r.Terminated) (i : ι) :
    (r.strings i).toString = some (r.strings i).chars := by
  obtain ⟨s, read⟩ := Option.isSome_iff_exists.mp (terminated i)
  rw [read, CharArray.toString_chars read]

theorem Terminated.short {r : Record size δ} (terminated : r.Terminated) (i : ι) :
    (r.strings i).chars.length < size i :=
  CharArray.chars_length_lt (terminated.toString i)

theorem assign_returns_iff {r other : Record size δ} (terminated : other.Terminated) :
    (r.assign other).Returns other ↔ r.EndsWith other := by
  have each (i : ι) : ((r.assign other).strings i).toString = (other.strings i).toString ↔
      (r.strings i).bytes[(other.strings i).chars.length]? = some 0 := by
    rw [terminated.toString i]
    exact CharArray.toString_assign_iff (CharArray.chars_plain _) (terminated.short i)
  exact ⟨fun returns i => (each i).mp (returns.2 i),
    fun ends => ⟨rfl, fun i => (each i).mpr (ends i)⟩⟩

theorem fresh_endsWith {other : Record size δ} (terminated : other.Terminated) (rest : δ) :
    (fresh rest : Record size δ).EndsWith other := by
  intro i
  have short := terminated.short i
  change (List.replicate (size i) 0)[(other.strings i).chars.length]? = some 0
  rw [List.getElem?_replicate, if_pos short]

theorem fresh_assign_chars (rest : δ) (r : Record size δ) (i : ι) :
    (((fresh rest).assign r).strings i).chars = (r.strings i).chars :=
      (CharArray.zero_assignFrom _).1

/-- A record that goes through new ones, terminated or not. -/
theorem fresh_assign_returns (rest rest' : δ) (r : Record size δ) :
    ((fresh rest).assign ((fresh rest').assign r)).Returns r :=
  ⟨rfl, fun _ => (CharArray.zero_assignFrom _).2.trans (CharArray.zero_assignFrom _).2⟩

/-- What is set comes back just when the record in its place has NULs where the new strings
end. -/
theorem put_returns_iff {old : Option (Record size δ)} {r : Record size δ}
    (terminated : r.Terminated) :
    (put old r).Returns r ↔ ∀ before ∈ old, before.EndsWith r := by
  rw [put, assign_returns_iff terminated]
  cases old with
  | none => simpa using fresh_endsWith terminated r.rest
  | some before => simp

/-- A record read through another one: both have to have the NULs. -/
theorem assign_assign_returns_iff {output old other : Record size δ}
    (terminated : other.Terminated) :
    (output.assign (old.assign other)).Returns other ↔ old.EndsWith other ∧
      output.EndsWith other := by
  have each (i : ι) :
      ((output.assign (old.assign other)).strings i).toString = (other.strings i).toString ↔
      (old.strings i).bytes[(other.strings i).chars.length]? = some 0 ∧
        (output.strings i).bytes[(other.strings i).chars.length]? = some 0 := by
    rw [terminated.toString i]
    exact CString.read_overwrite_overwrite_iff (CharArray.chars_plain _)
      (by rw [(old.strings i).length]; exact terminated.short i)
        (by rw [(output.strings i).length, (old.strings i).length])
  constructor
  · intro returns
    exact ⟨fun i => ((each i).mp (returns.2 i)).1, fun i => ((each i).mp (returns.2 i)).2⟩
  · rintro ⟨first, second⟩
    exact ⟨rfl, fun i => (each i).mpr ⟨first i, second i⟩⟩

theorem put_assign_returns_iff {output : Record size δ} {old : Option (Record size δ)}
    {r : Record size δ} (terminated : r.Terminated) :
    (output.assign (put old r)).Returns r ↔ (∀ before ∈ old, before.EndsWith r) ∧
      output.EndsWith r := by
  rw [put, assign_assign_returns_iff terminated]
  cases old with
  | none => simp [fresh_endsWith terminated r.rest]
  | some before => simp

end Record

/-- A map from keys to records. -/
abbrev Entries (κ : Type) {ι : Type} (size : ι → Nat) (δ : Type) := κ → Option (Record size δ)

def Entries.set {κ ι δ : Type} {size : ι → Nat} [DecidableEq κ]
    (entries : Entries κ size δ) (key : κ) (r : Record size δ) : Entries κ size δ :=
  Function.update entries key (some (.put (entries key) r))

section
variable {κ ι δ : Type} {size : ι → Nat} [DecidableEq κ] {entries : Entries κ size δ} {key : κ}
    {r : Record size δ}

theorem Entries.set_returns_iff (terminated : r.Terminated) :
    (∃ e, entries.set key r key = some e ∧ e.Returns r) ↔
      ∀ before ∈ entries key, before.EndsWith r := by
  rw [← Record.put_returns_iff terminated, Entries.set, Function.update_self]
  simp

end

/-! The arrays of `Order`, `Trade`, `Position` and `InstrumentDepth`. -/

inductive OrderString where
  | externalOrderId | tradingDay | instrumentId | exchangeId | errorMsg

def OrderString.size : OrderString → Nat
  | externalOrderId => 32
  | tradingDay => 9
  | instrumentId => 32
  | exchangeId => 16
  | errorMsg => 256

inductive TradeString where
  | externalOrderId | externalTradeId | tradingDay | instrumentId | exchangeId

def TradeString.size : TradeString → Nat
  | externalOrderId => 32
  | externalTradeId => 32
  | tradingDay => 9
  | instrumentId => 32
  | exchangeId => 16

inductive PositionString where
  | tradingDay | instrumentId | exchangeId
  deriving DecidableEq

instance : Fintype PositionString :=
  ⟨{.tradingDay, .instrumentId, .exchangeId}, fun i => by cases i <;> decide⟩

def PositionString.size : PositionString → Nat
  | tradingDay => 9
  | instrumentId => 32
  | exchangeId => 16

inductive DepthString where
  | instrumentId | exchangeId

def DepthString.size : DepthString → Nat
  | instrumentId => 32
  | exchangeId => 16

/-- The orders by their ids. -/
structure OrderBook (δ : Type) where
  orders : Entries UInt64 OrderString.size δ

namespace OrderBook
variable {δ : Type} (orderId : δ → UInt64)

def set (book : OrderBook δ) (order : Record OrderString.size δ) : OrderBook δ :=
  ⟨book.orders.set (orderId order.rest) order⟩

def get (book : OrderBook δ) (id : UInt64) : Option (Record OrderString.size δ) := book.orders id

end OrderBook

/-- The trades by their ids. -/
structure TradeBook (δ : Type) where
  trades : Entries UInt64 TradeString.size δ

namespace TradeBook
variable {δ : Type} (tradeId : δ → UInt64)

def set (book : TradeBook δ) (trade : Record TradeString.size δ) : TradeBook δ :=
  ⟨book.trades.set (tradeId trade.rest) trade⟩

def get (book : TradeBook δ) (id : UInt64) : Option (Record TradeString.size δ) := book.trades id

end TradeBook

/-- The long and the short positions by the hash of their instrument. -/
structure PositionBook (δ : Type) where
  longPositions : Entries UInt32 PositionString.size δ
  shortPositions : Entries UInt32 PositionString.size δ

namespace PositionBook
variable {δ : Type} (direction : δ → Direction)

def hashInstrument (exchangeId : CharArray 16) (instrumentId : CharArray 32) : UInt32 :=
  hash32 instrumentId.chars ^^^ hash32 exchangeId.chars

def set (book : PositionBook δ) (position : Record PositionString.size δ) : PositionBook δ :=
  let key := hashInstrument (position.strings .exchangeId) (position.strings .instrumentId)
  if direction position.rest = .long then
    { book with longPositions := book.longPositions.set key position }
  else { book with shortPositions := book.shortPositions.set key position }

def get (book : PositionBook δ) (instrumentId : CharArray 32) (exchangeId : CharArray 16)
    (side : Direction) :
    Option (Record PositionString.size δ) :=
  let key := hashInstrument exchangeId instrumentId
  if side = .long then book.longPositions key else book.shortPositions key

end PositionBook

/-- The board's records in the order they were added, up to `used_length`, and where the
record of a hash stands. -/
structure DepthCallBoard (δ : Type) where
  isWriting : Bool
  records : List (Record DepthString.size δ)
  dataPositions : UInt32 → Option (Fin records.length)

namespace DepthCallBoard
variable {δ : Type}

/-- The buffer is cleared, whatever was in it. -/
def init (isWriting : Bool) : DepthCallBoard δ := ⟨isWriting, [], fun _ => none⟩

/-- `*ptr = input` at a position that is known. -/
def assign (board : DepthCallBoard δ) (i : Fin board.records.length)
    (input : Record DepthString.size δ) :
    DepthCallBoard δ where
  isWriting := board.isWriting
  records := board.records.set i (.put (some (board.records.get i)) input)
  dataPositions := fun key => (board.dataPositions key).map (Fin.cast List.length_set.symm)

/-- The same at `used_length`. The buffer behind the records is still as it was cleared; it is
taken to have the room. -/
def append (board : DepthCallBoard δ) (id : UInt32) (input : Record DepthString.size δ) :
    DepthCallBoard δ where
  isWriting := board.isWriting
  records := board.records ++ [.put none input]
  dataPositions :=
    Function.update (fun key => (board.dataPositions key).map (Fin.castLE (by simp))) id
    (some ⟨board.records.length, by simp⟩)

def set (board : DepthCallBoard δ) (instrumentId : CharArray 32)
    (input : Record DepthString.size δ) :
    DepthCallBoard δ :=
  if ¬ board.isWriting then board
  else
    let id := hash32 instrumentId.chars
    match board.dataPositions id with
    | some i => board.assign i input
    | none => board.append id input

/-- The position that is known, or the first record with an instrument of that hash. -/
def find (board : DepthCallBoard δ) (id : UInt32) : Option (Fin board.records.length) :=
  match board.dataPositions id with
  | some i => some i
  | none => (List.finRange board.records.length).find? fun i =>
      hash32 ((board.records.get i).strings .instrumentId).chars = id

/-- The record is assigned to the output. A position found is kept for the next call. -/
def get (board : DepthCallBoard δ) (instrumentId : CharArray 32)
    (output : Record DepthString.size δ) :
    Option (Record DepthString.size δ) × DepthCallBoard δ :=
  let id := hash32 instrumentId.chars
  match board.find id with
  | some i =>
    (some (output.assign (board.records.get i)),
      { board with dataPositions := Function.update board.dataPositions id (some i) })
  | none => (none, board)

theorem get_known {board : DepthCallBoard δ} {instrumentId : CharArray 32}
    {i : Fin board.records.length}
    (known : board.dataPositions (hash32 instrumentId.chars) = some i)
    (output : Record DepthString.size δ) :
    (board.get instrumentId output).1 = some (output.assign (board.records.get i)) := by
  simp only [get, find, known]

theorem get_set (board : DepthCallBoard δ) (instrumentId : CharArray 32)
    (input output : Record DepthString.size δ) (writing : board.isWriting) :
    ((board.set instrumentId input).get instrumentId output).1 =
      some (output.assign
        (.put ((board.dataPositions (hash32 instrumentId.chars)).map board.records.get)
          input)) := by
  cases known : board.dataPositions (hash32 instrumentId.chars) with
  | none =>
    have appended :
        board.set instrumentId input = board.append (hash32 instrumentId.chars) input := by
      simp only [set, writing, known, not_true, if_false]
    have here :
        (board.append (hash32 instrumentId.chars) input).dataPositions (hash32 instrumentId.chars) =
        some ⟨board.records.length, by simp [append]⟩ := by
      simp only [append, Function.update_self]
    rw [appended, get_known here]
    simp [append]
  | some i =>
    have assigned : board.set instrumentId input = board.assign i input := by
      simp only [set, writing, known, not_true, if_false]
    have here : (board.assign i input).dataPositions (hash32 instrumentId.chars) =
        some (Fin.cast List.length_set.symm i) := by
      simp only [assign, known, Option.map_some]
    rw [assigned, get_known here]
    simp [assign]

end DepthCallBoard

/-- An assignment stays inside its array just when the string fits, and the array then holds a
shorter string just when it had a NUL where this ends; a store gives back the strings that
were set just when the record under the key has NULs where they end. -/
theorem strings_returned_iff (δ : Type) :
    (∀ (N address : Nat) (s : List UInt8), 0 ∉ s →
      ((∀ op ∈ CharArray.assignAt address s, ∀ m x, (op m).Touches x → address ≤ x ∧
        x < address + N) ↔ s.length ≤ N) ∧
      ∀ m : ByteMemory.Memory, s.length < N →
        ((CharArray.ofMemory (m.execAll (CharArray.assignAt address s)) address N).toString =
        some s ↔
        m (address + s.length) = 0)) ∧
    (∀ (orderId : δ → UInt64) (book : OrderBook δ) (order : Record OrderString.size δ),
      order.Terminated →
      ((∃ e, (book.set orderId order).get (orderId order.rest) = some e ∧ e.Returns order) ↔
        ∀ before ∈ book.get (orderId order.rest), before.EndsWith order)) ∧
    (∀ (tradeId : δ → UInt64) (book : TradeBook δ) (trade : Record TradeString.size δ),
      trade.Terminated →
      ((∃ e, (book.set tradeId trade).get (tradeId trade.rest) = some e ∧ e.Returns trade) ↔
        ∀ before ∈ book.get (tradeId trade.rest), before.EndsWith trade)) ∧
    (∀ (direction : δ → Direction) (book : PositionBook δ) (position :
      Record PositionString.size δ), position.Terminated →
      ((∃ e, (book.set direction position).get (position.strings .instrumentId)
        (position.strings .exchangeId)
          (direction position.rest) = some e ∧ e.Returns position) ↔
        ∀ before ∈ book.get (position.strings .instrumentId) (position.strings .exchangeId)
          (direction position.rest), before.EndsWith position)) ∧
    ∀ (board : DepthCallBoard δ) (instrumentId : CharArray 32) (input output :
      Record DepthString.size δ),
      board.isWriting → input.Terminated →
      ((∃ e, ((board.set instrumentId input).get instrumentId output).1 = some e ∧
        e.Returns input) ↔
        (∀ i ∈ board.dataPositions (hash32 instrumentId.chars),
          (board.records.get i).EndsWith input) ∧
          output.EndsWith input) := by
  refine ⟨fun N address s plain => ⟨CharArray.assignAt_inside_iff address N s, fun m short => ?_⟩,
    fun orderId book order terminated => Entries.set_returns_iff terminated,
    fun tradeId book trade terminated => Entries.set_returns_iff terminated,
    fun direction book position terminated => ?_,
    fun board instrumentId input output writing terminated => ?_⟩
  · rw [CharArray.ofMemory_assign, CharArray.toString_assign_iff plain short,
      CharArray.ofMemory_get m address short, Option.some_inj]
  · by_cases long : direction position.rest = .long
    · simp only [PositionBook.set, PositionBook.get, if_pos long]
      exact Entries.set_returns_iff terminated
    · simp only [PositionBook.set, PositionBook.get, if_neg long]
      exact Entries.set_returns_iff terminated
  · rw [DepthCallBoard.get_set board instrumentId input output writing]
    have returns :
        (output.assign (.put
          ((board.dataPositions (hash32 instrumentId.chars)).map board.records.get) input)).Returns
        input ↔ _ := Record.put_assign_returns_iff terminated
    simpa using returns

/-- A longer date in the array shows behind a shorter one assigned to it. -/
theorem shorter_shows_rest :
    ¬ ∀ (N : Nat) (a : CharArray N) (s : List UInt8), 0 ∉ s → s.length < N →
      (a.assign s).toString = some s := by
  intro returned
  let date : CharArray 9 := ⟨[50, 48, 50, 52, 48, 49, 48, 50, 0], rfl⟩
  exact absurd (returned 9 date [49, 50] (by decide) (by decide)) (by decide)

end BTrader.RecordStores
