import BTrader.Lib.ByteReader
import BTrader.Core.RecordStores
import BTrader.Journal.Frame

/-! The messages of variable length: `Register`, `Deregister`, `MDSubscribe` and
`PositionBook`, how they are written to bytes and read back. Enumerators are their bytes,
`double` values their representations. -/
namespace BTrader.Messages
open ByteMemory ByteReader Infra RecordStores

structure Register where
  locationUid : UInt32
  category : UInt8
  mode : UInt8
  group : List UInt8
  name : List UInt8
  pid : Int32
  lastActiveTime : Int64
  checkinTime : Int64

structure Deregister where
  locationUid : UInt32
  category : UInt8
  mode : UInt8
  group : List UInt8
  name : List UInt8

/-- An `InstrumentKey` with the three bytes of padding behind its type. -/
structure InstrumentKey where
  key : UInt32
  instrumentId : CharArray 32
  exchangeId : CharArray 16
  instrumentType : UInt8
  padding : Block 3

def sizeofInstrumentKey : Nat := 56

structure MDSubscribe where
  id : UInt32
  instrumentKeys : List InstrumentKey

/-- The members of a `Position` that are not strings. -/
structure PositionData where
  updateTime : Int64
  instrumentType : UInt8
  direction : UInt8
  volume : UInt64
  positionCostPrice : UInt64
  unrealizedPnl : UInt64

abbrev Position := Record PositionString.size PositionData

def sizeofPosition : Nat := 96

/-- A `PositionBook` with its maps in the order they are iterated in. -/
structure PositionBook where
  longPositions : List (UInt32 × Position)
  shortPositions : List (UInt32 × Position)
  longDistinct : (longPositions.map Prod.fst).Nodup
  shortDistinct : (shortPositions.map Prod.fst).Nodup

/-! The values of `MsgTag`. -/

def MDSubscribe.tag : Int32 := 3
def Register.tag : Int32 := 17
def Deregister.tag : Int32 := 18
def PositionBook.tag : Int32 := 26

/-! `to_string` -/

def Register.toString (r : Register) : List UInt8 :=
  toLE 4 r.locationUid.toNat ++ (toLE 1 r.category.toNat ++ (toLE 1 r.mode.toNat ++
    ((toLE 4 r.group.length ++ r.group) ++ ((toLE 4 r.name.length ++ r.name) ++
      (toLE 4 r.pid.toUInt32.toNat ++
        (toLE 8 r.lastActiveTime.toUInt64.toNat ++ toLE 8 r.checkinTime.toUInt64.toNat))))))

def Deregister.toString (r : Deregister) : List UInt8 :=
  toLE 4 r.locationUid.toNat ++ (toLE 1 r.category.toNat ++ (toLE 1 r.mode.toNat ++
    ((toLE 4 r.group.length ++ r.group) ++ (toLE 4 r.name.length ++ r.name))))

/-- The bytes of the object. -/
def InstrumentKey.object (k : InstrumentKey) : List UInt8 :=
  toLE 4 k.key.toNat ++
    (k.instrumentId.bytes ++
    (k.exchangeId.bytes ++ (toLE 1 k.instrumentType.toNat ++ k.padding.bytes)))

def MDSubscribe.toString (m : MDSubscribe) : List UInt8 :=
  toLE 4 m.id.toNat ++ m.instrumentKeys.flatMap InstrumentKey.object

/-- The bytes of the object that a position is assigned to, in a buffer of zeros. -/
def Position.object (p : Position) : List UInt8 :=
  let assigned : Position := .put none p
  toLE 8 p.rest.updateTime.toUInt64.toNat ++ ((assigned.strings .tradingDay).bytes ++
    ((assigned.strings .instrumentId).bytes ++ (toLE 1 p.rest.instrumentType.toNat ++
      ((assigned.strings .exchangeId).bytes ++
        (toLE 1 p.rest.direction.toNat ++ (List.replicate 5 0 ++
        (toLE 8 p.rest.volume.toNat ++
          (toLE 8 p.rest.positionCostPrice.toNat ++ toLE 8 p.rest.unrealizedPnl.toNat))))))))

def PositionBook.entry (entry : UInt32 × Position) : List UInt8 :=
  toLE 4 entry.1.toNat ++ Position.object entry.2

def PositionBook.toString (book : PositionBook) : List UInt8 :=
  toLE 4 book.longPositions.length ++ (toLE 4 book.shortPositions.length ++
    (book.longPositions.flatMap entry ++ book.shortPositions.flatMap entry))

/-! The constructors from a frame's bytes. -/

/-- `Event::data<T>()` for a type of variable length, by its constructor. -/
def Event.data {α : Type} (construct : UInt32 → Decoder α) (m : Memory) (frame : Nat) :
    Except Failure α :=
  match construct (FrameUnit.dataLength m frame) (FrameUnit.read m frame).data with
  | .ok a _ => .ok a
  | .error e _ => .error e

def charArray (n : Nat) : Decoder (CharArray n) := do
  let b ← block n
  return ⟨b.bytes, b.length⟩

def Register.read : Decoder Register := do
  let locationUid ← word32
  let category ← word8
  let mode ← word8
  let group ← sized
  let name ← sized
  let pid ← int32
  let lastActiveTime ← int64
  let checkinTime ← int64
  return ⟨locationUid, category, mode, group, name, pid, lastActiveTime, checkinTime⟩

def Deregister.read : Decoder Deregister := do
  let locationUid ← word32
  let category ← word8
  let mode ← word8
  let group ← sized
  let name ← sized
  return ⟨locationUid, category, mode, group, name⟩

def InstrumentKey.read : Decoder InstrumentKey := do
  let key ← word32
  let instrumentId ← charArray 32
  let exchangeId ← charArray 16
  let instrumentType ← word8
  let padding ← block 3
  return ⟨key, instrumentId, exchangeId, instrumentType, padding⟩

/-- The number of keys is what the length leaves room for. -/
def MDSubscribe.read (len : UInt32) : Decoder MDSubscribe := do
  let id ← word32
  let len := len - 4
  let keysCount := len.toNat / sizeofInstrumentKey
  let keys ← loop (fun keys => do return keys ++ [← InstrumentKey.read]) keysCount []
  return ⟨id, keys⟩

def Position.read : Decoder Position := do
  let updateTime ← int64
  let tradingDay ← charArray 9
  let instrumentId ← charArray 32
  let instrumentType ← word8
  let exchangeId ← charArray 16
  let direction ← word8
  let _ ← block 5
  let volume ← word64
  let positionCostPrice ← word64
  let unrealizedPnl ← word64
  return {
    strings := fun
      | .tradingDay => tradingDay
      | .instrumentId => instrumentId
      | .exchangeId => exchangeId
    rest := ⟨updateTime, instrumentType, direction, volume, positionCostPrice, unrealizedPnl⟩ }

namespace PositionBook

/-- What `positions[key] = position` makes of one of the maps. -/
abbrev Assign := Entries UInt32 PositionString.size PositionData → UInt32 → Position →
  Decoder (Entries UInt32 PositionString.size PositionData)

/-- A string without a NUL is taken to end with its array. -/
def assign : Assign := fun positions key position => return positions.set key position

/-- `strlen` as it is: without a NUL it reads behind the array. -/
def assignChecked : Assign := fun positions key position =>
  if position.Terminated then return positions.set key position else throw .outside

/-- One round of either loop. -/
def readEntry (assign : Assign) (positions : Entries UInt32 PositionString.size PositionData) :
    Decoder (Entries UInt32 PositionString.size PositionData) := do
  let key ← word32
  let position ← Position.read
  assign positions key position

/-- The length a book of that many positions is expected to have, a `uint32_t` of a `size_t`. -/
def expectedSize (longSize shortSize : UInt32) : UInt32 :=
  UInt32.ofNat (4 * 2 + longSize.toNat * (4 + sizeofPosition) + shortSize.toNat *
    (4 + sizeofPosition))

def readBy (assign : Assign) (len : UInt32) : Decoder (RecordStores.PositionBook PositionData) :=
  if len < 4 * 2 then throw (.thrown "PositionBook data too short")
  else do
    let longSize ← word32
    let shortSize ← word32
    if len < expectedSize longSize shortSize then
      throw (.thrown "PositionBook data length mismatch")
    else do
      let longPositions ← loop (readEntry assign) longSize.toNat fun _ => none
      let shortPositions ← loop (readEntry assign) shortSize.toNat fun _ => none
      return ⟨longPositions, shortPositions⟩

def read (len : UInt32) : Decoder (RecordStores.PositionBook PositionData) := readBy assign len

end PositionBook
end BTrader.Messages
