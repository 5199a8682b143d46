import BTrader.Core.RecordStores
import BTrader.Lib.Runs

/-! The board of depths in a mapping that two processes share: the one sets, the other gets.
Both keep the addresses of the records they know. -/
namespace BTrader.Extension
open Infra
open RecordStores (Record DepthString)

/-- The header of the mapping, and the record that begins at an offset. Records are of one
size and begin behind the header and behind one another. -/
structure Mapping (δ : Type) where
  length : Nat
  headerLength : Nat
  usedLength : Nat
  elmSize : Nat
  records : Nat → Record DepthString.size δ

/-- The board of one process; `attached` when `header_` points to the mapping. -/
structure DepthCallBoard where
  isWriting : Bool
  attached : Bool
  dataPositions : UInt32 → Option Nat

/-- `sizeof(Header)`. -/
def sizeofHeader : Nat := 16

namespace DepthCallBoard
variable {δ : Type}

def make : DepthCallBoard := ⟨false, false, fun _ => none⟩

/-- The mapping is cleared for a reader as for a writer. The addresses are kept. The lengths in
the header are of 32 bits. -/
def init [Zero δ] (board : DepthCallBoard) (size elmSize : Nat) (isWriting : Bool) :
    DepthCallBoard × Mapping δ :=
  ({ board with isWriting := isWriting, attached := true },
    { length := size % 2 ^ 32, headerLength := sizeofHeader, usedLength := sizeofHeader,
      elmSize := elmSize % 2 ^ 32, records := fun _ => .fresh 0 })

/-- The loop of `get` over the records, from the pointer on. -/
def scan (sizeof : Nat) [NeZero sizeof] (mapping : Mapping δ) (id : UInt32) (ptr : Nat) :
    Option Nat :=
  if ptr + sizeof ≤ mapping.usedLength then
    if id = hash32 ((mapping.records ptr).strings .instrumentId).chars then some ptr
    else scan sizeof mapping id (ptr + sizeof)
  else none
termination_by mapping.usedLength - ptr
decreasing_by
  have := NeZero.pos sizeof
  omega

/-- The record's address, from the map or from the loop, which enters it in the map. -/
def get (sizeof : Nat) [NeZero sizeof] (board : DepthCallBoard) (mapping : Mapping δ)
    (instrumentId : CharArray 32)
    (output : Record DepthString.size δ) : Option (Record DepthString.size δ) × DepthCallBoard :=
  let id := hash32 instrumentId.chars
  match board.dataPositions id with
  | some ptr => (some (output.assign (mapping.records ptr)), board)
  | none =>
    match scan sizeof mapping id mapping.headerLength with
    | some ptr =>
      (some (output.assign (mapping.records ptr)),
        { board with dataPositions := Function.update board.dataPositions id (some ptr) })
    | none => (none, board)

/-- `*ptr = input`. -/
def store (mapping : Mapping δ) (ptr : Nat) (input : Record DepthString.size δ) : Mapping δ :=
  { mapping with records :=
    Function.update mapping.records ptr ((mapping.records ptr).assign input) }

def set (sizeof : Nat) (board : DepthCallBoard) (mapping : Mapping δ) (instrumentId : CharArray 32)
    (input : Record DepthString.size δ) : DepthCallBoard × Mapping δ :=
  if ¬ board.isWriting then (board, mapping)
  else
    let id := hash32 instrumentId.chars
    match board.dataPositions id with
    | some ptr => (board, store mapping ptr input)
    | none =>
      ({ board with dataPositions :=
        Function.update board.dataPositions id (some mapping.usedLength) },
        store { mapping with usedLength := (mapping.usedLength + sizeof) % 2 ^ 32 }
          mapping.usedLength input)

section
variable {mapping : Mapping δ}

@[simp] theorem store_self (ptr : Nat) (input : Record DepthString.size δ) :
    (store mapping ptr input).records ptr = (mapping.records ptr).assign input := by
  simp only [store, Function.update_self]

theorem store_other {ptr other : Nat} (different : other ≠ ptr)
    (input : Record DepthString.size δ) :
    (store mapping ptr input).records other = mapping.records other := by
  simp only [store, Function.update_of_ne different]

variable {sizeof : Nat} [NeZero sizeof] {id : UInt32}

/-- What the loop finds is a record of that hash, some records behind the pointer. -/
theorem scan_some {ptr found : Nat} (result : scan sizeof mapping id ptr = some found) :
    (∃ k, found = ptr + k * sizeof) ∧ found + sizeof ≤ mapping.usedLength ∧
      id = hash32 ((mapping.records found).strings .instrumentId).chars := by
  induction ptr using scan.induct sizeof mapping id with
  | case1 ptr inside here =>
    rw [scan, if_pos inside, if_pos here] at result
    cases result
    exact ⟨⟨0, by simp⟩, inside, here⟩
  | case2 ptr inside other ih =>
    rw [scan, if_pos inside, if_neg other] at result
    obtain ⟨⟨k, place⟩, bound, same⟩ := ih result
    refine ⟨⟨k + 1, ?_⟩, bound, same⟩
    rw [place]
    ring
  | case3 ptr beyond =>
    rw [scan, if_neg beyond] at result
    cases result

/-- A record that is not in the map yet is the first that the loop finds. -/
theorem get_scan {board : DepthCallBoard} {instrumentId : CharArray 32} {ptr : Nat}
    (unknown : board.dataPositions (hash32 instrumentId.chars) = none)
    (found : scan sizeof mapping (hash32 instrumentId.chars) mapping.headerLength = some ptr)
    (output : Record DepthString.size δ) :
    (board.get sizeof mapping instrumentId output).1 =
      some (output.assign (mapping.records ptr)) := by
  simp only [get, unknown, found]

/-- The loop passes no record of that hash. -/
theorem scan_isSome {ptr : Nat} (k : Nat) (inside : ptr + k * sizeof + sizeof ≤ mapping.usedLength)
    (here : id = hash32 ((mapping.records (ptr + k * sizeof)).strings .instrumentId).chars) :
    (scan sizeof mapping id ptr).isSome := by
  induction k generalizing ptr with
  | zero =>
    rw [Nat.zero_mul, Nat.add_zero] at inside here
    rw [scan, if_pos inside, if_pos here]
    rfl
  | succ k ih =>
    have next : ptr + (k + 1) * sizeof = ptr + sizeof + k * sizeof := by ring
    rw [next] at inside here
    have first : ptr + sizeof ≤ mapping.usedLength := by omega
    rw [scan, if_pos first]
    split
    · rfl
    · exact ih inside here

end
end DepthCallBoard

/-- The mapping and the two processes, and the latest record set for each instrument. -/
structure Boards (δ : Type) where
  mapping : Mapping δ
  writer : DepthCallBoard
  reader : DepthCallBoard
  latest : List UInt8 → Option (Record DepthString.size δ)

inductive BoardAction (δ : Type) where
  | writerInit (elmSize : Nat)
  | readerInit (elmSize : Nat)
  | set (instrumentId : CharArray 32) (input : Record DepthString.size δ)
  | get (instrumentId : CharArray 32) (output : Record DepthString.size δ)

namespace Boards
variable {δ : Type} [Zero δ] (instruments : Set (List UInt8)) (size sizeof : Nat) [NeZero sizeof]

/-- Two boards, and whatever an earlier run left in the file. -/
def start (mapping : Mapping δ) : Boards δ := ⟨mapping, .make, .make, fun _ => none⟩

def act (s : Boards δ) : BoardAction δ → Boards δ
  | .writerInit elmSize =>
    let (writer, mapping) := s.writer.init size elmSize true
    { s with writer, mapping }
  | .readerInit elmSize =>
    let (reader, mapping) := s.reader.init size elmSize false
    { s with reader, mapping }
  | .set instrumentId input =>
    let (writer, mapping) := s.writer.set sizeof s.mapping instrumentId input
    { s with writer, mapping, latest := Function.update s.latest instrumentId.chars (some input) }
  | .get instrumentId output =>
    { s with reader := (s.reader.get sizeof s.mapping instrumentId output).2 }

/-- Each process initialises its board once, and the reader before it gets. The record set bears
the instrument it is set for, its strings are terminated, and a new one has room. -/
def Enabled (s : Boards δ) : BoardAction δ → Prop
  | .writerInit _ => ¬ s.writer.attached
  | .readerInit _ => ¬ s.reader.attached
  | .set instrumentId input => instrumentId.chars ∈ instruments ∧
      (input.strings .instrumentId).chars = instrumentId.chars ∧ input.Terminated ∧
      (s.writer.isWriting → s.writer.dataPositions (hash32 instrumentId.chars) = none →
        s.mapping.usedLength + sizeof ≤ size)
  | .get instrumentId _ => s.reader.attached ∧ instrumentId.chars ∈ instruments

/-- Both boards are initialised before the first record is set, and no string goes where a longer
one was: neither in the mapping nor in the output. -/
def Meets (s : Boards δ) : BoardAction δ → Prop
  | .writerInit _ | .readerInit _ => ∀ instrument, s.latest instrument = none
  | .set instrumentId input => s.writer.attached ∧
      ∀ ptr ∈ s.writer.dataPositions (hash32 instrumentId.chars),
        (s.mapping.records ptr).EndsWith input
  | .get instrumentId output => ∀ input ∈ s.latest instrumentId.chars, output.EndsWith input

/-- The slots lie behind the header in the used area, and apart. -/
def Disjoint (s : Boards δ) : Prop :=
  ∀ id ptr, s.writer.dataPositions id = some ptr →
    sizeofHeader ≤ ptr ∧ ptr + sizeof ≤ s.mapping.usedLength ∧ s.mapping.usedLength ≤ size ∧
      ∀ other ptr', s.writer.dataPositions other = some ptr' → id ≠ other → ptr + sizeof ≤ ptr' ∨
        ptr' + sizeof ≤ ptr

/-- The reader gets the latest record set. -/
def Returns (s : Boards δ) (instrumentId : CharArray 32)
    (output : Record DepthString.size δ) : Prop :=
  ∀ input ∈ s.latest instrumentId.chars,
    ∃ e, (s.reader.get sizeof s.mapping instrumentId output).1 = some e ∧ e.Returns input

/-- The records from the header on are the instruments set so far, each at its address. -/
structure Seated (mapping : Mapping δ) (positions : UInt32 → Option Nat)
    (latest : List UInt8 → Option (Record DepthString.size δ)) : Prop where
  header : mapping.headerLength = sizeofHeader
  used : ∃ count, mapping.usedLength = sizeofHeader + count * sizeof ∧
    ∀ k < count, ∃ id, positions id = some (sizeofHeader + k * sizeof)
  seat : ∀ id ptr, positions id = some ptr → ∃ k, ptr = sizeofHeader + k * sizeof ∧
    ptr + sizeof ≤ mapping.usedLength
  bears : ∀ id ptr, positions id = some ptr →
    hash32 ((mapping.records ptr).strings .instrumentId).chars = id
  cleared : ∀ ptr, mapping.usedLength ≤ ptr → mapping.records ptr = .fresh 0
  holds : ∀ instrument input, latest instrument = some input → input.Terminated ∧
    ∃ ptr, positions (hash32 instrument) = some ptr ∧ (mapping.records ptr).Returns input

/-- What every state keeps. -/
structure Kept (s : Boards δ) : Prop where
  cached : ∀ id ptr, s.reader.dataPositions id = some ptr → s.writer.dataPositions id = some ptr
  recorded : ∀ id ptr, s.writer.dataPositions id = some ptr →
    ∃ instrument, (s.latest instrument).isSome ∧ hash32 instrument = id
  known : ∀ instrument, (s.latest instrument).isSome → instrument ∈ instruments ∧ s.writer.attached
  writing : s.writer.attached → s.writer.isWriting
  fits : s.writer.attached ∨ s.reader.attached → s.mapping.usedLength ≤ size ∨
    ∀ id, s.writer.dataPositions id = none
  seated : s.writer.attached ∨ s.reader.attached →
    Seated sizeof s.mapping s.writer.dataPositions s.latest

section
variable {instruments : Set (List UInt8)} {size sizeof : Nat} {mapping : Mapping δ}
  {positions : UInt32 → Option Nat} {latest : List UInt8 → Option (Record DepthString.size δ)}

theorem seated_empty (length elmSize : Nat) (noSlot : ∀ id, positions id = none)
    (noRecord : ∀ instrument, latest instrument = none) :
    Seated sizeof ⟨length, sizeofHeader, sizeofHeader, elmSize,
      fun _ => .fresh 0⟩ positions latest where
  header := rfl
  used := ⟨0, by simp, by simp⟩
  seat := fun id ptr slot => by simp [noSlot id] at slot
  bears := fun id ptr slot => by simp [noSlot id] at slot
  cleared := fun ptr _ => rfl
  holds := fun instrument input set => by simp [noRecord instrument] at set

variable {s : Boards δ}

theorem kept_start (mapping : Mapping δ) : Kept instruments size sizeof (start mapping) where
  cached := fun id ptr slot => slot
  recorded := fun id ptr slot => nomatch slot
  known := fun instrument set => nomatch set
  writing := fun attached => nomatch attached
  fits := fun attached => by simp [start, DepthCallBoard.make] at attached
  seated := fun attached => by simp [start, DepthCallBoard.make] at attached

/-- Before the first record there is no slot. -/
theorem Kept.noSlot (kept : Kept instruments size sizeof s)
    (noRecord : ∀ instrument, s.latest instrument = none) (id : UInt32) :
    s.writer.dataPositions id = none ∧ s.reader.dataPositions id = none := by
  have written : s.writer.dataPositions id = none := by
    cases slot : s.writer.dataPositions id with
    | none => rfl
    | some ptr =>
      obtain ⟨instrument, set, _⟩ := kept.recorded id ptr slot
      rw [noRecord] at set
      cases set
  refine ⟨written, ?_⟩
  cases slot : s.reader.dataPositions id with
  | none => rfl
  | some ptr =>
    rw [kept.cached id ptr slot] at written
    cases written

namespace Seated
variable {instrument : List UInt8} {input : Record DepthString.size δ}

theorem injective (seated : Seated sizeof mapping positions latest) {id other : UInt32} {ptr : Nat}
    (slot : positions id = some ptr) (slot' : positions other = some ptr) : id = other :=
  (seated.bears id ptr slot).symm.trans (seated.bears other ptr slot')

theorem apart (seated : Seated sizeof mapping positions latest) {id other : UInt32} {ptr ptr' : Nat}
    (slot : positions id = some ptr) (slot' : positions other = some ptr')
    (different : id ≠ other) :
    ptr + sizeof ≤ ptr' ∨ ptr' + sizeof ≤ ptr := by
  obtain ⟨k, place, _⟩ := seated.seat id ptr slot
  obtain ⟨k', place', _⟩ := seated.seat other ptr' slot'
  rcases Nat.lt_trichotomy k k' with before | same | behind
  · have step : (k + 1) * sizeof ≤ k' * sizeof := Nat.mul_le_mul_right _ before
    rw [Nat.succ_mul] at step
    left
    omega
  · rw [place, same, ← place'] at slot
    exact absurd (seated.injective slot slot') different
  · have step : (k' + 1) * sizeof ≤ k * sizeof := Nat.mul_le_mul_right _ behind
    rw [Nat.succ_mul] at step
    right
    omega

omit [Zero δ] in
/-- The record assigned to a slot is the one the slot then holds, and bears its instrument. -/
theorem assigned {old : Record DepthString.size δ}
    (own : (input.strings .instrumentId).chars = instrument)
    (terminated : input.Terminated) (ends : old.EndsWith input) :
    (old.assign input).Returns input ∧ ((old.assign input).strings .instrumentId).chars =
      instrument := by
  have returns := (RecordStores.Record.assign_returns_iff terminated).mpr ends
  have read := returns.2 .instrumentId
  rw [terminated.toString] at read
  exact ⟨returns, (CharArray.toString_chars read).trans own⟩

variable [NeZero sizeof]

/-- A record set again. -/
theorem store (seated : Seated sizeof mapping positions latest) {ptr : Nat}
    (slot : positions (hash32 instrument) = some ptr)
    (own : (input.strings .instrumentId).chars = instrument) (terminated : input.Terminated)
    (ends : (mapping.records ptr).EndsWith input)
    (distinct : ∀ other, (latest other).isSome → hash32 other = hash32 instrument →
      other = instrument) :
    Seated sizeof (DepthCallBoard.store mapping ptr input) positions
      (Function.update latest instrument (some input)) := by
  obtain ⟨returns, bearing⟩ := assigned own terminated ends
  refine ⟨seated.header, seated.used, seated.seat, ?_, ?_, ?_⟩
  · intro id place slot'
    by_cases here : place = ptr
    · subst here
      rw [DepthCallBoard.store_self, bearing]
      exact seated.injective slot slot'
    · rw [DepthCallBoard.store_other here]
      exact seated.bears id place slot'
  · intro place beyond
    change mapping.usedLength ≤ place at beyond
    obtain ⟨k, _, inside⟩ := seated.seat _ ptr slot
    have positive := NeZero.pos sizeof
    have elsewhere : place ≠ ptr := by omega
    rw [DepthCallBoard.store_other elsewhere]
    exact seated.cleared place beyond
  · intro other record set
    by_cases same : other = instrument
    · subst same
      rw [Function.update_self] at set
      cases set
      exact ⟨terminated, ptr, slot, by rwa [DepthCallBoard.store_self]⟩
    · rw [Function.update_of_ne same] at set
      obtain ⟨ended, place, slot', held⟩ := seated.holds other record set
      have elsewhere : place ≠ ptr := by
        rintro rfl
        exact same (distinct other (by rw [set]; rfl) (seated.injective slot' slot))
      exact ⟨ended, place, slot', by rwa [DepthCallBoard.store_other elsewhere]⟩

/-- A record set for the first time. -/
theorem append (seated : Seated sizeof mapping positions latest)
    (new : positions (hash32 instrument) = none)
    (own : (input.strings .instrumentId).chars = instrument) (terminated : input.Terminated) :
    Seated sizeof
      (DepthCallBoard.store { mapping with usedLength := mapping.usedLength + sizeof }
        mapping.usedLength input)
      (Function.update positions (hash32 instrument) (some mapping.usedLength))
      (Function.update latest instrument (some input)) := by
  obtain ⟨count, used, all⟩ := seated.used
  have positive := NeZero.pos sizeof
  have ends : (mapping.records mapping.usedLength).EndsWith input := by
    rw [seated.cleared _ le_rfl]
    exact RecordStores.Record.fresh_endsWith terminated 0
  obtain ⟨returns, bearing⟩ := assigned own terminated ends
  have old {id : UInt32} {ptr : Nat} (slot : positions id = some ptr) :
      id ≠ hash32 instrument ∧ ptr ≠ mapping.usedLength := by
    obtain ⟨_, _, inside⟩ := seated.seat id ptr slot
    refine ⟨?_, by omega⟩
    rintro rfl
    rw [new] at slot
    cases slot
  -- The slots are those there were and the one behind them.
  have slots {id : UInt32} {ptr : Nat}
      (slot :
        Function.update positions (hash32 instrument) (some mapping.usedLength) id = some ptr) :
      (id = hash32 instrument ∧ ptr = mapping.usedLength) ∨ positions id = some ptr := by
    by_cases here : id = hash32 instrument
    · subst here
      rw [Function.update_self] at slot
      cases slot
      exact .inl ⟨rfl, rfl⟩
    · rw [Function.update_of_ne here] at slot
      exact .inr slot
  refine ⟨seated.header, ⟨count + 1, ?_, ?_⟩, ?_, ?_, ?_, ?_⟩
  · change mapping.usedLength + sizeof = _
    rw [used]
    ring
  · intro k bound
    rcases Nat.lt_succ_iff_lt_or_eq.mp bound with before | rfl
    · obtain ⟨id, slot⟩ := all k before
      exact ⟨id, by rw [Function.update_of_ne (old slot).1, slot]⟩
    · exact ⟨hash32 instrument, by rw [Function.update_self, used]⟩
  · intro id ptr slot
    change ∃ k, _ ∧ _ ≤ mapping.usedLength + sizeof
    rcases slots slot with ⟨_, rfl⟩ | before
    · exact ⟨count, used, le_rfl⟩
    · obtain ⟨k, place, inside⟩ := seated.seat id ptr before
      exact ⟨k, place, by omega⟩
  · intro id ptr slot
    rcases slots slot with ⟨rfl, rfl⟩ | before
    · rw [DepthCallBoard.store_self]
      exact congrArg hash32 bearing
    · rw [DepthCallBoard.store_other (old before).2]
      exact seated.bears id ptr before
  · intro ptr beyond
    change mapping.usedLength + sizeof ≤ ptr at beyond
    have elsewhere : ptr ≠ mapping.usedLength := by omega
    have behind : mapping.usedLength ≤ ptr := by omega
    rw [DepthCallBoard.store_other elsewhere]
    exact seated.cleared ptr behind
  · intro other record set
    by_cases same : other = instrument
    · subst same
      rw [Function.update_self] at set
      cases set
      refine ⟨terminated, mapping.usedLength, Function.update_self _ _ _, ?_⟩
      rw [DepthCallBoard.store_self]
      exact returns
    · rw [Function.update_of_ne same] at set
      obtain ⟨ended, ptr, slot, held⟩ := seated.holds other record set
      refine ⟨ended, ptr, by rw [Function.update_of_ne (old slot).1, slot], ?_⟩
      rw [DepthCallBoard.store_other (old slot).2]
      exact held

/-- The loop finds the slot of an instrument, and nothing else. -/
theorem scan (seated : Seated sizeof mapping positions latest) {id : UInt32} {ptr : Nat} :
    DepthCallBoard.scan sizeof mapping id mapping.headerLength = some ptr ↔
      positions id = some ptr := by
  have forward {found : Nat}
      (result : DepthCallBoard.scan sizeof mapping id mapping.headerLength = some found) :
      positions id = some found := by
    obtain ⟨⟨k, place⟩, inside, here⟩ := DepthCallBoard.scan_some result
    obtain ⟨count, used, all⟩ := seated.used
    rw [seated.header] at place
    have bound : k < count := by
      have reach : (k + 1) * sizeof ≤ count * sizeof := by
        rw [Nat.succ_mul]
        omega
      exact Nat.le_of_mul_le_mul_right reach (NeZero.pos sizeof)
    obtain ⟨other, slot⟩ := all k bound
    rw [← place] at slot
    rw [here, seated.bears other found slot, slot]
  refine ⟨forward, fun slot => ?_⟩
  obtain ⟨k, place, inside⟩ := seated.seat id ptr slot
  have bears := seated.bears id ptr slot
  rw [place] at inside bears
  rw [← seated.header] at inside bears
  obtain ⟨found, result⟩ :=
    Option.isSome_iff_exists.mp (DepthCallBoard.scan_isSome k inside bears.symm)
  have same : found = ptr := Option.some.inj ((forward result).symm.trans slot)
  rw [result, same]

end Seated

theorem Kept.disjoint (kept : Kept instruments size sizeof s) : s.Disjoint size sizeof := by
  intro id ptr slot
  obtain ⟨instrument, set, _⟩ := kept.recorded id ptr slot
  have attached := (kept.known instrument set).2
  have seated := kept.seated (.inl attached)
  obtain ⟨k, place, inside⟩ := seated.seat id ptr slot
  refine ⟨by omega, inside, ?_, fun other ptr' slot' different => seated.apart slot slot' different⟩
  rcases kept.fits (.inl attached) with fits | noSlot
  · exact fits
  · rw [noSlot] at slot
    cases slot

variable [NeZero sizeof]

theorem kept_init (kept : Kept instruments size sizeof s)
    (noRecord : ∀ instrument, s.latest instrument = none) (elmSize : Nat) :
    Kept instruments size sizeof (s.act size sizeof (.writerInit elmSize)) ∧
      Kept instruments size sizeof (s.act size sizeof (.readerInit elmSize)) := by
  have noSlot := fun id => (kept.noSlot noRecord id).1
  constructor
  · exact {
      cached := kept.cached
      recorded := kept.recorded
      known := fun instrument set => ⟨(kept.known instrument set).1, rfl⟩
      writing := fun _ => rfl
      fits := fun _ => .inr noSlot
      seated := fun _ => seated_empty _ _ noSlot noRecord }
  · exact {
      cached := kept.cached
      recorded := kept.recorded
      known := kept.known
      writing := kept.writing
      fits := fun _ => .inr noSlot
      seated := fun _ => seated_empty _ _ noSlot noRecord }

/-- A get enters in the reader's map what is in the writer's. -/
theorem kept_get (kept : Kept instruments size sizeof s) (attached : s.reader.attached)
    (instrumentId : CharArray 32) (output : Record DepthString.size δ) :
    Kept instruments size sizeof (s.act size sizeof (.get instrumentId output)) := by
  have seated := kept.seated (.inr attached)
  have entered :
      ∀ id ptr, (s.reader.get sizeof s.mapping instrumentId output).2.dataPositions id = some ptr →
      s.writer.dataPositions id = some ptr := by
    intro id ptr slot
    rw [DepthCallBoard.get] at slot
    split at slot
    · exact kept.cached id ptr slot
    · split at slot
      · rename_i found result
        dsimp only at slot
        by_cases here : id = hash32 instrumentId.chars
        · subst here
          rw [Function.update_self] at slot
          rw [← slot]
          exact seated.scan.mp result
        · rw [Function.update_of_ne here] at slot
          exact kept.cached id ptr slot
      · exact kept.cached id ptr slot
  have still :
      (s.reader.get sizeof s.mapping instrumentId output).2.attached = s.reader.attached := by
    rw [DepthCallBoard.get]
    split
    · rfl
    · split <;> rfl
  exact {
    cached := entered
    recorded := kept.recorded
    known := kept.known
    writing := kept.writing
    fits := fun _ => kept.fits (.inr attached)
    seated := fun _ => seated }

omit [Zero δ] in
theorem isSome_put {latest : List UInt8 → Option (Record DepthString.size δ)}
    {chars instrument : List UInt8} {input : Record DepthString.size δ} :
    (Function.update latest chars (some input) instrument).isSome ↔ instrument = chars ∨
      (latest instrument).isSome := by
  by_cases same : instrument = chars
  · rw [same, Function.update_self]
    simp
  · rw [Function.update_of_ne same]
    simp [same]

theorem kept_set (distinct : Set.InjOn hash32 instruments) (small : size < 2 ^ 32)
    (kept : Kept instruments size sizeof s) {instrumentId : CharArray 32}
    {input : Record DepthString.size δ}
    (able : s.Enabled instruments size sizeof (.set instrumentId input))
    (meets : s.Meets (.set instrumentId input)) :
    Kept instruments size sizeof (s.act size sizeof (.set instrumentId input)) := by
  obtain ⟨member, own, terminated, room⟩ := able
  obtain ⟨attached, ends⟩ := meets
  have writing := kept.writing attached
  have seated := kept.seated (.inl attached)
  have known :
      ∀ instrument, (Function.update s.latest instrumentId.chars (some input) instrument).isSome →
      instrument ∈ instruments := by
    intro instrument set
    rcases isSome_put.mp set with rfl | before
    · exact member
    · exact (kept.known instrument before).1
  have others : ∀ other, (s.latest other).isSome → hash32 other = hash32 instrumentId.chars →
      other = instrumentId.chars :=
    fun other set same => distinct (kept.known other set).1 member same
  have still : ∀ instrument, (s.latest instrument).isSome →
      (Function.update s.latest instrumentId.chars (some input) instrument).isSome :=
    fun _ set => isSome_put.mpr (.inr set)
  have now : (Function.update s.latest instrumentId.chars (some input) instrumentId.chars).isSome :=
    isSome_put.mpr (.inl rfl)
  cases slot : s.writer.dataPositions (hash32 instrumentId.chars) with
  | some ptr =>
    have stored : s.writer.set sizeof s.mapping instrumentId input =
        (s.writer, DepthCallBoard.store s.mapping ptr input) := by
      simp only [DepthCallBoard.set, writing, slot, not_true, if_false]
    simp only [act, stored]
    exact {
      cached := kept.cached
      recorded := fun id place slot => by
        obtain ⟨instrument, set, same⟩ := kept.recorded id place slot
        exact ⟨instrument, still instrument set, same⟩
      known := fun instrument set => ⟨known instrument set, attached⟩
      writing := fun _ => writing
      fits := fun _ => kept.fits (.inl attached)
      seated := fun _ => seated.store slot own terminated (ends ptr slot) others }
  | none =>
    have stored : s.writer.set sizeof s.mapping instrumentId input =
        ({ s.writer with
            dataPositions :=
              Function.update s.writer.dataPositions (hash32 instrumentId.chars)
                (some s.mapping.usedLength) },
          DepthCallBoard.store { s.mapping with usedLength := s.mapping.usedLength + sizeof }
            s.mapping.usedLength input) := by
      have fits := room writing slot
      have exact' : (s.mapping.usedLength + sizeof) % 2 ^ 32 = s.mapping.usedLength + sizeof :=
        Nat.mod_eq_of_lt (by omega)
      simp only [DepthCallBoard.set, writing, slot, not_true, if_false, exact']
    simp only [act, stored]
    exact {
      cached := fun id ptr cached => by
        have before := kept.cached id ptr cached
        have different : id ≠ hash32 instrumentId.chars := by
          rintro rfl
          rw [slot] at before
          cases before
        change Function.update s.writer.dataPositions _ _ id = _
        rwa [Function.update_of_ne different]
      recorded := fun id place cached => by
        by_cases here : id = hash32 instrumentId.chars
        · exact ⟨instrumentId.chars, now, here.symm⟩
        · change Function.update s.writer.dataPositions _ _ id = _ at cached
          rw [Function.update_of_ne here] at cached
          obtain ⟨instrument, set, same⟩ := kept.recorded id place cached
          exact ⟨instrument, still instrument set, same⟩
      known := fun instrument set => ⟨known instrument set, attached⟩
      writing := fun _ => writing
      fits := fun _ => .inl (room writing slot)
      seated := fun _ => seated.append slot own terminated }

theorem Kept.returns (kept : Kept instruments size sizeof s) {instrumentId : CharArray 32}
    {output : Record DepthString.size δ} (attached : s.reader.attached)
    (ends : ∀ input ∈ s.latest instrumentId.chars, output.EndsWith input) :
    s.Returns sizeof instrumentId output := by
  intro input set
  have seated := kept.seated (.inr attached)
  obtain ⟨terminated, ptr, slot, held⟩ := seated.holds _ input set
  have got : (s.reader.get sizeof s.mapping instrumentId output).1 =
      some (output.assign (s.mapping.records ptr)) := by
    cases cached : s.reader.dataPositions (hash32 instrumentId.chars) with
    | some place =>
      have same : place = ptr := Option.some.inj ((kept.cached _ place cached).symm.trans slot)
      simp only [DepthCallBoard.get, cached, same]
    | none => exact DepthCallBoard.get_scan cached (seated.scan.mpr slot) output
  refine ⟨_, got, ?_⟩
  have read : output.assign (s.mapping.records ptr) = output.assign input := by
    have strings (i : DepthString) :
        ((s.mapping.records ptr).strings i).chars = (input.strings i).chars := by
      have same := held.2 i
      rw [terminated.toString] at same
      exact CharArray.toString_chars same
    simp only [RecordStores.Record.assign, CharArray.assignFrom, strings, held.1]
  rw [read]
  exact (RecordStores.Record.assign_returns_iff terminated).mpr (ends input set)

theorem kept_act (distinct : Set.InjOn hash32 instruments) (small : size < 2 ^ 32)
    (kept : Kept instruments size sizeof s) {action : BoardAction δ}
    (able : s.Enabled instruments size sizeof action) (meets : s.Meets action) :
    Kept instruments size sizeof (s.act size sizeof action) := by
  cases action with
  | writerInit elmSize => exact (kept_init kept meets elmSize).1
  | readerInit elmSize => exact (kept_init kept meets elmSize).2
  | set instrumentId input => exact kept_set distinct small kept able meets
  | get instrumentId output => exact kept_get kept able.1 instrumentId output

end

/-- When both boards are initialised before the first record is set, the slots lie apart in the
used area, and every get returns the latest record set. -/
theorem board_shared (distinct : Set.InjOn hash32 instruments) (small : size < 2 ^ 32)
    (mapping : Mapping δ) (run : List (BoardAction δ))
    (able :
      ∀ move ∈ Runs.moves (act size sizeof) (start mapping) run,
      move.1.Enabled instruments size sizeof move.2)
    (meets : ∀ move ∈ Runs.moves (act size sizeof) (start mapping) run, move.1.Meets move.2) :
    (∀ s ∈ Runs.states (act size sizeof) (start mapping) run, s.Disjoint size sizeof) ∧
      ∀ move ∈ Runs.moves (act size sizeof) (start mapping) run, ∀ instrumentId output,
        move.2 = .get instrumentId output → move.1.Returns sizeof instrumentId output := by
  have step (s : Boards δ) (action : BoardAction δ) (kept : Kept instruments size sizeof s)
      (now : s.Enabled instruments size sizeof action ∧ s.Meets action) :
      Kept instruments size sizeof (s.act size sizeof action) :=
        kept_act distinct small kept now.1 now.2
  have kept := Runs.invariant step (kept_start mapping) run fun move member =>
      ⟨able move member, meets move member⟩
  refine ⟨fun s visited => (kept s visited).disjoint, ?_⟩
  intro move member instrumentId output get
  have before := kept move.1 (Runs.moves_states _ _ move member).1
  have enabled := able move member
  have condition := meets move member
  rw [get] at enabled condition
  exact before.returns enabled.1 condition

/-- A depth of the symbol `B`. -/
def depth (rest : ℕ) : Record DepthString.size ℕ where
  strings
    | .instrumentId => ⟨66 :: List.replicate 31 0, rfl⟩
    | .exchangeId => .zero 16
  rest := rest

theorem depth_terminated (rest : ℕ) : (depth rest).Terminated := by
  intro i
  cases i <;> rfl

def blank : Mapping ℕ := ⟨0, 0, 0, 0, fun _ => .fresh 0⟩

/-- Both boards are initialised, and a record is set twice and got. -/
def begun : List (BoardAction ℕ) :=
  [.writerInit 696, .readerInit 376, .set ((depth 7).strings .instrumentId) (depth 7),
    .set ((depth 8).strings .instrumentId) (depth 8),
      .get ((depth 8).strings .instrumentId) (.fresh 0)]

theorem board_shared_begun :
    (∀ s ∈ Runs.states (act 1000 696) (start blank) begun, s.Disjoint 1000 696) ∧
      ∀ move ∈ Runs.moves (act 1000 696) (start blank) begun, ∀ instrumentId output,
        move.2 = .get instrumentId output → move.1.Returns 696 instrumentId output := by
  refine board_shared {((depth 7).strings .instrumentId).chars} 1000 696 (Set.injOn_singleton _ _)
    (by decide) blank begun ?_ ?_
  · simp only [begun, Runs.moves, List.forall_mem_cons, List.not_mem_nil, false_implies,
      implies_true, and_true]
    refine ⟨?_, ?_, ?_, ?_, ?_⟩
    · exact Bool.false_ne_true
    · exact Bool.false_ne_true
    · exact ⟨rfl, rfl, depth_terminated 7, fun _ _ => by decide⟩
    · exact ⟨rfl, rfl, depth_terminated 8, fun _ new => by cases new⟩
    · exact ⟨rfl, rfl⟩
  · simp only [begun, Runs.moves, List.forall_mem_cons, List.not_mem_nil, false_implies,
      implies_true, and_true]
    refine ⟨?_, ?_, ?_, ?_, ?_⟩
    · exact fun _ => rfl
    · exact fun _ => rfl
    · exact ⟨rfl, fun ptr slot => by cases slot⟩
    · refine ⟨rfl, fun ptr slot i => ?_⟩
      cases slot
      cases i <;> rfl
    · intro input set i
      cases set
      cases i <;> rfl

/-- The reader's initialisation clears what was set. -/
theorem set_lost :
    ¬ ∀ (instruments : Set (List UInt8)) (mapping : Mapping ℕ) (run : List (BoardAction ℕ)),
      Set.InjOn hash32 instruments →
      (∀ move ∈ Runs.moves (act 1000 696) (start mapping) run,
        move.1.Enabled instruments 1000 696 move.2) →
      (∀ s ∈ Runs.states (act 1000 696) (start mapping) run, s.Disjoint 1000 696) ∧
        ∀ move ∈ Runs.moves (act 1000 696) (start mapping) run, ∀ instrumentId output,
          move.2 = .get instrumentId output → move.1.Returns 696 instrumentId output := by
  intro claim
  let run : List (BoardAction ℕ) :=
    [.writerInit 696, .set ((depth 7).strings .instrumentId) (depth 7), .readerInit 376,
    .get ((depth 7).strings .instrumentId) (.fresh 0)]
  have able : ∀ move ∈ Runs.moves (act 1000 696) (start blank) run,
      move.1.Enabled {((depth 7).strings .instrumentId).chars} 1000 696 move.2 := by
    simp only [run, Runs.moves, List.forall_mem_cons, List.not_mem_nil, false_implies,
      implies_true, and_true]
    exact ⟨Bool.false_ne_true, ⟨rfl, rfl, depth_terminated 7, fun _ _ => by decide⟩,
      Bool.false_ne_true, rfl, rfl⟩
  have returns := (claim _ blank run (Set.injOn_singleton _ _) able).2
  simp only [run, Runs.moves, List.forall_mem_cons] at returns
  obtain ⟨-, -, -, returns, -⟩ := returns
  obtain ⟨e, got, -⟩ := returns _ _ rfl (depth 7) rfl
  have missed (id : UInt32) :
      DepthCallBoard.scan 696 (⟨1000, 16, 16, 376, fun _ => .fresh 0⟩ : Mapping ℕ) id 16 =
      none := by
    rw [DepthCallBoard.scan, if_neg (by decide)]
  simp [DepthCallBoard.get, act, DepthCallBoard.init, start, DepthCallBoard.make, sizeofHeader,
    missed] at got

end Boards
end BTrader.Extension
