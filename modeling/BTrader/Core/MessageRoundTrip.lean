import BTrader.Core.Messages
import BTrader.Lib.Keyed
import BTrader.Journal.WriteOps

/-! Every message of variable length comes back from the frame it was written to. -/
namespace BTrader.Messages
open ByteMemory ByteReader Infra RecordStores

theorem reads_charArray {n : Nat} (a : CharArray n) : Reads (charArray n) a.bytes a :=
  (reads_block ⟨a.bytes, a.length⟩).map fun b : Block n => (⟨b.bytes, b.length⟩ : CharArray n)

theorem Register.reads (r : Register) (group : r.group.length < 2 ^ 32)
    (name : r.name.length < 2 ^ 32) :
    Reads Register.read r.toString r :=
  (reads_word32 _).bind
    ((reads_word8 _).bind ((reads_word8 _).bind ((reads_sized group).bind ((reads_sized name).bind
    ((reads_int32 _).bind ((reads_int64 _).bind ((reads_int64 r.checkinTime).map _)))))))

theorem Deregister.reads (r : Deregister) (group : r.group.length < 2 ^ 32)
    (name : r.name.length < 2 ^ 32) :
    Reads Deregister.read r.toString r :=
  (reads_word32 _).bind
    ((reads_word8 _).bind
      ((reads_word8 _).bind ((reads_sized group).bind ((reads_sized name).map _))))

theorem InstrumentKey.reads (k : InstrumentKey) : Reads InstrumentKey.read k.object k :=
  (reads_word32 _).bind ((reads_charArray _).bind ((reads_charArray _).bind ((reads_word8 _).bind
    ((reads_block k.padding).map _))))

theorem InstrumentKey.object_length (k : InstrumentKey) :
    k.object.length = sizeofInstrumentKey := by
  simp [object, k.instrumentId.length, k.exchangeId.length, k.padding.length, sizeofInstrumentKey]

theorem MDSubscribe.toString_length (m : MDSubscribe) :
    m.toString.length = 4 + m.instrumentKeys.length * sizeofInstrumentKey := by
  simp [toString, InstrumentKey.object_length]

theorem MDSubscribe.reads (m : MDSubscribe) (fits : m.toString.length < 2 ^ 32) :
    Reads (MDSubscribe.read (UInt32.ofNat m.toString.length)) m.toString m := by
  have room : ((UInt32.ofNat m.toString.length) - 4).toNat = m.instrumentKeys.length *
      sizeofInstrumentKey := by
    have length : (UInt32.ofNat m.toString.length).toNat = m.toString.length :=
      UInt32.toNat_ofNat_of_lt' fits
    have enough : (4 : UInt32) ≤ UInt32.ofNat m.toString.length := by
      rw [UInt32.le_iff_toNat_le, length, toString_length]
      exact Nat.le_add_right _ _
    rw [UInt32.toNat_sub_of_le _ _ enough, length, toString_length]
    exact Nat.add_sub_cancel_left _ _
  have count : ((UInt32.ofNat m.toString.length) - 4).toNat / sizeofInstrumentKey =
      m.instrumentKeys.length := by
    rw [room]
    exact Nat.mul_div_cancel _ (by decide)
  have keys :
      Reads (loop (fun keys => do return keys ++ [← InstrumentKey.read]) m.instrumentKeys.length [])
      (m.instrumentKeys.flatMap InstrumentKey.object)
        (m.instrumentKeys.foldl (fun keys k => keys ++ [k]) []) :=
    reads_loop m.instrumentKeys (fun keys k _ => k.reads.map fun k => keys ++ [k]) []
  have all : m.instrumentKeys.foldl (fun keys k => keys ++ [k]) [] = m.instrumentKeys := by
    rw [List.foldl_append_eq_append, List.nil_append, ← List.flatMap_def]
    exact List.flatMap_singleton' _
  rw [all, ← count] at keys
  exact (reads_word32 _).bind (keys.map fun keys => (⟨m.id, keys⟩ : MDSubscribe))

theorem Position.reads (p : Position) : Reads Position.read (Position.object p) (.put none p) := by
  refine Reads.of_eq
    ((reads_int64 _).bind ((reads_charArray _).bind ((reads_charArray _).bind ((reads_word8 _).bind
    ((reads_charArray _).bind ((reads_word8 _).bind ((reads_block ⟨List.replicate 5 0, rfl⟩).bind
      ((reads_word64 _).bind
        ((reads_word64 _).bind ((reads_word64 p.rest.unrealizedPnl).map _)))))))))) ?_
  refine congrArg (fun strings => (⟨strings, p.rest⟩ : Position)) (funext fun i => ?_)
  cases i <;> rfl

theorem Position.object_length (p : Position) : (Position.object p).length = sizeofPosition := by
  simp [object, CharArray.length, PositionString.size, sizeofPosition]

theorem PositionBook.toString_length (book : PositionBook) :
    book.toString.length = 8 + book.longPositions.length * 100 +
      book.shortPositions.length * 100 := by
  have entries (l : List (UInt32 × Position)) : (l.flatMap entry).length = l.length * 100 := by
    simp [entry, Position.object_length, sizeofPosition]
  simp only [toString, List.length_append, toLE_length, entries]
  omega

/-- The map a loop makes of the entries it reads. -/
def PositionBook.loaded (entries : List (UInt32 × Position)) :
    Entries UInt32 PositionString.size PositionData :=
  entries.foldl (fun positions e => positions.set e.1 (.put none e.2)) fun _ => none

theorem PositionBook.entries_read (entries : List (UInt32 × Position)) :
    Reads (loop (readEntry assign) entries.length fun _ => none) (entries.flatMap entry)
      (loaded entries) :=
  reads_loop entries
    (fun positions e _ =>
    (reads_word32 _).bind ((Position.reads e.2).map fun p => positions.set e.1 p)) _

theorem PositionBook.reads (book : PositionBook) (fits : book.toString.length < 2 ^ 32) :
    Reads (PositionBook.read (UInt32.ofNat book.toString.length)) book.toString
      ⟨loaded book.longPositions, loaded book.shortPositions⟩ := by
  have length : (UInt32.ofNat book.toString.length).toNat = book.toString.length :=
    UInt32.toNat_ofNat_of_lt' fits
  rw [toString_length] at fits length
  have long : (UInt32.ofNat book.longPositions.length).toNat = book.longPositions.length :=
    UInt32.toNat_ofNat_of_lt' (lt_of_le_of_lt (by omega) fits)
  have short : (UInt32.ofNat book.shortPositions.length).toNat = book.shortPositions.length :=
    UInt32.toNat_ofNat_of_lt' (lt_of_le_of_lt (by omega) fits)
  have header : ¬ UInt32.ofNat book.toString.length < 4 * 2 := by
    rw [UInt32.lt_iff_toNat_lt, toString_length, length, not_lt, Nat.add_assoc]
    exact Nat.le_add_right 8 _
  have expected : ¬ UInt32.ofNat book.toString.length <
      expectedSize (UInt32.ofNat book.longPositions.length)
        (UInt32.ofNat book.shortPositions.length) := by
    have expected : 4 * 2 + book.longPositions.length * (4 + sizeofPosition) +
        book.shortPositions.length * (4 + sizeofPosition) =
          8 + book.longPositions.length * 100 + book.shortPositions.length * 100 := rfl
    rw [expectedSize, long, short, expected, toString_length]
    exact UInt32.lt_irrefl _
  have longRead := reads_word32 (UInt32.ofNat book.longPositions.length)
  have shortRead := reads_word32 (UInt32.ofNat book.shortPositions.length)
  rw [long] at longRead
  rw [short] at shortRead
  have longEntries := entries_read book.longPositions
  have shortEntries := entries_read book.shortPositions
  rw [← long] at longEntries
  rw [← short] at shortEntries
  rw [PositionBook.read, readBy, if_neg header]
  refine longRead.bind (shortRead.bind ?_)
  rw [if_neg expected]
  exact longEntries.bind (shortEntries.map _)

/-- The maps read have the entries of the book: the same members, and the strings that the
arrays hold. -/
structure PositionBook.Same (read : Entries UInt32 PositionString.size PositionData)
    (written : List (UInt32 × Position)) : Prop where
  entry : ∀ e ∈ written, ∃ p, read e.1 = some p ∧ p.Returns e.2
  absent : ∀ key ∉ written.map Prod.fst, read key = none

theorem PositionBook.loaded_eq {entries : List (UInt32 × Position)}
    (distinct : (entries.map Prod.fst).Nodup) :
    loaded entries = Keyed.ofList Prod.fst (fun e => Record.put none (.put none e.2)) entries := by
  induction entries using List.reverseRecOn with
  | nil => rfl
  | append_singleton entries last ih =>
    rw [List.map_append, List.map_singleton, List.nodup_append] at distinct
    have fresh : last.1 ∉ entries.map Prod.fst :=
      fun before => distinct.2.2 _ before _ (List.mem_singleton.mpr rfl) rfl
    rw [Keyed.ofList_snoc, ← ih distinct.1, loaded, List.foldl_append]
    change Function.update (loaded entries) last.1 (some (.put (loaded entries last.1) _)) = _
    rw [show loaded entries last.1 = none by rw [ih distinct.1, Keyed.ofList_absent fresh]]

theorem PositionBook.loaded_same {entries : List (UInt32 × Position)}
    (distinct : (entries.map Prod.fst).Nodup)
    (terminated : ∀ e ∈ entries, e.2.Terminated) : Same (loaded entries) entries := by
  rw [loaded_eq distinct]
  refine ⟨fun e member => ⟨_, Keyed.ofList_get_of_nodup distinct member, ?_⟩,
    fun key absent => Keyed.ofList_absent absent⟩
  have once : (Record.put none e.2).Returns e.2 :=
    (Record.put_returns_iff (terminated e member)).mpr (by simp)
  have again : (Record.put none e.2).Terminated := fun i => (once.2 i).symm ▸ terminated e member i
  have twice : (Record.put none (.put none e.2)).Returns (.put none e.2) :=
    (Record.put_returns_iff again).mpr (by simp)
  exact ⟨twice.1.trans once.1, fun i => (twice.2 i).trans (once.2 i)⟩

/-! Frames -/

/-- What the constructor makes of the bytes, `data` makes of a frame with them. -/
theorem Event.data_of_holds {α : Type} {construct : UInt32 → Decoder α} {m : Memory} {a : Nat}
    {f : Frame} {value : α}
    (holds : Holds m a f) (reads : Reads (construct (UInt32.ofNat f.data.length)) f.data value) :
    Event.data construct m a = .ok value := by
  have length : FrameUnit.dataLength m a = UInt32.ofNat f.data.length := by
    rw [← holds.dataLength, UInt32.ofNat_toNat]
  have all := reads []
  rw [List.append_nil] at all
  rw [Event.data, length, holds.read, all]

/-- `write` of the encoding succeeds at the end of this journal, and the frame that is then
the last one gives such a value. -/
def Returned {α : Type} (w : Writer.Handle) (files : JournalFiles) (log : Log)
    (triggerTime pageEnd genTime : Int64)
    (tag : Int32) (encoded : List UInt8) (construct : UInt32 → Decoder α)
    (same : α → Prop) : Prop :=
  let op : WriteOp := .write triggerTime encoded tag pageEnd genTime
  ∃ files' log' before value, op.run (w.atEnd log, files) = .ok () (w.atEnd log', files') ∧
    log'.contents = log.contents ++ [op.frame w.location.uid w.destId] ∧
    log'.current = before ++ [op.frame w.location.uid w.destId] ∧
    Event.data construct (files'.bytes log'.lastPageId) (24 + span before) = .ok value ∧ same value

theorem Returned.of_reads {α : Type} {w : Writer.Handle} {files : JournalFiles} {log : Log}
    (layout : Layout w.location files log) (triggerTime pageEnd genTime : Int64) {tag : Int32}
    (typed : tag ≠ pageEndTag)
    {encoded : List UInt8} (fits : encoded.length + 104 < findPageSize w.location)
    {construct : UInt32 → Decoder α} {same : α → Prop} {value : α}
    (reads : Reads (construct (UInt32.ofNat encoded.length)) encoded value) (equal : same value) :
    Returned w files log triggerTime pageEnd genTime tag encoded construct same := by
  let op : WriteOp := .write triggerTime encoded tag pageEnd genTime
  have adm : op.Admissible w.location := ⟨typed, fits⟩
  obtain ⟨files', ran, after⟩ := WriteOp.run_append w layout adm
  have last : (op.append w.location w.destId log).current =
      (op.opened w.location w.destId log).current ++ [op.frame w.location.uid w.destId] := by
    rw [← WriteOp.opened_append adm, WriteOp.append,
      PagedLog.append_of_fits (WriteOp.opened_roomFor adm w.destId log)]
  have chain := after.current.chain
  rw [last, chain_concat] at chain
  exact ⟨files', _, _, value, ran, PagedLog.contents_append _ _ _, last,
    Event.data_of_holds chain.2 reads, equal⟩

/-- Each of the four messages comes back from its frame, wherever in a journal this goes. -/
theorem round_trip (w : Writer.Handle) {files : JournalFiles} {log : Log}
    (layout : Layout w.location files log) (triggerTime pageEnd genTime : Int64) :
    (∀ r : Register, r.toString.length + 104 < findPageSize w.location →
      Returned w files log triggerTime pageEnd genTime Register.tag r.toString
        (fun _ => Register.read) (· = r)) ∧
    (∀ r : Deregister, r.toString.length + 104 < findPageSize w.location →
      Returned w files log triggerTime pageEnd genTime Deregister.tag r.toString
        (fun _ => Deregister.read) (· = r)) ∧
    (∀ m : MDSubscribe, m.toString.length + 104 < findPageSize w.location →
      Returned w files log triggerTime pageEnd genTime MDSubscribe.tag m.toString MDSubscribe.read
        (· = m)) ∧
    ∀ book : PositionBook, (∀ e ∈ book.longPositions ++ book.shortPositions, e.2.Terminated) →
      book.toString.length + 104 < findPageSize w.location →
      Returned w files log triggerTime pageEnd genTime PositionBook.tag book.toString
        PositionBook.read fun read =>
        PositionBook.Same read.longPositions book.longPositions ∧
          PositionBook.Same read.shortPositions book.shortPositions := by
  have page : findPageSize w.location < 2 ^ 32 :=
    lt_of_le_of_lt (findPageSize_bounds w.location).2 (by decide)
  refine ⟨fun r fits => ?_, fun r fits => ?_, fun m fits => ?_, fun book terminated fits => ?_⟩
  · have strings : r.group.length + r.name.length ≤ r.toString.length := by
      simp only [Register.toString, List.length_append]
      omega
    exact .of_reads layout _ _ _ (by decide) fits (r.reads (by omega) (by omega)) rfl
  · have strings : r.group.length + r.name.length ≤ r.toString.length := by
      simp only [Deregister.toString, List.length_append]
      omega
    exact .of_reads layout _ _ _ (by decide) fits (r.reads (by omega) (by omega)) rfl
  · exact .of_reads layout _ _ _ (by decide) fits (m.reads (by omega)) rfl
  · have long := PositionBook.loaded_same book.longDistinct fun e member =>
      terminated e (List.mem_append_left _ member)
    have short := PositionBook.loaded_same book.shortDistinct fun e member =>
        terminated e (List.mem_append_right _ member)
    exact .of_reads layout _ _ _ (by decide) fits (book.reads (by omega)) ⟨long, short⟩

/-- A registration with a NUL inside its name, and the end of it. -/
def account : Register := ⟨7, 0, 1, [115], [97, 0, 98], 42, 1, 2⟩

def accountLeft : Deregister := ⟨7, 0, 1, [115], [97, 0, 98]⟩

/-- The instrument `IF` of the exchange `X`. -/
def future : InstrumentKey :=
  ⟨9, ⟨[73, 70] ++ List.replicate 30 0, rfl⟩, ⟨88 :: List.replicate 15 0, rfl⟩, 2, ⟨[0, 0, 0], rfl⟩⟩

def futures : MDSubscribe := ⟨7, [future, { future with key := 10, padding := ⟨[1, 2, 3], rfl⟩ }]⟩

def Position.held (direction : UInt8) : Position where
  strings
    | .tradingDay => ⟨[50, 48, 50, 52, 48, 49, 48, 50, 0], rfl⟩
    | .instrumentId => future.instrumentId
    | .exchangeId => future.exchangeId
  rest := ⟨1, 2, direction, 3, 4, 5⟩

theorem Position.held_terminated (direction : UInt8) : (held direction).Terminated := by
  intro i
  cases i <;> rfl

/-- A long and a short position under one key. -/
def PositionBook.twoSided : PositionBook :=
  ⟨[(9, .held 0)], [(9, .held 1)], List.nodup_singleton _, List.nodup_singleton _⟩

/-- The four messages, each in the first page of a new journal. -/
theorem round_trip_each :
    let w : Writer.Handle := ⟨JLocation.make .backtest .td "sim" "account" "/runtime", 7, false, 1⟩
    let files := JournalFiles.fresh.addPage 1 (findPageSize w.location)
    Returned w files .empty 0 0 1 Register.tag account.toString (fun _ => Register.read)
      (· = account) ∧
    Returned w files .empty 0 0 1 Deregister.tag accountLeft.toString (fun _ => Deregister.read)
      (· = accountLeft) ∧
    Returned w files .empty 0 0 1 MDSubscribe.tag futures.toString MDSubscribe.read (· = futures) ∧
    Returned w files .empty 0 0 1 PositionBook.tag PositionBook.twoSided.toString
      PositionBook.read fun read =>
      PositionBook.Same read.longPositions [(9, .held 0)] ∧
        PositionBook.Same read.shortPositions [(9, .held 1)] := by
  intro w files
  obtain ⟨register, deregister, subscribe, book⟩ := round_trip w (Layout.start w.location) 0 0 1
  have fits {n : Nat} (small : n < 1048576) : n < findPageSize w.location :=
    lt_of_lt_of_le small (findPageSize_bounds _).1
  refine ⟨register account (fits (by decide)), deregister accountLeft (fits (by decide)),
    subscribe futures (fits (by decide)), book .twoSided (fun e member => ?_)
      (fits (by rw [PositionBook.toString_length]; decide))⟩
  have either : e = (9, .held 0) ∨ e = (9, .held 1) := by simpa [PositionBook.twoSided] using member
  rcases either with rfl | rfl
  · exact Position.held_terminated 0
  · exact Position.held_terminated 1

end BTrader.Messages
