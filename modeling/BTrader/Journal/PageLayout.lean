import BTrader.Journal.FrameStores
import BTrader.Lib.PagedLog

/-! What a page stores: a valid page header, frames end to end behind it, the last
frame position on the last of them and nothing but zeros after them. -/
namespace BTrader
open ByteMemory Infra

theorem findPageSize_bounds (location : JLocation) :
    mebibyte ≤ findPageSize location ∧ findPageSize location ≤ 128 * mebibyte := by
  unfold findPageSize mebibyte
  split <;> omega

/-- The room of a page for frames: a frame that would end at or behind the border
does not fit. -/
def pageRoom (size : Nat) : Nat := size - sizeofFrameHeader - sizeofPageHeader

namespace PageUnit

/-- The header of a page of that size. -/
structure Header (size : Nat) (m : Memory) : Prop where
  version : version m = journalVersion
  pageHeaderLength : pageHeaderLength m = UInt32.ofNat sizeofPageHeader
  getPageSize : getPageSize m = UInt32.ofNat size

structure Stored (size : Nat) (m : Memory) (fs : List Frame) : Prop where
  header : Header size m
  chain : Chain m 24 fs
  last : lastFramePosition m = UInt64.ofNat (24 + span fs.dropLast)
  clear : ∀ x, 24 + span fs ≤ x → m x = 0

variable {size : Nat} {m m' : Memory} {fs : List Frame}

theorem Header.congr (header : Header size m) (same : Set.EqOn m' m (Set.Ico 0 16)) :
    Header size m' := by
  have word (a : Nat) (low : a + 4 ≤ 16) : m'.load32 a = m.load32 a :=
    load32_congr (fun x hx => same ⟨by omega, by have := hx.2; omega⟩)
  exact ⟨(word 0 (by omega)).trans header.version,
    (word 4 (by omega)).trans header.pageHeaderLength, (word 8 (by omega)).trans header.getPageSize⟩

theorem Header.firstFrameAddress (header : Header size m) :
    firstFrameAddress m = 24 := by
  rw [PageUnit.firstFrameAddress, header.pageHeaderLength]
  rfl

theorem Header.getPageSize_toNat (header : Header size m) (small : size < 2 ^ 32) :
    (PageUnit.getPageSize m).toNat = size := by
  rw [header.getPageSize, UInt32.toNat_ofNat']
  exact Nat.mod_eq_of_lt small

theorem Header.addressBorder (header : Header size m) (small : size < 2 ^ 32) :
    addressBorder m = size - 40 := by
  rw [PageUnit.addressBorder, header.getPageSize_toNat small]

namespace Stored

/-- A frame put behind the stored ones, with the last frame position moved to it. -/
theorem append (stored : Stored size m fs) (holds : Holds m' (24 + span fs) f)
    (last : lastFramePosition m' = UInt64.ofNat (24 + span fs))
    (frame : ∀ x, x < 16 ∨ 24 ≤ x → x < 24 + span fs → m' x = m x)
    (clear : ∀ x, 24 + span fs + f.size ≤ x → m' x = 0) :
    Stored size m' (fs ++ [f]) := by
  refine ⟨stored.header.congr (fun x hx => frame x (Or.inl hx.2) (by have := hx.2; omega)),
    ?_, ?_, ?_⟩
  · rw [chain_concat]
    exact ⟨stored.chain.congr (fun x hx => frame x (Or.inr hx.1) hx.2), holds⟩
  · rw [List.dropLast_concat]
    exact last
  · intro x beyond
    exact clear x (by rw [span_append, span_cons, span_nil] at beyond; omega)

theorem slot_length (stored : Stored size m fs) :
    FrameUnit.frameLength m (24 + span fs) = 0 :=
  load32_zero (fun x hx => stored.clear x hx.1)

theorem slot_hasData (stored : Stored size m fs) :
    FrameUnit.hasData m (24 + span fs) = false := by
  rw [FrameUnit.hasData, stored.slot_length]
  rfl

theorem slot_genTime (stored : Stored size m fs) :
    FrameUnit.genTime m (24 + span fs) = 0 := by
  rw [FrameUnit.genTime, load64_zero (fun x hx => stored.clear x (by have := hx.1; omega))]
  rfl

theorem lastFrameAddress (stored : Stored size m fs) (small : 24 + span fs < 2 ^ 32) :
    lastFrameAddress m = 24 + span fs.dropLast := by
  have le : span fs.dropLast ≤ span fs := by
    cases fs using List.reverseRecOn with
    | nil => simp
    | append_singleton fs f => simp
  rw [PageUnit.lastFrameAddress, stored.last, UInt64.toNat_ofNat']
  exact Nat.mod_eq_of_lt (by omega)

/-- The last frame ends where the frames end. -/
theorem last_moveToNext (stored : Stored size m fs) (small : 24 + span fs < 2 ^ 32) :
    FrameUnit.moveToNext m (PageUnit.lastFrameAddress m) = 24 + span fs := by
  rw [stored.lastFrameAddress small]
  cases fs using List.reverseRecOn with
  | nil =>
    have slot := stored.slot_length
    simp only [List.dropLast_nil, span_nil, FrameUnit.moveToNext] at slot ⊢
    rw [slot]
    rfl
  | append_singleton fs f =>
    have holds := (chain_concat.mp stored.chain).2
    rw [List.dropLast_concat, holds.moveToNext, span_append, span_cons, span_nil]
    omega

theorem isFull (stored : Stored size m fs) (small : size < 2 ^ 32)
    (inside : 24 + span fs ≤ size) :
    isFull m = decide (size - 40 < 24 + span fs) := by
  have next := stored.last_moveToNext (by omega)
  rw [FrameUnit.moveToNext] at next
  rw [PageUnit.isFull, next, stored.header.addressBorder small]

theorem beginTime (stored : Stored size m fs) :
    beginTime m = (fs.head?.map Frame.genTime).getD 0 := by
  rw [PageUnit.beginTime, stored.header.firstFrameAddress]
  cases fs with
  | nil => exact stored.slot_genTime
  | cons f fs => exact stored.chain.1.genTime

theorem endTime (stored : Stored size m fs) (small : 24 + span fs < 2 ^ 32) :
    endTime m = (fs.getLast?.map Frame.genTime).getD 0 := by
  rw [PageUnit.endTime, stored.lastFrameAddress small]
  cases fs using List.reverseRecOn with
  | nil => exact stored.slot_genTime
  | append_singleton fs f =>
    rw [List.dropLast_concat, (chain_concat.mp stored.chain).2.genTime]
    simp

theorem lastFramePosition_ne_zero (stored : Stored size m fs)
    (small : 24 + span fs < 2 ^ 32) : lastFramePosition m ≠ 0 := by
  intro zero
  have address := stored.lastFrameAddress small
  rw [PageUnit.lastFrameAddress, zero, UInt64.toNat_zero] at address
  omega

end Stored

/-- The bytes of a page that was just created. -/
def initial (size : Nat) : Memory := Memory.execAll 0 (initHeader size)

theorem initial_stored (size : Nat) : Stored size (initial size) [] := by
  have words : version (initial size) = journalVersion ∧
      pageHeaderLength (initial size) = UInt32.ofNat sizeofPageHeader ∧
      getPageSize (initial size) = UInt32.ofNat size ∧
      lastFramePosition (initial size) = 24 := by
    simp (disch := simp only [word32_address, word64_address, word32_length, word64_length]; omega)
      [initial, initHeader, Memory.exec, version, pageHeaderLength, getPageSize, lastFramePosition,
       load32_write_of_apart]
    rfl
  obtain ⟨version, headerLength, pageSize, last⟩ := words
  refine ⟨⟨version, headerLength, pageSize⟩, trivial, last, ?_⟩
  intro x beyond
  rw [initial, execAll_frame]
  · rfl
  · intro op member m
    simp only [initHeader, List.mem_cons, List.not_mem_nil, or_false] at member
    simp only [span_nil] at beyond
    rcases member with rfl | rfl | rfl | rfl | rfl <;> simp [Store.Touches] <;> omega

end PageUnit

/-- Store sequences that place the frame `f` at an address: they make the frame, clear
the header behind it, move the last frame position to it and touch nothing else. -/
structure Places (stores : Nat → List StoreOp) (f : Frame) : Prop where
  holds : ∀ (m : Memory) a, 24 ≤ a → Holds (m.execAll (stores a)) a f
  last : ∀ (m : Memory) a, PageUnit.lastFramePosition (m.execAll (stores a)) = UInt64.ofNat a
  slot : ∀ (m : Memory) a x, 24 ≤ a → a + f.size ≤ x → x < a + f.size + sizeofFrameHeader →
    m.execAll (stores a) x = 0
  frame : ∀ (m : Memory) a x, x < 16 ∨ 24 ≤ x → x < a ∨ a + f.size + sizeofFrameHeader ≤ x →
    m.execAll (stores a) x = m x

namespace PageUnit.Stored

variable {size : Nat} {m : Memory} {fs : List Frame}

/-- A frame placed behind the stored ones is one stored frame more. -/
theorem place (stored : Stored size m fs) (places : Places stores f) :
    Stored size (m.execAll (stores (24 + span fs))) (fs ++ [f]) := by
  have first : 24 ≤ 24 + span fs := by omega
  refine stored.append (places.holds m _ first) (places.last m _)
    (fun x cursor before => places.frame m _ x cursor (Or.inl before)) ?_
  intro x beyond
  by_cases slot : x < 24 + span fs + f.size + sizeofFrameHeader
  · exact places.slot m _ x first beyond slot
  · rw [places.frame m _ x (by omega) (by omega)]
    exact stored.clear x (by omega)

/-- A frame placed over stored ones ends the page's frames: the chain stops behind it. -/
theorem overwrite (fs gs : List Frame) (stored : Stored size m (fs ++ gs))
    (places : Places stores f) :
    Header size (m.execAll (stores (24 + span fs))) ∧
    Chain (m.execAll (stores (24 + span fs))) 24 (fs ++ [f]) ∧
    FrameUnit.frameLength (m.execAll (stores (24 + span fs))) (24 + span fs + f.size) = 0 := by
  have first : 24 ≤ 24 + span fs := by omega
  refine ⟨?_, ?_, ?_⟩
  · exact stored.header.congr fun x inside =>
      places.frame m _ x (Or.inl inside.2) (Or.inl (by have := inside.2; omega))
  · rw [chain_concat]
    refine ⟨?_, places.holds m _ first⟩
    exact (chain_append.mp stored.chain).1.congr fun x inside =>
      places.frame m _ x (Or.inr inside.1) (Or.inl inside.2)
  · apply load32_zero
    intro x inside
    exact places.slot m _ x first inside.1 (by
      have := inside.2
      unfold sizeofFrameHeader
      omega)

theorem sealed (stored : Stored size m fs) (t g : Int64) (s d : UInt32) :
    Stored size (m.execAll (Writer.sealStores (24 + span fs) t g s d))
      (fs ++ [Writer.pageEndFrame t g s d]) := by
  have first : 24 ≤ 24 + span fs := by omega
  refine stored.append (Writer.sealStores_holds m t g s d first) (Writer.sealStores_last m)
    (fun x cursor before => Writer.sealStores_frame m cursor (Or.inl before)) ?_
  intro x beyond
  have size : (Writer.pageEndFrame t g s d).size = 40 := rfl
  rw [Writer.sealStores_frame m (by omega) (by omega)]
  exact stored.clear x (by omega)

end PageUnit.Stored

theorem Writer.Draft.places (d : Draft) (fits : d.data.length + 40 < 2 ^ 32) :
    Places d.stores d.frame := by
  have size : d.frame.size = 40 + d.data.length := d.frame_size
  refine ⟨fun m a first => d.stores_holds m first fits, fun m a => d.stores_last m, ?_, ?_⟩
  · intro m a x first lower upper
    exact d.stores_slot m first (by omega) (by omega)
  · intro m a x cursor outside
    exact d.stores_frame m cursor (by omega)

theorem SourceFrame.places (source : SourceFrame) : Places source.stores source.frame :=
  ⟨fun m _ first => source.stores_holds m first, fun m _ => source.stores_last m,
    fun m _ _ first lower upper => source.stores_slot m first lower upper,
    fun m _ _ cursor outside => source.stores_frame m cursor outside⟩

end BTrader
