import BTrader.Journal.FrameChain
import BTrader.Journal.Writer

/-! What the store sequences of the writer make of a page: the frame of a write, the
page end marker and the copy of a stored frame. -/
namespace BTrader
open ByteMemory Infra

namespace Writer

section Stores

variable {m : Memory} {frame next : Nat} {t g : Int64} {ty : Int32} {s d : UInt32}
  {retarget : Option (UInt32 × UInt32)}

theorem openStores_header (m : Memory) (frame : Nat) (t : Int64) (ty : Int32) (s d : UInt32) :
    FrameUnit.headerLength (m.execAll (openStores frame t ty s d)) frame = 40 ∧
    FrameUnit.triggerTime (m.execAll (openStores frame t ty s d)) frame = t ∧
    FrameUnit.msgType (m.execAll (openStores frame t ty s d)) frame = ty ∧
    FrameUnit.source (m.execAll (openStores frame t ty s d)) frame = s ∧
    FrameUnit.dest (m.execAll (openStores frame t ty s d)) frame = d := by
  simp (disch := simp only [word32_address, word64_address, word32_length, word64_length]; omega)
    [openStores, Memory.exec, FrameUnit.msgType, FrameUnit.headerLength, FrameUnit.triggerTime,
     FrameUnit.source, FrameUnit.dest, FrameUnit.setHeaderLength, FrameUnit.setTriggerTime,
     FrameUnit.setMsgType, FrameUnit.setSource, FrameUnit.setDest,
     load32_write_of_apart, load64_write_of_apart]

theorem retargetStores_header (m : Memory) (frame : Nat) (retarget : Option (UInt32 × UInt32)) :
    FrameUnit.headerLength (m.execAll (retargetStores frame retarget)) frame =
      FrameUnit.headerLength m frame ∧
    FrameUnit.triggerTime (m.execAll (retargetStores frame retarget)) frame =
      FrameUnit.triggerTime m frame ∧
    FrameUnit.msgType (m.execAll (retargetStores frame retarget)) frame =
      FrameUnit.msgType m frame ∧
    FrameUnit.source (m.execAll (retargetStores frame retarget)) frame =
      (retarget.map Prod.fst).getD (FrameUnit.source m frame) ∧
    FrameUnit.dest (m.execAll (retargetStores frame retarget)) frame =
      (retarget.map Prod.snd).getD (FrameUnit.dest m frame) := by
  cases retarget with
  | none => simp [retargetStores]
  | some target =>
    simp (disch := simp only [word32_address, word32_length]; omega)
      [retargetStores, Memory.exec, FrameUnit.msgType, FrameUnit.headerLength,
       FrameUnit.triggerTime, FrameUnit.source, FrameUnit.dest, FrameUnit.setSource,
       FrameUnit.setDest, load32_write_of_apart, load64_write_of_apart]

theorem closeStores_header (m : Memory) (n : UInt32) (g : Int64) (below : frame + 40 ≤ next)
    (first : 24 ≤ frame) :
    FrameUnit.headerLength (m.execAll (closeStores frame next n g)) frame =
      FrameUnit.headerLength m frame ∧
    FrameUnit.triggerTime (m.execAll (closeStores frame next n g)) frame =
      FrameUnit.triggerTime m frame ∧
    FrameUnit.msgType (m.execAll (closeStores frame next n g)) frame = FrameUnit.msgType m frame ∧
    FrameUnit.source (m.execAll (closeStores frame next n g)) frame = FrameUnit.source m frame ∧
    FrameUnit.dest (m.execAll (closeStores frame next n g)) frame = FrameUnit.dest m frame ∧
    FrameUnit.genTime (m.execAll (closeStores frame next n g)) frame = g ∧
    FrameUnit.frameLength (m.execAll (closeStores frame next n g)) frame =
      FrameUnit.headerLength m frame + n := by
  simp (disch := simp only [word32_address, word64_address, word32_length, word64_length]; omega)
    [closeStores, clearBytes, execAll_append, execAll_copyBytes, Memory.exec, FrameUnit.msgType,
     FrameUnit.headerLength, FrameUnit.triggerTime, FrameUnit.source, FrameUnit.dest,
     FrameUnit.genTime, FrameUnit.frameLength, FrameUnit.setGenTime, FrameUnit.setDataLength,
     PageUnit.setLastFramePosition, load32_write_of_apart, load64_write_of_apart]

theorem openStores_frame (m : Memory) (outside : x < frame + 4 ∨ frame + 36 ≤ x) :
    m.execAll (openStores frame t ty s d) x = m x := by
  apply execAll_frame
  intro op member m
  simp only [openStores, List.mem_cons, List.not_mem_nil, or_false] at member
  rcases member with rfl | rfl | rfl | rfl | rfl <;>
    simp [Store.Touches, FrameUnit.setHeaderLength, FrameUnit.setTriggerTime,
      FrameUnit.setMsgType, FrameUnit.setSource, FrameUnit.setDest] <;> omega

theorem retargetStores_frame (m : Memory) (outside : x < frame + 28 ∨ frame + 36 ≤ x) :
    m.execAll (retargetStores frame retarget) x = m x := by
  apply execAll_frame
  intro op member m
  cases retarget with
  | none => simp [retargetStores] at member
  | some target =>
    simp only [retargetStores, List.mem_cons, List.not_mem_nil, or_false] at member
    rcases member with rfl | rfl <;>
      simp [Store.Touches, FrameUnit.setSource, FrameUnit.setDest] <;> omega

theorem closeStores_frame (m : Memory) {n : UInt32} (cursor : x < 16 ∨ 24 ≤ x)
    (head : x < frame ∨ frame + 16 ≤ x) (slot : x < next ∨ next + sizeofFrameHeader ≤ x) :
    m.execAll (closeStores frame next n g) x = m x := by
  apply execAll_frame
  intro op member m touched
  simp only [closeStores, List.mem_append, List.mem_cons, List.not_mem_nil, or_false] at member
  rcases member with member | rfl | rfl | rfl
  · have := copyBytes_touches member touched
    rw [List.length_replicate] at this
    omega
  all_goals
    simp [Store.Touches, FrameUnit.setGenTime, FrameUnit.setDataLength,
      PageUnit.setLastFramePosition] at touched
    omega

theorem closeStores_slot (m : Memory) {n : UInt32} (below : frame + 40 ≤ next) (first : 24 ≤ frame)
    (lower : next ≤ x) (upper : x < next + sizeofFrameHeader) :
    m.execAll (closeStores frame next n g) x = 0 := by
  rw [closeStores, execAll_append, execAll_frame, clearBytes_slot m lower upper]
  intro op member m touched
  simp only [List.mem_cons, List.not_mem_nil, or_false] at member
  rcases member with rfl | rfl | rfl <;>
    simp [Store.Touches, FrameUnit.setGenTime, FrameUnit.setDataLength,
      PageUnit.setLastFramePosition] at touched <;> omega

theorem closeStores_last (m : Memory) {n : UInt32} :
    PageUnit.lastFramePosition (m.execAll (closeStores frame next n g)) = UInt64.ofNat frame := by
  simp [closeStores, execAll_append, Memory.exec, PageUnit.setLastFramePosition,
    PageUnit.lastFramePosition]

end Stores

/-- The content of one write: the arguments of the call and the uids of the journal. -/
structure Draft where
  triggerTime : Int64
  msgType : Int32
  source : UInt32
  dest : UInt32
  retarget : Option (UInt32 × UInt32)
  data : List UInt8
  genTime : Int64
  deriving DecidableEq

namespace Draft

/-- The frame the write stores. -/
def frame (d : Draft) : Frame where
  genTime := d.genTime
  triggerTime := d.triggerTime
  msgType := d.msgType
  source := (d.retarget.map Prod.fst).getD d.source
  dest := (d.retarget.map Prod.snd).getD d.dest
  data := d.data

@[simp] theorem frame_msgType (d : Draft) : d.frame.msgType = d.msgType := rfl

@[simp] theorem frame_data (d : Draft) : d.frame.data = d.data := rfl

theorem frame_size (d : Draft) : d.frame.size = 40 + d.data.length := rfl

/-- The stores that fill the frame in before it is closed. -/
def fillStores (d : Draft) (a : Nat) : List StoreOp :=
  openStores a d.triggerTime d.msgType d.source d.dest ++
    (copyBytes (a + 40) d.data ++ retargetStores a d.retarget)

/-- All stores the write makes on its page, in program order. -/
def stores (d : Draft) (a : Nat) : List StoreOp :=
  d.fillStores a ++ closeStores a (a + 40 + d.data.length) (UInt32.ofNat d.data.length) d.genTime

/-- A write leaves the page alone outside its frame, the next header and the page's
last frame position. -/
theorem stores_frame (d : Draft) (m : Memory) (cursor : x < 16 ∨ 24 ≤ x)
    (outside : x < a ∨ a + 40 + d.data.length + sizeofFrameHeader ≤ x) :
    m.execAll (d.stores a) x = m x := by
  rw [stores, fillStores, execAll_append, execAll_append, execAll_append,
    closeStores_frame _ cursor (by omega) (by omega), retargetStores_frame _ (by omega),
    execAll_copyBytes, write_frame, openStores_frame _ (by omega)]
  simp only [Store.Touches]
  omega

/-- Everything of the frame is in place but its length and time. -/
structure Filled (m : Memory) (a : Nat) (f : Frame) : Prop where
  header : FrameUnit.headerLength m a = 40
  triggerTime : FrameUnit.triggerTime m a = f.triggerTime
  msgType : FrameUnit.msgType m a = f.msgType
  source : FrameUnit.source m a = f.source
  dest : FrameUnit.dest m a = f.dest
  payload : m.slice (a + 40) f.data.length = f.data

theorem fill (d : Draft) (m : Memory) (a : Nat) :
    Filled (m.execAll (d.fillStores a)) a d.frame := by
  rw [fillStores, execAll_append, execAll_append, execAll_copyBytes]
  have opened := openStores_header m a d.triggerTime d.msgType d.source d.dest
  generalize m.execAll (openStores a d.triggerTime d.msgType d.source d.dest) = m₁ at opened ⊢
  have apart : Set.EqOn (m₁.write ⟨a + 40, d.data⟩) m₁ (Set.Ico a (a + 40)) :=
    write_eqOn _ _ (Or.inl (by simp only; omega))
  have copied := FrameUnit.header_congr apart
  have payload : (m₁.write ⟨a + 40, d.data⟩).slice (a + 40) d.data.length = d.data :=
    slice_write_self m₁ ⟨a + 40, d.data⟩
  generalize m₁.write ⟨a + 40, d.data⟩ = m₂ at copied payload ⊢
  have targeted := retargetStores_header m₂ a d.retarget
  have kept : (m₂.execAll (retargetStores a d.retarget)).slice (a + 40) d.data.length =
      m₂.slice (a + 40) d.data.length :=
    slice_congr (fun x hx => retargetStores_frame _ (Or.inr (by have := hx.1; omega)))
  obtain ⟨_, header, _, trigger, type, source, dest⟩ := copied
  obtain ⟨header', trigger', type', source', dest'⟩ := targeted
  obtain ⟨header'', trigger'', type'', source'', dest''⟩ := opened
  exact ⟨by rw [header', header, header''], by rw [trigger', trigger, trigger'', frame],
    by rw [type', type, type'', frame], by rw [source', source, source'', frame],
    by rw [dest', dest, dest'', frame], kept.trans payload⟩

/-- Closing publishes what was filled in. -/
theorem Filled.close {f : Frame} (filled : Filled m a f) (first : 24 ≤ a) (fits : f.size < 2 ^ 32) :
    Holds (m.execAll (closeStores a (a + f.size) (UInt32.ofNat f.data.length) f.genTime)) a f := by
  have below : a + 40 ≤ a + f.size := by rw [Frame.size_eq]; omega
  obtain ⟨header, trigger, type, source, dest, gen, length⟩ :=
    closeStores_header m (UInt32.ofNat f.data.length) f.genTime below first
  have payload : (m.execAll (closeStores a (a + f.size) (UInt32.ofNat f.data.length)
      f.genTime)).slice (a + 40) f.data.length = m.slice (a + 40) f.data.length :=
    slice_congr (fun x hx => by
      have := hx.1
      have := hx.2
      exact closeStores_frame _ (by omega) (by omega) (by rw [Frame.size_eq]; omega))
  generalize m.execAll _ = m' at *
  have lengthNat : (FrameUnit.frameLength m' a).toNat = f.size := by
    rw [Frame.size_eq] at fits ⊢
    rw [length, filled.header, UInt32.toNat_add]
    simp
    omega
  have count : (FrameUnit.dataLength m' a).toNat = f.data.length := by
    rw [Frame.size_eq] at fits
    rw [FrameUnit.dataLength, header, length, filled.header, UInt32.add_comm, UInt32.add_sub_cancel]
    simp
    omega
  refine ⟨lengthNat, header.trans filled.header, ?_⟩
  have address : FrameUnit.dataAddress m' a = a + 40 := by
    rw [FrameUnit.dataAddress, header, filled.header]
    rfl
  simp only [FrameUnit.read, gen, trigger, type, source, dest, filled.triggerTime, filled.msgType,
    filled.source, filled.dest, address, count, payload, filled.payload]

theorem stores_holds (d : Draft) (m : Memory) (first : 24 ≤ a)
    (fits : d.data.length + 40 < 2 ^ 32) :
    Holds (m.execAll (d.stores a)) a d.frame := by
  rw [stores, execAll_append]
  have closed := (d.fill m a).close first (by rw [frame_size]; omega)
  rwa [frame_size, ← Nat.add_assoc] at closed

theorem stores_last (d : Draft) (m : Memory) :
    PageUnit.lastFramePosition (m.execAll (d.stores a)) = UInt64.ofNat a := by
  rw [stores, execAll_append, closeStores_last]

theorem stores_slot (d : Draft) (m : Memory) (first : 24 ≤ a) (lower : a + 40 + d.data.length ≤ x)
    (upper : x < a + 40 + d.data.length + sizeofFrameHeader) : m.execAll (d.stores a) x = 0 := by
  rw [stores, execAll_append, closeStores_slot _ (by omega) first lower upper]

end Draft

/-- The marker frame a page is closed with. -/
def pageEndFrame (triggerTime pageEnd : Int64) (source dest : UInt32) : Frame :=
  ⟨pageEnd, triggerTime, pageEndTag, source, dest, []⟩

/-- The stores of `closePage` on the page left behind. -/
def sealStores (frame : Nat) (triggerTime pageEnd : Int64) (source dest : UInt32) : List StoreOp :=
  pageEndStores frame triggerTime pageEnd source dest ++
    [PageUnit.setLastFramePosition (UInt64.ofNat frame)]

theorem sealStores_holds (m : Memory) (t g : Int64) (s d : UInt32) (first : 24 ≤ frame) :
    Holds (m.execAll (sealStores frame t g s d)) frame (pageEndFrame t g s d) := by
  have header : ∀ m' : Memory, m' = m.execAll (sealStores frame t g s d) →
      FrameUnit.frameLength m' frame = 40 ∧ FrameUnit.headerLength m' frame = 40 ∧
      FrameUnit.genTime m' frame = g ∧ FrameUnit.triggerTime m' frame = t ∧
      FrameUnit.msgType m' frame = pageEndTag ∧ FrameUnit.source m' frame = s ∧
      FrameUnit.dest m' frame = d := by
    rintro m' rfl
    simp (disch := simp only [word32_address, word64_address, word32_length, word64_length]; omega)
      [sealStores, pageEndStores, Memory.exec, FrameUnit.frameLength, FrameUnit.msgType,
       FrameUnit.headerLength, FrameUnit.triggerTime, FrameUnit.source, FrameUnit.dest,
       FrameUnit.genTime, FrameUnit.setGenTime, FrameUnit.setDataLength, FrameUnit.setHeaderLength,
       FrameUnit.setTriggerTime, FrameUnit.setMsgType, FrameUnit.setSource, FrameUnit.setDest,
       PageUnit.setLastFramePosition, load32_write_of_apart, load64_write_of_apart]
  obtain ⟨length, header, gen, trigger, type, source, dest⟩ := header _ rfl
  generalize m.execAll _ = m' at *
  refine ⟨by rw [length]; rfl, header, ?_⟩
  simp only [FrameUnit.read, FrameUnit.dataLength, length, header, gen, trigger, type, source, dest]
  rfl

theorem sealStores_last (m : Memory) :
    PageUnit.lastFramePosition (m.execAll (sealStores frame t g s d)) = UInt64.ofNat frame := by
  simp [sealStores, execAll_append, Memory.exec, PageUnit.setLastFramePosition,
    PageUnit.lastFramePosition]

theorem sealStores_frame (m : Memory) (cursor : x < 16 ∨ 24 ≤ x)
    (outside : x < frame ∨ frame + 36 ≤ x) : m.execAll (sealStores frame t g s d) x = m x := by
  apply execAll_frame
  intro op member m
  simp only [sealStores, pageEndStores, List.cons_append, List.nil_append, List.mem_cons,
    List.not_mem_nil, or_false] at member
  rcases member with rfl | rfl | rfl | rfl | rfl | rfl | rfl | rfl <;>
    simp [Store.Touches, FrameUnit.setHeaderLength, FrameUnit.setTriggerTime, FrameUnit.setMsgType,
      FrameUnit.setSource, FrameUnit.setDest, FrameUnit.setGenTime, FrameUnit.setDataLength,
      PageUnit.setLastFramePosition] <;> omega

end Writer

/-- A stored frame of some mapping, as `copyFrame` is given one. -/
structure SourceFrame where
  memory : Memory
  address : Nat
  frame : Frame
  holds : Holds memory address frame

namespace SourceFrame

/-- The stores of `copyFrame` after the page change. -/
def stores (source : SourceFrame) (a : Nat) : List StoreOp :=
  FrameUnit.copy a source.memory source.address ++
    (clearBytes (a + source.frame.size) sizeofFrameHeader ++
      [PageUnit.setLastFramePosition (UInt64.ofNat a)])

theorem tail_frame (m : Memory) (cursor : x < 16 ∨ 24 ≤ x)
    (outside : x < next ∨ next + sizeofFrameHeader ≤ x) :
    m.execAll (clearBytes next sizeofFrameHeader ++
      [PageUnit.setLastFramePosition (UInt64.ofNat a)]) x = m x := by
  apply execAll_frame
  intro op member m touched
  simp only [List.mem_append, List.mem_singleton] at member
  rcases member with member | rfl
  · have := copyBytes_touches member touched
    rw [List.length_replicate] at this
    omega
  · simp [Store.Touches, PageUnit.setLastFramePosition] at touched
    omega

theorem copy_write (source : SourceFrame) (m : Memory) (a : Nat) :
    m.execAll (FrameUnit.copy a source.memory source.address) =
      m.write ⟨a, source.memory.slice source.address source.frame.size⟩ := by
  rw [FrameUnit.copy, execAll_copyBytes, source.holds.length]

theorem copy_holds (source : SourceFrame) (m : Memory) (a : Nat) :
    Holds (m.execAll (FrameUnit.copy a source.memory source.address)) a source.frame := by
  rw [copy_write]
  apply source.holds.relocate
  intro i hi
  have stored :=
    write_at m ⟨a, source.memory.slice source.address source.frame.size⟩ i (by simpa using hi)
  rw [stored, slice_get]

theorem stores_holds (source : SourceFrame) (m : Memory) (first : 24 ≤ a) :
    Holds (m.execAll (source.stores a)) a source.frame := by
  rw [stores, execAll_append]
  exact (source.copy_holds m a).congr (fun x hx => tail_frame _ (Or.inr (by have := hx.1; omega))
    (Or.inl hx.2))

theorem stores_last (source : SourceFrame) (m : Memory) :
    PageUnit.lastFramePosition (m.execAll (source.stores a)) = UInt64.ofNat a := by
  simp [stores, execAll_append, Memory.exec, PageUnit.setLastFramePosition,
    PageUnit.lastFramePosition]

theorem stores_slot (source : SourceFrame) (m : Memory) (first : 24 ≤ a)
    (lower : a + source.frame.size ≤ x) (upper : x < a + source.frame.size + sizeofFrameHeader) :
    m.execAll (source.stores a) x = 0 := by
  rw [stores, execAll_append, execAll_append, execAll_frame, clearBytes_slot _ lower upper]
  intro op member m touched
  obtain rfl := List.mem_singleton.mp member
  simp [Store.Touches, PageUnit.setLastFramePosition] at touched
  omega

theorem stores_frame (source : SourceFrame) (m : Memory) (cursor : x < 16 ∨ 24 ≤ x)
    (outside : x < a ∨ a + source.frame.size + sizeofFrameHeader ≤ x) :
    m.execAll (source.stores a) x = m x := by
  rw [stores, execAll_append, tail_frame _ cursor (by omega), copy_write, write_frame]
  rintro ⟨lower, upper⟩
  simp only [slice_length] at lower upper
  omega

end SourceFrame
end BTrader
