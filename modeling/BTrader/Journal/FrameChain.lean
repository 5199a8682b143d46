import BTrader.Journal.Frame

/-! Stored frames in page memory: when an address holds a frame, and chains of frames
laid end to end. -/
namespace BTrader
open ByteMemory

namespace FrameUnit

theorem header_ext {m m' : Memory} (same : ∀ i < 40, m (a + i) = m' (b + i)) :
    frameLength m a = frameLength m' b ∧ headerLength m a = headerLength m' b ∧
    genTime m a = genTime m' b ∧ triggerTime m a = triggerTime m' b ∧
    msgType m a = msgType m' b ∧ source m a = source m' b ∧ dest m a = dest m' b := by
  have word (offset : Nat) : ∀ i, offset + i < 40 → m (a + offset + i) = m' (b + offset + i) := by
    intro i inside
    simpa only [Nat.add_assoc] using same (offset + i) inside
  refine ⟨load32_ext (fun i hi => word 0 i (by omega)),
    load32_ext (fun i hi => word 4 i (by omega)),
    ?_, ?_, ?_, load32_ext (fun i hi => word 28 i (by omega)),
    load32_ext (fun i hi => word 32 i (by omega))⟩
  · exact congrArg UInt64.toInt64 (load64_ext (fun i hi => word 8 i (by omega)))
  · exact congrArg UInt64.toInt64 (load64_ext (fun i hi => word 16 i (by omega)))
  · exact congrArg UInt32.toInt32 (load32_ext (fun i hi => word 24 i (by omega)))

theorem header_congr {m m' : Memory} (same : Set.EqOn m m' (Set.Ico a (a + 40))) :
    frameLength m a = frameLength m' a ∧ headerLength m a = headerLength m' a ∧
    genTime m a = genTime m' a ∧ triggerTime m a = triggerTime m' a ∧
    msgType m a = msgType m' a ∧ source m a = source m' a ∧ dest m a = dest m' a :=
  header_ext (fun _ hi => same ⟨by omega, by omega⟩)

theorem hasData_congr {m m' : Memory} (same : Set.EqOn m m' (Set.Ico a (a + 40))) :
    hasData m a = hasData m' a := by
  obtain ⟨length, _, _, _, type, _, _⟩ := header_congr same
  simp only [hasData, length, type]

end FrameUnit

/-- The frame `f` is stored at `a`. -/
structure Holds (m : Memory) (a : Nat) (f : Frame) : Prop where
  length : (FrameUnit.frameLength m a).toNat = f.size
  header : FrameUnit.headerLength m a = 40
  read : FrameUnit.read m a = f

namespace Holds

theorem moveToNext (holds : Holds m a f) : FrameUnit.moveToNext m a = a + f.size := by
  rw [FrameUnit.moveToNext, holds.length]

theorem msgType (holds : Holds m a f) : FrameUnit.msgType m a = f.msgType :=
  (FrameUnit.read_msgType m a).symm.trans (congrArg Frame.msgType holds.read)

theorem genTime (holds : Holds m a f) : FrameUnit.genTime m a = f.genTime :=
  (FrameUnit.read_genTime m a).symm.trans (congrArg Frame.genTime holds.read)

theorem length_pos (holds : Holds m a f) : 0 < FrameUnit.frameLength m a := by
  rw [UInt32.lt_iff_toNat_lt, holds.length]
  exact f.size_pos

theorem hasData (holds : Holds m a f) :
    FrameUnit.hasData m a = decide (0 < f.msgType) := by
  simp only [FrameUnit.hasData, holds.length_pos, holds.msgType, decide_true, Bool.true_and]

theorem dataLength (holds : Holds m a f) : (FrameUnit.dataLength m a).toNat = f.data.length := by
  have length := holds.length
  have le : (40 : UInt32) ≤ FrameUnit.frameLength m a := by
    rw [UInt32.le_iff_toNat_le, length, Frame.size]
    simp
  rw [FrameUnit.dataLength, holds.header, UInt32.toNat_sub_of_le _ _ le, length, Frame.size]
  simp

theorem dataAddress (holds : Holds m a f) : FrameUnit.dataAddress m a = a + 40 := by
  rw [FrameUnit.dataAddress, holds.header]
  rfl

/-- A byte for byte copy of a stored frame is a stored frame. -/
theorem relocate {m m' : Memory} (holds : Holds m a f)
    (same : ∀ i < f.size, m' (b + i) = m (a + i)) : Holds m' b f := by
  rw [f.size_eq] at same
  obtain ⟨length, header, gen, trigger, type, source, dest⟩ :=
    FrameUnit.header_ext (fun i hi => same i (by omega))
  refine ⟨by rw [length]; exact holds.length, by rw [header]; exact holds.header, ?_⟩
  have address : FrameUnit.dataAddress m' b = b + 40 := by
    rw [FrameUnit.dataAddress, header, holds.header]
    rfl
  have count : FrameUnit.dataLength m' b = FrameUnit.dataLength m a := by
    rw [FrameUnit.dataLength, length, header, FrameUnit.dataLength]
  have payload : m'.slice (b + 40) f.data.length = m.slice (a + 40) f.data.length :=
    slice_ext (fun i hi => by simpa only [Nat.add_assoc] using same (40 + i) (by omega))
  rw [← holds.read]
  simp only [FrameUnit.read, gen, trigger, type, source, dest, address, count, holds.dataAddress,
    holds.dataLength, payload]

theorem congr {m m' : Memory} (holds : Holds m a f)
    (same : Set.EqOn m' m (Set.Ico a (a + f.size))) : Holds m' a f :=
  holds.relocate (fun _ hi => same ⟨by omega, by omega⟩)

end Holds

/-- The bytes a list of frames takes. -/
def span (fs : List Frame) : Nat := (fs.map Frame.size).sum

@[simp] theorem span_nil : span [] = 0 := rfl

@[simp] theorem span_cons (f : Frame) (fs : List Frame) : span (f :: fs) = f.size + span fs := by
  simp [span]

@[simp] theorem span_append (fs gs : List Frame) : span (fs ++ gs) = span fs + span gs := by
  simp [span]

/-- The frames `fs` are stored end to end from `a` on. -/
def Chain (m : Memory) : Nat → List Frame → Prop
  | _, [] => True
  | a, f :: fs => Holds m a f ∧ Chain m (a + f.size) fs

theorem Chain.congr {m m' : Memory} (chain : Chain m a fs)
    (same : Set.EqOn m' m (Set.Ico a (a + span fs))) : Chain m' a fs := by
  induction fs generalizing a with
  | nil => trivial
  | cons f fs ih =>
    simp only [span_cons] at same
    refine ⟨chain.1.congr (fun x hx => same ⟨hx.1, by have := hx.2; omega⟩), ?_⟩
    exact ih chain.2 (fun x hx => same ⟨by have := hx.1; omega, by have := hx.2; omega⟩)

theorem chain_append : Chain m a (fs ++ gs) ↔ Chain m a fs ∧ Chain m (a + span fs) gs := by
  induction fs generalizing a with
  | nil => simp [Chain]
  | cons f fs ih => simp only [List.cons_append, Chain, ih, span_cons, Nat.add_assoc, and_assoc]

theorem chain_concat : Chain m a (fs ++ [f]) ↔ Chain m a fs ∧ Holds m (a + span fs) f := by
  rw [chain_append]
  simp [Chain]

theorem Chain.get (chain : Chain m a (fs ++ f :: gs)) : Holds m (a + span fs) f :=
  (chain_append.mp chain).2.1

end BTrader
