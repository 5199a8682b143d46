import BTrader.Lib.Memory

/-! Frame headers in page memory. A frame unit is the address of its header in
the page; getters read the memory, setters are single stores. -/
namespace BTrader
open ByteMemory

abbrev sizeofFrameHeader : Nat := 40

/-- `MsgTag::PageEnd`. -/
def pageEndTag : Int32 := 0

/-- The fields of a stored frame that the writer fills in, with its payload. -/
structure Frame where
  genTime : Int64
  triggerTime : Int64
  msgType : Int32
  source : UInt32
  dest : UInt32
  data : List UInt8
  deriving DecidableEq, Repr

namespace Frame

/-- The length field of the frame: header and payload. -/
def size (f : Frame) : Nat := sizeofFrameHeader + f.data.length

theorem size_eq (f : Frame) : f.size = 40 + f.data.length := rfl

theorem size_pos (f : Frame) : 0 < f.size := by
  rw [size_eq]
  omega

end Frame

namespace FrameUnit
variable (m : Memory) (frame : Nat)

def frameLength : UInt32 := m.load32 frame
def headerLength : UInt32 := m.load32 (frame + 4)
def genTime : Int64 := (m.load64 (frame + 8)).toInt64
def triggerTime : Int64 := (m.load64 (frame + 16)).toInt64
def msgType : Int32 := (m.load32 (frame + 24)).toInt32
def source : UInt32 := m.load32 (frame + 28)
def dest : UInt32 := m.load32 (frame + 32)

/-- The `PageEnd` tag is 0, so a page end marker holds no data. -/
def hasData : Bool := decide (0 < frameLength m frame) && decide (0 < msgType m frame)

def dataLength : UInt32 := frameLength m frame - headerLength m frame

def dataAddress : Nat := frame + (headerLength m frame).toNat

def moveToNext : Nat := frame + (frameLength m frame).toNat

/-- What a reader of the frame sees. -/
def read : Frame where
  genTime := genTime m frame
  triggerTime := triggerTime m frame
  msgType := msgType m frame
  source := source m frame
  dest := dest m frame
  data := m.slice (dataAddress m frame) (dataLength m frame).toNat

@[simp] theorem read_genTime : (read m frame).genTime = genTime m frame := rfl

@[simp] theorem read_msgType : (read m frame).msgType = msgType m frame := rfl

variable {m}

def setHeaderLength : StoreOp := fun _ => .word32 (frame + 4) 40

def setDataLength (length : UInt32) : StoreOp :=
  fun m => .word32 frame (headerLength m frame + length)

def setGenTime (genTime : Int64) : StoreOp := fun _ => .word64 (frame + 8) genTime.toUInt64

def setTriggerTime (triggerTime : Int64) : StoreOp :=
  fun _ => .word64 (frame + 16) triggerTime.toUInt64

def setMsgType (msgType : Int32) : StoreOp := fun _ => .word32 (frame + 24) msgType.toUInt32

def setSource (source : UInt32) : StoreOp := fun _ => .word32 (frame + 28) source

def setDest (dest : UInt32) : StoreOp := fun _ => .word32 (frame + 32) dest

/-- `memcpy` of a whole frame, header and payload, from another mapping. -/
def copy (source : Memory) (sourceFrame : Nat) : List StoreOp :=
  copyBytes frame (source.slice sourceFrame (frameLength source sourceFrame).toNat)

end FrameUnit
end BTrader
