import BTrader.Journal.Journal

/-! The journal writer. Every reading of the clock is an argument: `pageEnd` is
what `closePage` reads for its marker, `genTime` what the call site of
`closeFrame` passes (the default argument reads the clock there). -/
namespace BTrader
open ByteMemory Infra Procedure

def timeHashed (timestamp : Int64) : UInt32 := hash32 (toLE 8 timestamp.toUInt64.toNat)

def pageIdTranc : UInt32 := 0xFFFF0000

def frameIdTranc : UInt32 := 0x0000FFFF

structure Writer where
  frameIdBase : UInt64
  journal : Journal
  sizeToWrite : Nat
  writerStartTime32int : UInt32
  locked : Bool
  deriving DecidableEq

abbrev WriterM := EStateM Fault (Writer × JournalFiles)

namespace Writer

/-- Run a journal procedure on the writer's own journal. -/
def onJournal (x : JournalM α) : WriterM α :=
  zoom (fun s => (s.1.journal, s.2)) (fun s t => ({ s.1 with journal := t.1 }, t.2)) x

/-- `try_lock` until it succeeds; a lock that stays taken ends in the time out. -/
def lock : WriterM Unit := do
  let (w, files) ← get
  if w.locked then throw (.journalError ("Can not lock writer for " ++ w.journal.location.uname))
  set ({ w with locked := true }, files)

def unlock : WriterM Unit := modify fun (w, files) => ({ w with locked := false }, files)

def setSizeToWrite (size : Nat) : WriterM Unit :=
  modify fun (w, files) => ({ w with sizeToWrite := size }, files)

/-- The identifier of a frame position, from the two uids of the journal, the
hash of the writer's start time, the page id and the frame's number in the page. -/
def frameUid (frameIdBase : UInt64) (startTime : UInt32) (pageId pageFrameNb : Nat) : UInt64 :=
  let pagePart := (UInt32.ofNat pageId <<< 16) &&& pageIdTranc
  let framePart := UInt32.ofNat pageFrameNb &&& frameIdTranc
  frameIdBase ||| ((pagePart ||| framePart) ^^^ startTime).toUInt64

def idBase (location : JLocation) (destId : UInt32) : UInt64 :=
  (location.uid ^^^ destId).toUInt64 <<< 32

/-- The constructor: the first reading is hashed, the second one is seeked to. -/
def make (location : JLocation) (destId : UInt32) (isLazy : Bool) (pageRollbackSize : Nat)
    (started now : Int64) : EStateM Fault JournalFiles Writer := fun files =>
  match Journal.seekToTime now (Journal.make location destId true isLazy pageRollbackSize,
    files) with
  | .ok _ (journal, files) =>
    .ok ⟨idBase location destId, journal, 0, timeHashed started, false⟩ files
  | .error e (_, files) => .error e files

def currentFrameUid : WriterM UInt64 := do
  let (w, _) ← get
  let page ← onJournal Journal.currentPage
  return frameUid w.frameIdBase w.writerStartTime32int page.pageId w.journal.pageFrameNb

/-- The stores that make the `PageEnd` header of the page left behind. -/
def pageEndStores (frame : Nat) (triggerTime pageEnd : Int64) (source dest : UInt32) :
    List StoreOp :=
  [FrameUnit.setHeaderLength frame, FrameUnit.setTriggerTime frame triggerTime,
   FrameUnit.setMsgType frame pageEndTag, FrameUnit.setSource frame source,
   FrameUnit.setDest frame dest, FrameUnit.setGenTime frame pageEnd,
   FrameUnit.setDataLength frame 0]

def closePage (triggerTime pageEnd : Int64) : WriterM Unit := do
  let (w, _) ← get
  let lastPage ← onJournal Journal.currentPage
  onJournal Journal.loadNextPage
  let m := (← get).2.bytes lastPage.pageId
  let frame := FrameUnit.moveToNext m (PageUnit.lastFrameAddress m)
  modify fun (v, files) => (v, files.store lastPage.pageId
    (pageEndStores frame triggerTime pageEnd w.journal.location.uid w.journal.destId ++
      [PageUnit.setLastFramePosition (UInt64.ofNat frame)]))

def openStores (frame : Nat) (triggerTime : Int64) (msgType : Int32) (source dest : UInt32) :
    List StoreOp :=
  [FrameUnit.setHeaderLength frame, FrameUnit.setTriggerTime frame triggerTime,
   FrameUnit.setMsgType frame msgType, FrameUnit.setSource frame source,
   FrameUnit.setDest frame dest]

def openFrame (triggerTime : Int64) (msgType : Int32) (dataLength : UInt32) (pageEnd : Int64) :
    WriterM Nat := do
  let (w, files) ← get
  let page ← onJournal Journal.currentPage
  let m := files.bytes page.pageId
  if (PageUnit.getPageSize m).toNat < sizeofFrameHeader + dataLength.toNat + sizeofFrameHeader then
    throw .assertion
  lock
  if PageUnit.addressBorder m ≤ w.journal.frame + sizeofFrameHeader + dataLength.toNat then
    closePage triggerTime pageEnd
  let (w, _) ← get
  let frame := w.journal.frame
  onJournal (Journal.store
    (openStores frame triggerTime msgType w.journal.location.uid w.journal.destId))
  setSizeToWrite dataLength.toNat
  return frame

/-- The stores of `closeFrame`: clear the next header, stamp the frame, publish
its length and move the page's last frame position to it. -/
def closeStores (frame nextFrameAddress : Nat) (dataLength : UInt32) (genTime : Int64) :
    List StoreOp :=
  clearBytes nextFrameAddress sizeofFrameHeader ++
    [FrameUnit.setGenTime frame genTime, FrameUnit.setDataLength frame dataLength,
     PageUnit.setLastFramePosition (UInt64.ofNat frame)]

def closeFrame (dataLength : Nat) (genTime : Int64) : WriterM Unit := do
  let (w, files) ← get
  if w.sizeToWrite < dataLength then throw .assertion
  let page ← onJournal Journal.currentPage
  let m := files.bytes page.pageId
  let frame := w.journal.frame
  let nextFrameAddress := frame + (FrameUnit.headerLength m frame).toNat + dataLength
  if PageUnit.addressBorder m ≤ nextFrameAddress then throw .assertion
  onJournal (Journal.store (closeStores frame nextFrameAddress (UInt32.ofNat dataLength) genTime))
  setSizeToWrite 0
  onJournal Journal.next
  unlock

/-- Copies a frame of another mapping; `trigger` and `pageEnd` are the readings
made when the page is changed. It does not take the lock. -/
def copyFrame (source : Memory) (sourceFrame : Nat) (trigger pageEnd : Int64) : WriterM Unit := do
  let (w, files) ← get
  let page ← onJournal Journal.currentPage
  let m := files.bytes page.pageId
  let length := (FrameUnit.frameLength source sourceFrame).toNat
  if (PageUnit.getPageSize m).toNat < length + sizeofFrameHeader then throw .assertion
  if PageUnit.addressBorder m ≤ w.journal.frame + length then closePage trigger pageEnd
  let frame := (← get).1.journal.frame
  onJournal (Journal.store (FrameUnit.copy frame source sourceFrame))
  let page ← onJournal Journal.currentPage
  let m := (← get).2.bytes page.pageId
  let nextFrameAddress :=
    frame + (FrameUnit.headerLength m frame).toNat + (FrameUnit.dataLength m frame).toNat
  onJournal (Journal.store (clearBytes nextFrameAddress sizeofFrameHeader ++
    [PageUnit.setLastFramePosition (UInt64.ofNat frame)]))
  onJournal Journal.next

/-- The `set_source` and `set_dest` calls of `writeAs`; no call for `none`. -/
def retargetStores (frame : Nat) : Option (UInt32 × UInt32) → List StoreOp
  | none => []
  | some (source, dest) => [FrameUnit.setSource frame source, FrameUnit.setDest frame dest]

/-- Open a frame, copy the payload, overwrite its source and dest if asked to,
close. All `write` functions are this one on their own arguments. -/
def writeWith (retarget : Option (UInt32 × UInt32)) (triggerTime : Int64) (msgType : Int32)
    (data : List UInt8) (pageEnd genTime : Int64) : WriterM Unit := do
  let frame ← openFrame triggerTime msgType (UInt32.ofNat data.length) pageEnd
  let page ← onJournal Journal.currentPage
  let m := (← get).2.bytes page.pageId
  onJournal (Journal.store
    (copyBytes (FrameUnit.dataAddress m frame) data ++ retargetStores frame retarget))
  closeFrame data.length genTime

/-- `data` is the object representation of a fixed-size type or the `to_string`
of another one; both overloads store these bytes. -/
def write (triggerTime : Int64) (data : List UInt8) (msgType : Int32) (pageEnd genTime : Int64) :
    WriterM Unit :=
  writeWith none triggerTime msgType data pageEnd genTime

def writeAs (triggerTime : Int64) (data : List UInt8) (msgType : Int32) (source dest : UInt32)
    (pageEnd genTime : Int64) : WriterM Unit :=
  writeWith (some (source, dest)) triggerTime msgType data pageEnd genTime

def writeAt (genTime triggerTime : Int64) (data : List UInt8) (msgType : Int32) (pageEnd : Int64) :
    WriterM Unit :=
  writeWith none triggerTime msgType data pageEnd genTime

/-- `data` are the `length` bytes at the pointer argument. -/
def writeRaw (triggerTime : Int64) (msgType : Int32) (data : List UInt8) (pageEnd genTime : Int64) :
    WriterM Unit :=
  writeWith none triggerTime msgType data pageEnd genTime

def writeBytes (triggerTime : Int64) (msgType : Int32) (data : List UInt8) (length : UInt32)
    (pageEnd genTime : Int64) : WriterM Unit :=
  if data.length < length.toNat then throw .outOfRange
  else writeWith none triggerTime msgType (data.take length.toNat) pageEnd genTime

def markAt (genTime triggerTime : Int64) (msgType : Int32) (pageEnd : Int64) : WriterM Unit := do
  let _ ← openFrame triggerTime msgType 0 pageEnd
  closeFrame 0 genTime

def mark (triggerTime : Int64) (msgType : Int32) (pageEnd genTime : Int64) : WriterM Unit := do
  let _ ← openFrame triggerTime msgType 0 pageEnd
  closeFrame 0 genTime

/-- Opens a frame for an object of `size` bytes and returns where they go. -/
def openData (triggerTime : Int64) (msgType : Int32) (size : Nat) (pageEnd : Int64) :
    WriterM Nat := do
  let frame ← openFrame triggerTime msgType (UInt32.ofNat size) pageEnd
  let page ← onJournal Journal.currentPage
  return FrameUnit.dataAddress ((← get).2.bytes page.pageId) frame

def closeData (genTime : Int64) : WriterM Unit := do
  closeFrame (← get).1.sizeToWrite genTime

end Writer
end BTrader
