import BTrader.Lib.Interleaving
import BTrader.Journal.FrameIds
import BTrader.Journal.PublishOrder

/-! The write functions as threads run them: what happens under the lock is a program of
atomic actions, every store of its own, and the clock is read where the source reads it. -/
namespace BTrader
open ByteMemory Infra Procedure Interleaving

/-- A writer with the files of its journal, and the pages that are mapped. -/
abbrev SharedWriter := (Writer × JournalFiles) × List Nat

/-- Times are instants of the machine; `now` gives what the clock shows at one. -/
abbrev ThreadM := Prog Fault SharedWriter Int

/-- The pages that are mapped between calls: the current one. -/
def Writer.mapped (writer : Writer) : List Nat := (writer.journal.page.map PageUnit.pageId).toList

namespace Writer.Threads

/-- Stores through the mapping of the current page. -/
def storeHere : List StoreOp → ThreadM Unit
  | [] => pure ⟨⟩
  | op :: ops => do
    Prog.onFst (onJournal (Journal.store [op]))
    storeHere ops

/-- Stores through the mapping of a page that is still held. -/
def storeAt (pageId : Nat) : List StoreOp → ThreadM Unit
  | [] => pure ⟨⟩
  | op :: ops => do
    Prog.onFst (modify fun s : Writer × JournalFiles => (s.1, s.2.store pageId [op]))
    storeAt pageId ops

/-- The next page is mapped; the journal lets go of its page, which may have another owner. -/
def loadNextPage : ThreadM Unit := Prog.lift do
  Procedure.onFst (onJournal Journal.loadNextPage)
  let page ← Procedure.onFst (onJournal Journal.currentPage)
  modify fun s => (s.1, page.pageId :: s.2)

/-- The last owner lets go of the page, and it is unmapped. -/
def release (pageId : Nat) : ThreadM Unit := Prog.lift (modify fun s => (s.1, s.2.erase pageId))

/-- The size of a page, read through a pointer to it, is enough for a frame of this length. -/
def assertSize (pageId : Nat) (dataLength : UInt32) : EStateM Fault SharedWriter Unit := do
  let s ← get
  if pageId ∉ s.2 then throw .unmapped
  else if (PageUnit.getPageSize (s.1.2.bytes pageId)).toNat <
      sizeofFrameHeader + dataLength.toNat + sizeofFrameHeader then throw .assertion

section
variable (now : Int → Int64)

def closePage (triggerTime : Int64) : ThreadM Unit := do
  let s ← Prog.lift get
  let lastPage ← Prog.onFst (onJournal Journal.currentPage)
  loadNextPage
  let later ← Prog.lift get
  let m := later.1.2.bytes lastPage.pageId
  let frame := FrameUnit.moveToNext m (PageUnit.lastFrameAddress m)
  storeAt lastPage.pageId
    [FrameUnit.setHeaderLength frame, FrameUnit.setTriggerTime frame triggerTime,
     FrameUnit.setMsgType frame pageEndTag, FrameUnit.setSource frame s.1.1.journal.location.uid,
     FrameUnit.setDest frame s.1.1.journal.destId]
  let pageEnd ← Prog.reading now
  storeAt lastPage.pageId
    [FrameUnit.setGenTime frame pageEnd, FrameUnit.setDataLength frame 0,
     PageUnit.setLastFramePosition (UInt64.ofNat frame)]
  -- `last_page` goes out of scope
  release lastPage.pageId

/-- The border test of `openFrame`, with the page change. -/
def changePage (triggerTime : Int64) (dataLength : UInt32) : ThreadM Unit := do
  let s ← Prog.lift get
  let page ← Prog.onFst (onJournal Journal.currentPage)
  if PageUnit.addressBorder (s.1.2.bytes page.pageId) ≤
      s.1.1.journal.frame + sizeofFrameHeader + dataLength.toNat then
    closePage now triggerTime
  else pure ⟨⟩

/-- The rest of `openFrame`. -/
def openHeader (triggerTime : Int64) (msgType : Int32) (dataLength : UInt32) : ThreadM Nat := do
  let s ← Prog.lift get
  let frame := s.1.1.journal.frame
  storeHere (openStores frame triggerTime msgType s.1.1.journal.location.uid s.1.1.journal.destId)
  Prog.onFst (setSizeToWrite dataLength.toNat)
  return frame

def openFrame (triggerTime : Int64) (msgType : Int32) (dataLength : UInt32) : ThreadM Nat := do
  let page ← Prog.onFst (onJournal Journal.currentPage)
  Prog.lift (assertSize page.pageId dataLength)
  Prog.onFst lock
  changePage now triggerTime dataLength
  openHeader triggerTime msgType dataLength

end

/-- The end of `closeFrame`, behind its stores. -/
def passOn : ThreadM Unit := do
  Prog.onFst (setSizeToWrite 0)
  Prog.onFst (onJournal Journal.next)
  Prog.onFst unlock

def closeFrame (dataLength : Nat) (genTime : Int64) : ThreadM Unit := do
  let s ← Prog.lift get
  let page ← Prog.onFst (onJournal Journal.currentPage)
  let m := s.1.2.bytes page.pageId
  let frame := s.1.1.journal.frame
  let nextFrameAddress := frame + (FrameUnit.headerLength m frame).toNat + dataLength
  if s.1.1.sizeToWrite < dataLength ∨ PageUnit.addressBorder m ≤ nextFrameAddress then
    Prog.lift (throw .assertion)
  else do
    storeHere (closeStores frame nextFrameAddress (UInt32.ofNat dataLength) genTime)
    passOn

/-- Where the payload of the open frame goes. -/
def dataAddress (frame : Nat) : ThreadM Nat := do
  let page ← Prog.onFst (onJournal Journal.currentPage)
  let s ← Prog.lift get
  return FrameUnit.dataAddress (s.1.2.bytes page.pageId) frame

/-- `writeWith` action by action, its readings of the clock given. -/
def writeWith (retarget : Option (UInt32 × UInt32)) (triggerTime : Int64) (msgType : Int32)
    (data : List UInt8) (pageEnd genTime : Int64) : ThreadM Unit := do
  let frame ← openFrame (fun _ => pageEnd) triggerTime msgType (UInt32.ofNat data.length)
  let address ← dataAddress frame
  storeHere (copyBytes address data ++ retargetStores frame retarget)
  closeFrame data.length genTime

def markWith (triggerTime : Int64) (msgType : Int32) (pageEnd genTime : Int64) : ThreadM Unit := do
  let _ ← openFrame (fun _ => pageEnd) triggerTime msgType 0
  closeFrame 0 genTime

end Writer.Threads

namespace WriteOp
open Writer

/-- The operation action by action. -/
def actions : (op : WriteOp) → op.InPlace → ThreadM Unit
  | write t data ty pe g, _ => Threads.writeWith none t ty data pe g
  | writeAs t data ty s d pe g, _ => Threads.writeWith (some (s, d)) t ty data pe g
  | writeAt g t data ty pe, _ => Threads.writeWith none t ty data pe g
  | writeRaw t ty data pe g, _ => Threads.writeWith none t ty data pe g
  | writeBytes t ty data length _ pe g,
      _ => Threads.writeWith none t ty (data.take length.toNat) pe g
  | mark t ty pe g, _ => Threads.markWith t ty pe g
  | markAt g t ty pe, _ => Threads.markWith t ty pe g
  | copyFrame _ _ _, inPlace => inPlace.elim

end WriteOp

/-- The calls that threads make on a shared writer; the last one is `open_data`, reading the
id, filling the object in and `close_data`. -/
inductive SharedCall where
  | write (triggerTime : Int64) (data : List UInt8) (msgType : Int32)
  | writeRaw (triggerTime : Int64) (msgType : Int32) (data : List UInt8)
  | mark (triggerTime : Int64) (msgType : Int32)
  | request (triggerTime : Int64) (msgType : Int32) (size : Nat)
      (fill : UInt64 → Object size → Object size)

namespace SharedCall
open Writer

def triggerTime : SharedCall → Int64
  | write t _ _ => t
  | writeRaw t _ _ => t
  | mark t _ => t
  | request t _ _ _ => t

def msgType : SharedCall → Int32
  | write _ _ ty => ty
  | writeRaw _ ty _ => ty
  | mark _ ty => ty
  | request _ ty _ _ => ty

/-- The length the frame is opened with. -/
def size : SharedCall → Nat
  | write _ data _ => data.length
  | writeRaw _ _ data => data.length
  | mark _ _ => 0
  | request _ _ size _ => size

/-- The call as it is made by one thread alone, its readings of the clock given. -/
def task (pageEnd genTime : Int64) : SharedCall → Task
  | write t data ty => .write (.write t data ty pageEnd genTime)
  | writeRaw t ty data => .write (.writeRaw t ty data pageEnd genTime)
  | mark t ty => .write (.mark t ty pageEnd genTime)
  | request t ty size fill => .request ⟨t, ty, size, fill, pageEnd, genTime⟩

/-- The assertion before the lock reads which page is the current one, ... -/
def look (_ : SharedCall) : EStateM Fault SharedWriter Nat :=
  PageUnit.pageId <$> Procedure.onFst (onJournal Journal.currentPage)

/-- ... and then the size of that page. -/
def check (c : SharedCall) (pageId : Nat) : EStateM Fault SharedWriter Unit :=
  Threads.assertSize pageId (UInt32.ofNat c.size)

/-- The bytes of the payload, and the id where one is read. -/
def payload (frame : Nat) : SharedCall → ThreadM (List UInt64)
  | write _ data _ | writeRaw _ _ data => do
    let address ← Threads.dataAddress frame
    Threads.storeHere (copyBytes address data)
    return []
  | mark _ _ => return []
  | request _ _ size fill => do
    let address ← Threads.dataAddress frame
    let id ← Prog.onFst currentFrameUid
    let page ← Prog.onFst (onJournal Journal.currentPage)
    let s ← Prog.lift get
    let old := (s.1.2.bytes page.pageId).object address size
    Threads.storeHere (copyBytes address (fill id old).bytes)
    return [id]

/-- The length it is closed with: `close_data` takes the one that was opened. -/
def closing : SharedCall → ThreadM Nat
  | request _ _ _ _ => do
    let s ← Prog.lift get
    return s.1.1.sizeToWrite
  | write _ data _ | writeRaw _ _ data => return data.length
  | mark _ _ => return 0

/-- What the thread does while it has the lock. -/
def body (now : Int → Int64) (c : SharedCall) : ThreadM (List UInt64) := do
  Threads.changePage now c.triggerTime (UInt32.ofNat c.size)
  let frame ← Threads.openHeader c.triggerTime c.msgType (UInt32.ofNat c.size)
  let ids ← c.payload frame
  let length ← c.closing
  let genTime ← Prog.reading now
  Threads.closeFrame length genTime
  return ids

end SharedCall
end BTrader
