import BTrader.Infra.Mmap
import BTrader.Journal.Location
import BTrader.Journal.Frame

/-! Page headers, loading a page and finding the page a time falls in. -/
namespace BTrader
open ByteMemory Infra

def journalVersion : UInt32 := 4

abbrev sizeofPageHeader : Nat := 24

abbrev mebibyte : Nat := 1024 * 1024

def findPageSize (location : JLocation) : Nat :=
  match location.category with
  | .md => 128 * mebibyte
  | .td | .strategy => 16 * mebibyte
  | .system => mebibyte

/-- A loaded page; its memory is the file of that id. -/
structure PageUnit where
  pageId : Nat
  size : Nat
  deriving DecidableEq, Repr

namespace PageUnit
variable (m : Memory)

def version : UInt32 := m.load32 0
def pageHeaderLength : UInt32 := m.load32 4
def getPageSize : UInt32 := m.load32 8
def frameHeaderLength : UInt32 := m.load32 12
def lastFramePosition : UInt64 := m.load64 16

def firstFrameAddress : Nat := (pageHeaderLength m).toNat

def lastFrameAddress : Nat := (lastFramePosition m).toNat

/-- The last header of a page has to fit behind the border: the page end. -/
def addressBorder : Nat := (getPageSize m).toNat - sizeofFrameHeader

def beginTime : Int64 := FrameUnit.genTime m (firstFrameAddress m)

def endTime : Int64 := FrameUnit.genTime m (lastFrameAddress m)

def isFull : Bool :=
  decide (addressBorder m <
    lastFrameAddress m + (FrameUnit.frameLength m (lastFrameAddress m)).toNat)

def setLastFramePosition (position : UInt64) : StoreOp := fun _ => .word64 16 position

/-- The header stores of a page that was just created. -/
def initHeader (pageSize : Nat) : List StoreOp :=
  [fun _ => .word32 0 journalVersion,
   fun _ => .word32 4 (UInt32.ofNat sizeofPageHeader),
   fun _ => .word32 8 (UInt32.ofNat pageSize),
   fun _ => .word32 12 (UInt32.ofNat sizeofFrameHeader),
   fun m => .word64 16 (pageHeaderLength m).toUInt64]

/-- What the rollback branches do to a page: an empty page again. -/
def reinitialize : List StoreOp :=
  [fun m => .word64 16 (pageHeaderLength m).toUInt64,
   fun m => ⟨(pageHeaderLength m).toNat,
     List.replicate ((getPageSize m).toNat - (pageHeaderLength m).toNat) 0⟩]

def getPagePath (location : JLocation) (destId : UInt32) (pageId : Nat) : String :=
  location.layoutFile (hex08 destId ++ "." ++ toString pageId)

def load (location : JLocation) (destId : UInt32) (pageId : Nat) (isWriting isLazy : Bool) :
    EStateM Fault JournalFiles PageUnit := do
  let pageSize := findPageSize location
  let path := getPagePath location destId pageId
  loadMmapBuffer path pageId pageSize isWriting isLazy
  -- an empty file has no page to read the header from
  if ((← get).file pageId).size = 0 then throw .beyondFile
  if lastFramePosition ((← get).bytes pageId) = 0 then
    if master isWriting isLazy then
      modify (·.store pageId (initHeader pageSize))
    else throw .readOnlyStore
  let m := (← get).bytes pageId
  if version m ≠ journalVersion then
    throw (.journalError (path ++ " version mismatch, required " ++ toString journalVersion ++
      ", found " ++ toString (version m)))
  if pageHeaderLength m ≠ UInt32.ofNat sizeofPageHeader then
    throw (.journalError (path ++ " header length mismatch, required " ++
      toString sizeofPageHeader ++
      ", found " ++ toString (pageHeaderLength m)))
  if getPageSize m ≠ UInt32.ofNat pageSize then
    throw (.journalError ("page size mismatch, required " ++ toString pageSize ++ ", found " ++
      toString (getPageSize m) ++ ", location " ++ location.uname ++ ", path " ++ path ++
      ", dest_id " ++ toString destId ++ ", page_id " ++ toString pageId))
  return ⟨pageId, pageSize⟩

def listPageId (files : JournalFiles) : List Nat := files.ids.mergeSort (· ≤ ·)

/-- The pages from the last one back until one begins before `time`. -/
def findBackwards (location : JLocation) (destId : UInt32) (time : Int64) :
    List Nat → EStateM Fault JournalFiles (Option Nat)
  | [] => return none
  | pageId :: rest => do
    let _ ← load location destId pageId false true
    if beginTime ((← get).bytes pageId) < time then return some pageId
    else findBackwards location destId time rest

def findPageId (location : JLocation) (destId : UInt32) (time : Int64) :
    EStateM Fault JournalFiles Nat := do
  match listPageId (← get) with
  | [] => return 1
  | front :: rest =>
    if time = 0 then return front
    let found ← findBackwards location destId time (front :: rest).reverse
    return found.getD front

end PageUnit
end BTrader
