import BTrader.Lib.Procedure
import BTrader.Journal.Page

/-! The journal cursor: a page, a frame address in it and the number of frames
passed in that page. Moving it may load pages and, for a rollback writer,
reinitialize them. -/
namespace BTrader
open ByteMemory Infra Procedure

/-- `page` is null until the first `seekToTime`. `pageRollbackSize` is the
static member all journals of a process share; 0 switches rollback off. -/
structure Journal where
  location : JLocation
  destId : UInt32
  isWriting : Bool
  isLazy : Bool
  page : Option PageUnit
  frame : Nat
  pageFrameNb : Nat
  pageIdInRollback : Nat
  pageRollbackSize : Nat
  deriving DecidableEq

abbrev JournalM := EStateM Fault (Journal × JournalFiles)

namespace Journal

def make (location : JLocation) (destId : UInt32) (isWriting isLazy : Bool)
    (pageRollbackSize : Nat) :
    Journal :=
  ⟨location, destId, isWriting, isLazy, none, 0, 0, 0, pageRollbackSize⟩

def currentPage : JournalM PageUnit := do
  match (← get).1.page with
  | some page => return page
  | none => throw .nullPointer

/-- Stores through the mapping of the current page. -/
def store (ops : List StoreOp) : JournalM Unit := do
  let page ← currentPage
  modify fun (j, files) => (j, files.store page.pageId ops)

def loadPage (pageId : Nat) : JournalM Unit := do
  let (j, _) ← get
  if j.page.map PageUnit.pageId ≠ some pageId then
    let page ← onSnd (PageUnit.load j.location j.destId pageId j.isWriting j.isLazy)
    modify fun (j, files) => ({ j with page := some page }, files)
  modify fun (j, files) =>
    ({ j with frame := PageUnit.firstFrameAddress (files.bytes pageId), pageFrameNb := 0 }, files)

/-- Empty the current page and mark it as the rollback page. -/
def reinitializePage : JournalM Unit := do
  let page ← currentPage
  store PageUnit.reinitialize
  modify fun (j, files) => ({ j with pageIdInRollback := page.pageId }, files)

def loadNextPage : JournalM Unit := do
  let (j, _) ← get
  let oldPage ← currentPage
  if j.pageRollbackSize = 0 ∨ oldPage.pageId < j.pageRollbackSize then
    loadPage (oldPage.pageId + 1)
    if j.isWriting ∧ j.pageIdInRollback = oldPage.pageId then reinitializePage
  else
    loadPage 1
    if j.isWriting then reinitializePage

def next : JournalM Unit := do
  let (j, files) ← get
  match j.page with
  | none => throw .assertion
  | some page =>
    let m := files.bytes page.pageId
    if FrameUnit.msgType m j.frame = pageEndTag then loadNextPage
    else
      set ({ j with frame := FrameUnit.moveToNext m j.frame, pageFrameNb := j.pageFrameNb + 1 },
        files)

/-- The first loop of `seekToTime`. -/
def skipFullPages (time : Int64) : Nat → JournalM Unit
  | 0 => throw .outOfFuel
  | fuel + 1 => do
    let page ← currentPage
    let m := (← get).2.bytes page.pageId
    if PageUnit.isFull m = true ∧ PageUnit.endTime m ≤ time then
      loadNextPage
      skipFullPages time fuel

/-- The second loop of `seekToTime`. -/
def skipFrames (time : Int64) : Nat → JournalM Unit
  | 0 => throw .outOfFuel
  | fuel + 1 => do
    let page ← currentPage
    let (j, files) ← get
    let m := files.bytes page.pageId
    if FrameUnit.hasData m j.frame = true ∧ FrameUnit.genTime m j.frame ≤ time then
      next
      skipFrames time fuel

/-- With rollback off a page is passed at most once, and a frame takes at least
one byte of its page, so the two bounds leave the loops unlimited. -/
def seekToTime (time : Int64) : JournalM Unit := do
  let (j, _) ← get
  let pageId ← onSnd (PageUnit.findPageId j.location j.destId time)
  loadPage pageId
  skipFullPages time ((← get).2.ids.length + 1)
  skipFrames time (findPageSize j.location + 1)

end Journal
end BTrader
