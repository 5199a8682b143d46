import BTrader.Journal.Layout

/-! What the write functions do on a journal layout. A write that fits is a list
of stores on the writer's page; one that does not fit is the same write after the
page change. -/
namespace BTrader
open ByteMemory Infra Procedure

/-- The marker `closePage` makes. -/
def PageEnd.make (triggerTime pageEnd : Int64) (source dest : UInt32) : PageEnd :=
  ⟨Writer.pageEndFrame triggerTime pageEnd source dest, rfl, rfl⟩

namespace Writer

/-- What a writer keeps from its construction on: its journal, how it maps the pages and
the hash of its start time. -/
structure Handle where
  location : JLocation
  destId : UInt32
  isLazy : Bool
  start : UInt32

namespace Handle

def opening (w : Handle) : Opening := ⟨w.location, w.destId, true, w.isLazy⟩

/-- A writer without rollback whose cursor is on that page. -/
def placed (w : Handle) (pageId frame pageFrameNb sizeToWrite : Nat) (locked : Bool) : Writer :=
  ⟨idBase w.location w.destId, w.opening.placed pageId frame pageFrameNb, sizeToWrite, w.start,
    locked⟩

/-- A writer between two writes, behind the last frame of the journal. -/
def atEnd (w : Handle) (log : Log) : Writer :=
  w.placed log.lastPageId (24 + span log.current) log.current.length 0 false

variable {w : Handle} {files files' : JournalFiles} {log : Log} {k a nb n : Nat} {locked : Bool}
  {m : Memory} {f : Frame}

@[simp] theorem opening_location : w.opening.location = w.location := rfl

@[simp] theorem opening_destId : w.opening.destId = w.destId := rfl

@[simp] theorem placed_journal :
    (w.placed k a nb n locked).journal = w.opening.placed k a nb := rfl

@[simp] theorem placed_sizeToWrite : (w.placed k a nb n locked).sizeToWrite = n := rfl

theorem onJournal_placed {x : JournalM α} (n : Nat) (locked : Bool)
    (ran : x (w.opening.placed k a nb, files) = .ok r (w.opening.placed k' a' nb', files')) :
    onJournal x (w.placed k a nb n locked, files) =
      .ok r (w.placed k' a' nb' n locked, files') := by
  simp only [onJournal, zoom, placed_journal, ran]
  rfl

@[simp] theorem currentPage_placed :
    onJournal Journal.currentPage (w.placed k a nb n locked, files) =
      .ok ⟨k, findPageSize w.location⟩ (w.placed k a nb n locked, files) := rfl

@[simp] theorem store_placed (ops : List StoreOp) :
    onJournal (Journal.store ops) (w.placed k a nb n locked, files) =
      .ok () (w.placed k a nb n locked, files.store k ops) := rfl

@[simp] theorem lock_placed :
    lock (w.placed k a nb n false, files) = .ok () (w.placed k a nb n true, files) := rfl

@[simp] theorem unlock_placed :
    unlock (w.placed k a nb n locked, files) = .ok () (w.placed k a nb n false, files) := rfl

@[simp] theorem setSizeToWrite_placed :
    setSizeToWrite size (w.placed k a nb n locked, files) =
      .ok () (w.placed k a nb size locked, files) := rfl

end Handle

theorem addressBorder_eq (location : JLocation)
    (header : PageUnit.Header (findPageSize location) m) :
    PageUnit.addressBorder m = findPageSize location - 40 ∧
    (PageUnit.getPageSize m).toNat = findPageSize location := by
  have small : findPageSize location < 2 ^ 32 := by
    have := findPageSize_bounds location
    have : mebibyte = 1048576 := rfl
    omega
  exact ⟨header.addressBorder small, header.getPageSize_toNat small⟩

theorem dataLength_toNat (location : JLocation) (len : Nat)
    (small : len + 80 ≤ findPageSize location) :
    (UInt32.ofNat len).toNat = len := by
  have := findPageSize_bounds location
  have : mebibyte = 1048576 := rfl
  rw [UInt32.toNat_ofNat']
  exact Nat.mod_eq_of_lt (by omega)

/-- The header of a page outlives the stores that fill a frame in. -/
theorem Draft.fillStores_header (d : Draft) (header : PageUnit.Header size m) (first : 24 ≤ a) :
    PageUnit.Header size (m.execAll (d.fillStores a)) := by
  refine header.congr (fun x hx => ?_)
  have := hx.2
  rw [Draft.fillStores, execAll_append, execAll_append, retargetStores_frame _ (Or.inl (by omega)),
    execAll_copyBytes, write_frame, openStores_frame _ (Or.inl (by omega))]
  rintro ⟨lower, _⟩
  simp only at lower
  omega

namespace Handle

variable {files files' : JournalFiles} {log : Log} {k k' a a' nb nb' n len : Nat} {locked : Bool}

theorem openFrame_fits (w : Handle) (t : Int64) (ty : Int32) (len : Nat) (pe : Int64) (nb n : Nat)
    (header : PageUnit.Header (findPageSize w.location) (files.bytes k))
    (small : len + 80 ≤ findPageSize w.location)
    (fits : a + 40 + len + 40 < findPageSize w.location) :
    openFrame t ty (UInt32.ofNat len) pe (w.placed k a nb n false, files) =
      .ok a (w.placed k a nb len true,
        files.store k (openStores a t ty w.location.uid w.destId)) := by
  obtain ⟨border, size⟩ := addressBorder_eq w.location header
  have asserted : ¬ findPageSize w.location < sizeofFrameHeader + len + sizeofFrameHeader := by
    unfold sizeofFrameHeader
    omega
  have inside : ¬ findPageSize w.location - 40 ≤ a + sizeofFrameHeader + len := by
    unfold sizeofFrameHeader
    omega
  simp only [openFrame, bind_apply, get_apply, currentPage_placed, border, size,
    dataLength_toNat w.location len small, asserted, if_false, lock_placed, placed_journal,
    Opening.placed_frame, Opening.placed_location, Opening.placed_destId, opening_location,
    opening_destId, inside, store_placed, setSizeToWrite_placed, pure_apply]

/-- A frame that does not fit is opened as if the page had been changed before. -/
theorem openFrame_change (w : Handle) (ty : Int32) (len : Nat)
    (header : PageUnit.Header (findPageSize w.location) (files.bytes k))
    (header' : PageUnit.Header (findPageSize w.location) (files'.bytes k'))
    (small : len + 104 < findPageSize w.location)
    (full : ¬ a + 40 + len + 40 < findPageSize w.location)
    (changed : closePage t pe (w.placed k a nb n true, files) =
      .ok () (w.placed k' 24 0 n true, files')) :
    openFrame t ty (UInt32.ofNat len) pe (w.placed k a nb n false, files) =
      openFrame t ty (UInt32.ofNat len) pe (w.placed k' 24 0 n false, files') := by
  rw [w.openFrame_fits t ty len pe 0 n header' (by omega) (by omega)]
  obtain ⟨border, size⟩ := addressBorder_eq w.location header
  have asserted : ¬ findPageSize w.location < sizeofFrameHeader + len + sizeofFrameHeader := by
    unfold sizeofFrameHeader
    omega
  have outside : findPageSize w.location - 40 ≤ a + sizeofFrameHeader + len := by
    unfold sizeofFrameHeader
    omega
  have length := dataLength_toNat w.location len (by omega)
  simp only [openFrame, bind_apply, get_apply, currentPage_placed, border, size, length, asserted,
    if_false, lock_placed, placed_journal, Opening.placed_frame, Opening.placed_location,
    Opening.placed_destId, opening_location, opening_destId, outside, if_true, changed,
    store_placed, setSizeToWrite_placed, pure_apply]

/-- `closeFrame` up to the cursor movement at its end. -/
theorem closeFrame_stores (w : Handle) (nb len : Nat) (g : Int64)
    (header : PageUnit.Header (findPageSize w.location) (files.bytes k))
    (opened : FrameUnit.headerLength (files.bytes k) a = 40)
    (fits : a + 40 + len + 40 < findPageSize w.location) :
    closeFrame len g (w.placed k a nb len true, files) =
      (onJournal Journal.next >>= fun _ => unlock)
        (w.placed k a nb 0 true,
          files.store k (closeStores a (a + 40 + len) (UInt32.ofNat len) g)) := by
  obtain ⟨border, _⟩ := addressBorder_eq w.location header
  let v := w.placed k a nb len true
  have next :
      v.journal.frame + (FrameUnit.headerLength (files.bytes k) v.journal.frame).toNat + len =
      a + 40 + len := by
    change a + (FrameUnit.headerLength (files.bytes k) a).toNat + len = a + 40 + len
    rw [opened]
    rfl
  have inside : ¬ findPageSize w.location - 40 ≤ a + 40 + len := by omega
  have covered : ¬ v.sizeToWrite < len := Nat.lt_irrefl len
  change closeFrame len g (v, files) = _
  simp only [closeFrame, bind_apply, get_apply, branch_apply, covered, if_false, v,
    currentPage_placed, next, border, inside, store_placed, setSizeToWrite_placed]
  simp only [placed_journal, Opening.placed_frame]

/-- The cursor passes a frame that was just closed. -/
theorem next_closed (w : Handle) (nb n : Nat) (locked : Bool) (g : Int64)
    (opened : FrameUnit.headerLength (files.bytes k) a = 40)
    (type : FrameUnit.msgType (files.bytes k) a ≠ pageEndTag) (first : 24 ≤ a)
    (fits : a + 40 + len + 40 < findPageSize w.location) :
    onJournal Journal.next (w.placed k a nb n locked,
        files.store k (closeStores a (a + 40 + len) (UInt32.ofNat len) g)) =
      .ok () (w.placed k (a + 40 + len) (nb + 1) n locked,
        files.store k (closeStores a (a + 40 + len) (UInt32.ofNat len) g)) := by
  have small := dataLength_toNat w.location len (by omega)
  have below : a + 40 ≤ a + 40 + len := by omega
  obtain ⟨_, _, type', _, _, _, length⟩ :=
    closeStores_header (files.bytes k) (UInt32.ofNat len) g below first
  have move : FrameUnit.moveToNext ((files.store k (closeStores a (a + 40 + len)
      (UInt32.ofNat len) g)).bytes k) a = a + 40 + len := by
    have bounds := findPageSize_bounds w.location
    have : mebibyte = 1048576 := rfl
    rw [FrameUnit.moveToNext, JournalFiles.store_bytes_same, length, opened,
      UInt32.toNat_add, small]
    simp
    omega
  have open' : FrameUnit.msgType ((files.store k (closeStores a (a + 40 + len)
      (UInt32.ofNat len) g)).bytes k) a ≠ pageEndTag := by
    rw [JournalFiles.store_bytes_same, type']
    exact type
  have moved := onJournal_placed n locked (Opening.next_placed (o := w.opening) nb open')
  rwa [move] at moved

/-- The cursor passes a frame that was just stored. -/
theorem next_placed (w : Handle) (nb n : Nat) (locked : Bool) (places : Places stores f)
    (type : f.msgType ≠ pageEndTag) (first : 24 ≤ a) :
    onJournal Journal.next (w.placed k a nb n locked, files.store k (stores a)) =
      .ok () (w.placed k (a + f.size) (nb + 1) n locked, files.store k (stores a)) := by
  have whole := places.holds (files.bytes k) a first
  rw [← JournalFiles.store_bytes_same files] at whole
  have moved := onJournal_placed n locked
    (Opening.next_placed (o := w.opening) nb (whole.msgType.trans_ne type))
  rwa [whole.moveToNext] at moved

theorem closeFrame_moves (w : Handle) (nb len : Nat) (g : Int64)
    (header : PageUnit.Header (findPageSize w.location) (files.bytes k))
    (opened : FrameUnit.headerLength (files.bytes k) a = 40)
    (fits : a + 40 + len + 40 < findPageSize w.location)
    (moved : onJournal Journal.next (w.placed k a nb 0 true,
      files.store k (closeStores a (a + 40 + len) (UInt32.ofNat len) g)) =
        .ok () (w.placed k' a' nb' 0 true, files')) :
    closeFrame len g (w.placed k a nb len true, files) =
      .ok () (w.placed k' a' nb' 0 false, files') := by
  rw [w.closeFrame_stores nb len g header opened fits, bind_ok moved, unlock_placed]

theorem closeFrame_fits (w : Handle) (nb len : Nat) (g : Int64)
    (header : PageUnit.Header (findPageSize w.location) (files.bytes k))
    (opened : FrameUnit.headerLength (files.bytes k) a = 40)
    (type : FrameUnit.msgType (files.bytes k) a ≠ pageEndTag) (first : 24 ≤ a)
    (fits : a + 40 + len + 40 < findPageSize w.location) :
    closeFrame len g (w.placed k a nb len true, files) =
      .ok () (w.placed k (a + 40 + len) (nb + 1) 0 false,
        files.store k (closeStores a (a + 40 + len) (UInt32.ofNat len) g)) := by
  exact w.closeFrame_moves nb len g header opened fits
    (w.next_closed nb 0 true g opened type first fits)

/-- What a write with these arguments stores in the writer's journal. -/
def draft (w : Handle) (retarget : Option (UInt32 × UInt32)) (t : Int64) (ty : Int32)
    (data : List UInt8) (g : Int64) : Draft :=
  ⟨t, ty, w.location.uid, w.destId, retarget, data, g⟩

theorem writeWith_moves (w : Handle) (retarget : Option (UInt32 × UInt32)) (t : Int64) (ty : Int32)
    (data : List UInt8) (pe g : Int64)
    (header : PageUnit.Header (findPageSize w.location) (files.bytes k)) (first : 24 ≤ a)
    (fits : a + 40 + data.length + 40 < findPageSize w.location)
    (moved : onJournal Journal.next (w.placed k a nb 0 true,
      files.store k ((w.draft retarget t ty data g).stores a)) =
        .ok () (w.placed k' a' nb' 0 true, files')) :
    writeWith retarget t ty data pe g (w.placed k a nb n false, files) =
      .ok () (w.placed k' a' nb' 0 false, files') := by
  have opened := w.openFrame_fits t ty data.length pe nb n header (by omega) fits
  have address : FrameUnit.dataAddress ((files.store k
      (openStores a t ty w.location.uid w.destId)).bytes k) a = a + 40 := by
    rw [FrameUnit.dataAddress, JournalFiles.store_bytes_same, (openStores_header _ _ _ _ _ _).1]
    rfl
  have filled := (w.draft retarget t ty data g).fill (files.bytes k) a
  have header' := (w.draft retarget t ty data g).fillStores_header header first
  rw [← JournalFiles.store_bytes_same files] at filled header'
  rw [Draft.stores, JournalFiles.store_append] at moved
  have closed := w.closeFrame_moves nb data.length g header' filled.header fits moved
  simp only [writeWith, bind_apply, opened, currentPage_placed, get_apply, address, store_placed,
    ← JournalFiles.store_append]
  exact closed

theorem writeWith_fits (w : Handle) (retarget : Option (UInt32 × UInt32)) (t : Int64) (ty : Int32)
    (data : List UInt8) (pe g : Int64)
    (header : PageUnit.Header (findPageSize w.location) (files.bytes k))
    (type : ty ≠ pageEndTag) (first : 24 ≤ a)
    (fits : a + 40 + data.length + 40 < findPageSize w.location) :
    writeWith retarget t ty data pe g (w.placed k a nb n false, files) =
      .ok () (w.placed k (a + 40 + data.length) (nb + 1) 0 false,
        files.store k ((w.draft retarget t ty data g).stores a)) := by
  have bounds := findPageSize_bounds w.location
  have mib : mebibyte = 1048576 := rfl
  have places := (w.draft retarget t ty data g).places (by
    change data.length + 40 < 2 ^ 32
    omega)
  have size : a + (w.draft retarget t ty data g).frame.size = a + 40 + data.length :=
    (Nat.add_assoc a 40 data.length).symm
  rw [← size]
  exact w.writeWith_moves retarget t ty data pe g header first fits
    (w.next_placed nb 0 true places type first)

theorem mark_moves (w : Handle) (t : Int64) (ty : Int32) (pe g : Int64)
    (header : PageUnit.Header (findPageSize w.location) (files.bytes k)) (first : 24 ≤ a)
    (fits : a + 40 + 40 < findPageSize w.location)
    (moved : onJournal Journal.next (w.placed k a nb 0 true,
      files.store k ((w.draft none t ty [] g).stores a)) =
        .ok () (w.placed k' a' nb' 0 true, files')) :
    mark t ty pe g (w.placed k a nb n false, files) =
      .ok () (w.placed k' a' nb' 0 false, files') := by
  have opened := w.openFrame_fits t ty 0 pe nb n header (by omega) (by omega)
  have filled := (w.draft none t ty [] g).fill (files.bytes k) a
  have header' := (w.draft none t ty [] g).fillStores_header header first
  have fills :
      (w.draft none t ty [] g).fillStores a = openStores a t ty w.location.uid w.destId := by
    simp [Draft.fillStores, copyBytes, retargetStores, draft]
  rw [← JournalFiles.store_bytes_same files] at filled header'
  rw [Draft.stores, JournalFiles.store_append] at moved
  rw [fills] at filled header' moved
  rw [show UInt32.ofNat 0 = 0 from rfl] at opened
  rw [mark, bind_ok opened]
  exact w.closeFrame_moves nb 0 g header' filled.header fits moved

theorem mark_fits (w : Handle) (t : Int64) (ty : Int32) (pe g : Int64)
    (header : PageUnit.Header (findPageSize w.location) (files.bytes k))
    (type : ty ≠ pageEndTag) (first : 24 ≤ a) (fits : a + 40 + 40 < findPageSize w.location) :
    mark t ty pe g (w.placed k a nb n false, files) =
      .ok () (w.placed k (a + 40) (nb + 1) 0 false,
        files.store k ((w.draft none t ty [] g).stores a)) := by
  have places := (w.draft none t ty [] g).places (by
    change 0 + 40 < 2 ^ 32
    omega)
  exact w.mark_moves t ty pe g header first fits (w.next_placed nb 0 true places type first)

/-- A copied frame is published by the last byte stores of the copy and keeps its
own header. -/
theorem copyFrame_moves (w : Handle) (source : SourceFrame) (t pe : Int64) (locked : Bool)
    (header : PageUnit.Header (findPageSize w.location) (files.bytes k))
    (fits : a + source.frame.size + 40 < findPageSize w.location)
    (moved : onJournal Journal.next (w.placed k a nb n locked, files.store k (source.stores a)) =
      .ok () (w.placed k' a' nb' n locked, files')) :
    copyFrame source.memory source.address t pe (w.placed k a nb n locked, files) =
      .ok () (w.placed k' a' nb' n locked, files') := by
  obtain ⟨border, size⟩ := addressBorder_eq w.location header
  have asserted : ¬ findPageSize w.location < source.frame.size + sizeofFrameHeader := by
    unfold sizeofFrameHeader
    omega
  have inside : ¬ findPageSize w.location - 40 ≤ a + source.frame.size := by omega
  have copied := source.copy_holds (files.bytes k) a
  rw [← JournalFiles.store_bytes_same files] at copied
  have next : a + (FrameUnit.headerLength ((files.store k
        (FrameUnit.copy a source.memory source.address)).bytes k) a).toNat +
      (FrameUnit.dataLength ((files.store k
        (FrameUnit.copy a source.memory source.address)).bytes k) a).toNat =
      a + source.frame.size := by
    rw [copied.header, copied.dataLength, source.frame.size_eq, ← Nat.add_assoc]
    rfl
  simp only [copyFrame, bind_apply, get_apply, branch_apply, currentPage_placed, border, size,
    source.holds.length, asserted, if_false, placed_journal, Opening.placed_frame, inside,
    store_placed, next, ← JournalFiles.store_append]
  exact moved

/-- The page change: the next page is created and the last one is sealed. -/
def sealedFiles (w : Handle) (log : Log) (t pe : Int64) (files : JournalFiles) : JournalFiles :=
  (files.addPage (log.lastPageId + 1) (findPageSize w.location)).store log.lastPageId
    (sealStores (24 + span log.current) t pe w.location.uid w.destId)

/-- The marker goes behind the last frame of the page that is left, wherever the cursor
was on it. -/
theorem closePage_loaded (w : Handle) (n : Nat) (t pe : Int64) (locked : Bool) (positive : 1 ≤ k)
    (loaded : Journal.loadPage (k + 1) (w.opening.placed k a nb, files) =
      .ok () (w.opening.placed (k + 1) 24 0, files'))
    (behind :
      FrameUnit.moveToNext (files'.bytes k) (PageUnit.lastFrameAddress (files'.bytes k)) = b) :
    closePage t pe (w.placed k a nb n locked, files) =
      .ok () (w.placed (k + 1) 24 0 n locked,
        files'.store k (sealStores b t pe w.location.uid w.destId)) := by
  have moved := onJournal_placed n locked (Opening.loadNextPage_placed positive loaded)
  simp only [closePage, bind_apply, get_apply, currentPage_placed, moved, modify_apply, behind]
  rfl

theorem closePage_spec (w : Handle) (a nb n : Nat) (t pe : Int64)
    (layout : Layout w.location files log) (locked : Bool) :
    closePage t pe (w.placed log.lastPageId a nb n locked, files) =
      .ok () (w.placed (log.lastPageId + 1) 24 0 n locked, w.sealedFiles log t pe files) := by
  have absent : log.lastPageId + 1 ∉ files.ids := by
    rw [layout.mem_ids]
    omega
  have positive : 1 ≤ log.lastPageId := by
    rw [Log.lastPageId]
    omega
  have page : Journal.loadPage (log.lastPageId + 1) (w.opening.placed log.lastPageId a nb, files) =
      .ok () (w.opening.placed (log.lastPageId + 1) 24 0,
        files.addPage (log.lastPageId + 1) (findPageSize w.location)) :=
    Opening.loadPage_new absent (layout.mappable _) rfl (by omega)
  have bounds := findPageSize_bounds w.location
  have mib : mebibyte = 1048576 := rfl
  have inside := layout.current_inside
  have behind : FrameUnit.moveToNext (files.bytes log.lastPageId)
      (PageUnit.lastFrameAddress (files.bytes log.lastPageId)) = 24 + span log.current :=
    layout.current.last_moveToNext (by omega)
  have other : log.lastPageId ≠ log.lastPageId + 1 := by omega
  exact w.closePage_loaded n t pe locked positive page (by
    rw [JournalFiles.addPage_bytes_other files other]
    exact behind)

theorem sealedFiles_layout (w : Handle) (t pe : Int64) (layout : Layout w.location files log) :
    Layout w.location (w.sealedFiles log t pe files)
      ⟨log.closed ++ [(log.current, .make t pe w.location.uid w.destId)], []⟩ :=
  layout.sealPage (.make t pe w.location.uid w.destId) (layout.current.sealed _ _ _ _)

end Handle
end Writer
end BTrader
