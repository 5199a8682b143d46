import BTrader.Journal.RollbackRing
import BTrader.Journal.PageWalk

/-! A whole session of a writer with rollback: the ring of page files holds the last pages
of what was written, and the journal never has more files than the ring has slots. -/
namespace BTrader
open ByteMemory Infra Procedure Ring

namespace Writer.Handle

variable {w : Handle} {files files' : JournalFiles} {k k' a nb n size mark mark' len : Nat}
    {locked : Bool}

/-- A frame that does not fit is opened as if the page had been changed before. -/
theorem openFrame_turned (w : Handle) (ty : Int32) (len : Nat)
    (header : PageUnit.Header (findPageSize w.location) (files.bytes k))
    (header' : PageUnit.Header (findPageSize w.location) (files'.bytes k'))
    (small : len + 104 < findPageSize w.location)
    (full : ¬ a + 40 + len + 40 < findPageSize w.location)
    (changed : closePage t pe ((w.placed k a nb n true).rolling size mark, files) =
      .ok () ((w.placed k' 24 0 n true).rolling size mark', files')) :
    openFrame t ty (UInt32.ofNat len) pe ((w.placed k a nb n false).rolling size mark, files) =
      openFrame t ty (UInt32.ofNat len) pe ((w.placed k' 24 0 n false).rolling size mark',
        files') := by
  have fits := w.openFrame_fits (a := 24) t ty len pe 0 n header' (by omega) (by omega)
  have lifted := (lifts_openFrame t ty (UInt32.ofNat len) pe rfl fits).2.2 rfl size mark'
  rw [lifted]
  obtain ⟨border, length⟩ := addressBorder_eq w.location header
  have asserted : ¬ findPageSize w.location < sizeofFrameHeader + len + sizeofFrameHeader := by
    unfold sizeofFrameHeader
    omega
  have outside : findPageSize w.location - 40 ≤ a + sizeofFrameHeader + len := by
    unfold sizeofFrameHeader
    omega
  have cursor : ((w.placed k a nb n false).rolling size mark).journal.frame = a := rfl
  have cursor' : ((w.placed k' 24 0 n true).rolling size mark').journal.frame = 24 := rfl
  simp only [openFrame, bind_apply, get_apply, currentPage_rolling, border, length,
    dataLength_toNat w.location len (by omega), asserted, if_false, lock_rolling, cursor, outside,
      if_true, changed,
    cursor', store_rolling, setSizeToWrite_rolling, pure_apply]
  rfl

theorem copyFrame_turned (w : Handle) (source : SourceFrame)
    (header : PageUnit.Header (findPageSize w.location) (files.bytes k))
    (header' : PageUnit.Header (findPageSize w.location) (files'.bytes k'))
    (small : source.frame.size + 64 < findPageSize w.location)
    (full : ¬ a + source.frame.size + 40 < findPageSize w.location)
    (changed : closePage t pe ((w.placed k a nb n locked).rolling size mark, files) =
      .ok () ((w.placed k' 24 0 n locked).rolling size mark', files')) :
    copyFrame source.memory source.address t pe ((w.placed k a nb n locked).rolling size mark,
      files) =
      copyFrame source.memory source.address t pe ((w.placed k' 24 0 n locked).rolling size mark',
        files') := by
  obtain ⟨border, length⟩ := addressBorder_eq w.location header
  obtain ⟨border', length'⟩ := addressBorder_eq w.location header'
  have asserted : ¬ findPageSize w.location < source.frame.size + sizeofFrameHeader := by
    unfold sizeofFrameHeader
    omega
  have outside : findPageSize w.location - 40 ≤ a + source.frame.size := by omega
  have inside : ¬ findPageSize w.location - 40 ≤ 24 + source.frame.size := by omega
  have cursor : ((w.placed k a nb n locked).rolling size mark).journal.frame = a := rfl
  have cursor' : ((w.placed k' 24 0 n locked).rolling size mark').journal.frame = 24 := rfl
  simp only [copyFrame, bind_apply, get_apply, branch_apply, currentPage_rolling, border,
    length, border',
    length', source.holds.length, asserted, if_false, cursor, cursor', inside, outside,
      if_true, changed]

end Writer.Handle

namespace WriteOp

variable {w : Writer.Handle} {files files' : JournalFiles} {log : Log}
    {k k' a nb size mark mark' : Nat}

/-- A frame that does not fit is written as if the page had been changed before. -/
theorem run_turned (w : Writer.Handle) {op : WriteOp}
    (header : PageUnit.Header (findPageSize w.location) (files.bytes k))
    (header' : PageUnit.Header (findPageSize w.location) (files'.bytes k'))
    (small : (op.frame w.location.uid w.destId).size + 64 < findPageSize w.location)
    (full : ¬ a + (op.frame w.location.uid w.destId).size + 40 < findPageSize w.location)
    (changed : ∀ locked, Writer.closePage op.pageEndTimes.1 op.pageEndTimes.2
      ((w.placed k a nb 0 locked).rolling size mark, files) =
        .ok () ((w.placed k' 24 0 0 locked).rolling size mark', files')) :
    op.run ((w.placed k a nb 0 false).rolling size mark, files) =
      op.run ((w.placed k' 24 0 0 false).rolling size mark', files') := by
  have opened (ty : Int32) (data : List UInt8)
      (here : (op.frame w.location.uid w.destId).data = data) :
      Writer.openFrame op.pageEndTimes.1 ty (UInt32.ofNat data.length) op.pageEndTimes.2
          ((w.placed k a nb 0 false).rolling size mark, files) =
        Writer.openFrame op.pageEndTimes.1 ty (UInt32.ofNat data.length) op.pageEndTimes.2
          ((w.placed k' 24 0 0 false).rolling size mark', files') := by
    rw [Frame.size_eq, here] at small full
    exact w.openFrame_turned ty data.length header header' (by omega) (by omega) (changed true)
  cases op with
  | copyFrame source t pe =>
    exact w.copyFrame_turned source header header' small full (changed false)
  | writeBytes t ty data length covered pe g =>
    rw [run, writeBytes_eq covered]
    exact bind_same (opened ty _ rfl) _
  | mark t ty pe g => exact bind_same (opened ty [] rfl) _
  | markAt g t ty pe => exact bind_same (opened ty [] rfl) _
  | write t data ty pe g => exact bind_same (opened ty _ rfl) _
  | writeAs t data ty s d pe g => exact bind_same (opened ty _ rfl) _
  | writeAt g t data ty pe => exact bind_same (opened ty _ rfl) _
  | writeRaw t ty data pe g => exact bind_same (opened ty _ rfl) _

/-- One operation of a writer behind the last frame of its ring. -/
theorem run_append_ring (w : Writer.Handle) {op : WriteOp}
    (layout : RingLayout w.location size files log)
    (positive : 1 ≤ size) (adm : op.Admissible w.location) :
    ∃ files', op.run (w.ringEnd size log, files) =
        .ok () (w.ringEnd size (op.append w.location w.destId log), files') ∧
      RingLayout w.location size files' (op.append w.location w.destId log) := by
  have room := pageRoom_bounds w.location
  have short := adm.size_lt w.location.uid w.destId
  have header := (layout.current positive).header
  by_cases fits : Log.roomFor w.location log (op.frame w.location.uid w.destId)
  · have used : span log.current + (op.frame w.location.uid w.destId).size <
        pageRoom (findPageSize w.location) := fits
    have ran := run_fits_rolling (a := 24 + span log.current) w log.current.length size
      (Writer.Handle.ringMark size log.lastPageId) header (adm.msgType w.location.uid w.destId)
        (by omega) (by omega)
    have stored := stores_stored adm w.location.uid w.destId (layout.current positive)
    rw [append, PagedLog.append_of_fits fits]
    refine ⟨_, ?_, layout.store stored (by simpa using used)⟩
    rw [Writer.Handle.ringEnd, ran]
    simp [Writer.Handle.ringEnd, Log.lastPageId, Nat.add_assoc]
  · have full : ¬ 24 + span log.current + (op.frame w.location.uid w.destId).size + 40 <
        findPageSize w.location := by
      intro inside
      apply fits
      change span log.current + (op.frame w.location.uid w.destId).size <
        pageRoom (findPageSize w.location)
      omega
    let t := op.pageEndTimes.1
    let pe := op.pageEndTimes.2
    have header' := (Writer.Handle.turnedFiles_blank w layout positive t pe).header
    have turned := run_turned w header header' short full
      (w.closePage_ring layout positive (24 + span log.current) log.current.length 0 t pe)
    have ran :=
      run_fits_rolling (a := 24) w 0 size (Writer.Handle.ringMark size (log.lastPageId + 1)) header'
      (adm.msgType w.location.uid w.destId) (le_refl 24) (by omega)
    have layout' :=
      w.turned_layout layout positive (adm.places w.location.uid w.destId) (by omega) t pe
    rw [append, PagedLog.append_of_not_fits fits]
    refine ⟨_, ?_, layout'⟩
    rw [Writer.Handle.ringEnd, turned, ran]
    simp [Writer.Handle.ringEnd, Log.lastPageId]

theorem runAll_appendAll_ring (w : Writer.Handle) {ops : List WriteOp}
    (layout : RingLayout w.location size files log) (positive : 1 ≤ size)
    (adm : ∀ op ∈ ops, op.Admissible w.location) :
    ∃ files', runAll ops (w.ringEnd size log, files) =
        .ok () (w.ringEnd size (appendAll w.location w.destId log ops), files') ∧
      RingLayout w.location size files' (appendAll w.location w.destId log ops) := by
  induction ops generalizing files log with
  | nil => exact ⟨files, rfl, layout⟩
  | cons op ops ih =>
    obtain ⟨files₁, ran, layout₁⟩ := run_append_ring w layout positive (adm op List.mem_cons_self)
    obtain ⟨files₂, rest, layout₂⟩ := ih layout₁ (fun o h => adm o (List.mem_cons_of_mem _ h))
    refine ⟨files₂, ?_, layout₂⟩
    rw [runAll_cons, bind_ok ran, rest]
    rfl

end WriteOp

namespace Writer

/-- Construct a writer in a process with that rollback size and run the operations. -/
def rollbackSession (size : Nat) (location : JLocation) (destId : UInt32) (isLazy : Bool)
    (started now : Int64) (ops : List WriteOp) : EStateM Fault JournalFiles Writer := fun files =>
  match make location destId isLazy size started now files with
  | .error e files => .error e files
  | .ok w files =>
    match WriteOp.runAll ops (w, files) with
    | .ok _ (w, files) => .ok w files
    | .error e (_, files) => .error e files

/-- The seek of the constructor stays on the page it creates. -/
theorem make_fresh_rolling (positive : 1 ≤ size) (location : JLocation) (destId : UInt32)
    (isLazy : Bool) (started now : Int64) :
    make location destId isLazy size started now JournalFiles.fresh =
      .ok ((handleAt location destId isLazy started).ringEnd size PagedLog.empty)
        (JournalFiles.fresh.addPage 1 (findPageSize location)) := by
  have bounds := findPageSize_bounds location
  have mib : mebibyte = 1048576 := rfl
  let o : Opening := ⟨location, destId, true, isLazy⟩
  let files := JournalFiles.fresh.addPage 1 (findPageSize location)
  have stored : PageUnit.Stored (findPageSize location) (files.bytes 1) [] := by
    rw [JournalFiles.addPage_bytes_same]
    exact PageUnit.initial_stored _
  have search :
      PageUnit.findPageId location destId now JournalFiles.fresh = .ok 1 JournalFiles.fresh := by
    simp [PageUnit.findPageId, PageUnit.listPageId, JournalFiles.fresh]
  have found := onSnd_ok (s := Journal.make location destId true isLazy size) search
  have opened : Journal.loadPage 1 (o.make, JournalFiles.fresh) = .ok () (o.placed 1 24 0, files) :=
    Opening.loadPage_create (by simp [JournalFiles.fresh]) rfl rfl
  have opened :
      Journal.loadPage 1 (Journal.make location destId true isLazy size, JournalFiles.fresh) =
      .ok () ((o.placed 1 24 0).rolling size 0, files) := Journal.loadPage_rolling opened size 0
  have partly :
      ¬ (PageUnit.isFull (files.bytes 1) = true ∧ PageUnit.endTime (files.bytes 1) ≤ now) := by
    rw [stored.isFull (by omega) (by rw [span_nil]; omega), decide_eq_true_eq, span_nil]
    omega
  have nothing :
      ¬ (FrameUnit.hasData (files.bytes 1) 24 = true ∧
      FrameUnit.genTime (files.bytes 1) 24 ≤ now) := by
    have slot := stored.slot_hasData
    rw [span_nil] at slot
    simp [slot]
  have pages (fuel : Nat) :
      Journal.skipFullPages now (fuel + 1) ((o.placed 1 24 0).rolling size 0, files) =
      .ok () ((o.placed 1 24 0).rolling size 0, files) := by
    simp [Journal.skipFullPages, Journal.currentPage, Opening.placed, Journal.rolling, partly]
  have frames (fuel : Nat) :
      Journal.skipFrames now (fuel + 1) ((o.placed 1 24 0).rolling size 0, files) =
      .ok () ((o.placed 1 24 0).rolling size 0, files) := by
    simp [Journal.skipFrames, Journal.currentPage, Opening.placed, Journal.rolling, nothing]
  have sought :
      Journal.seekToTime now (Journal.make location destId true isLazy size, JournalFiles.fresh) =
      .ok () ((o.placed 1 24 0).rolling size 0, files) := by
    simp only [Journal.seekToTime, bind_apply, get_apply]
    simp only [Journal.make] at found opened ⊢
    rw [found]
    simp only [opened, pages]
    exact frames _
  have last : slot size (Log.lastPageId PagedLog.empty) = 1 := slot_first (le_refl 1) positive
  have unmarked : Handle.ringMark size (Log.lastPageId PagedLog.empty) = 0 := if_pos positive
  rw [make, sought, Handle.ringEnd, last, unmarked]
  rfl

/-- A session with rollback, from a fresh journal on: every operation succeeds, the page
files are those of the ring, and of the pages written without rollback the last `size` ones
are in their slots, each complete and with its own frames alone. -/
theorem rollbackSession_fresh (positive : 1 ≤ size) (location : JLocation) (destId : UInt32)
    (isLazy : Bool)
    (started now : Int64) {ops : List WriteOp} (adm : ∀ op ∈ ops, op.Admissible location) :
    ∃ files, rollbackSession size location destId isLazy started now ops JournalFiles.fresh =
        .ok ((handleAt location destId isLazy started).ringEnd size
          (WriteOp.appendAll location destId PagedLog.empty ops)) files ∧
      RingLayout location size files (WriteOp.appendAll location destId PagedLog.empty ops) := by
  obtain ⟨files, ran, layout⟩ :=
    WriteOp.runAll_appendAll_ring (handleAt location destId isLazy started)
    (RingLayout.start location positive) positive adm
  refine ⟨files, ?_, layout⟩
  have ran :
      WriteOp.runAll ops ((handleAt location destId isLazy started).ringEnd size PagedLog.empty,
      JournalFiles.fresh.addPage 1 (findPageSize location)) = _ := ran
  simp only [rollbackSession, make_fresh_rolling positive, ran]
  rfl

/-- Rollback keeps the last pages: a session on a fresh journal succeeds, never has more
page files than the ring has slots, and leaves of the pages of the log the last `size`
ones, each complete and alone in its slot. They hold the end of what was written. -/
theorem rollback_keeps_last_pages (positive : 1 ≤ size) (location : JLocation) (destId : UInt32)
    (isLazy : Bool)
    (started now : Int64) {ops : List WriteOp} (adm : ∀ op ∈ ops, op.Admissible location) :
    ∃ w files log, rollbackSession size location destId isLazy started now ops JournalFiles.fresh =
      .ok w files ∧
      log = WriteOp.appendAll location destId PagedLog.empty ops ∧
      w.journal.page = some ⟨slot size log.lastPageId, findPageSize location⟩ ∧
      w.journal.frame = 24 + span log.current ∧
      (∀ p, p ∈ files.ids ↔ 1 ≤ p ∧ p ≤ min log.lastPageId size) ∧
      (∀ i fs, log.stored[i]? = some fs → log.lastPageId ≤ i + size →
        PageUnit.Stored (findPageSize location) (files.bytes (slot size (i + 1))) fs) ∧
      (log.pages.drop (log.lastPageId - size)).flatten <:+ ops.map
        (WriteOp.frame location.uid destId) := by
  obtain ⟨files, ran, layout⟩ :=
    rollbackSession_fresh positive location destId isLazy started now adm
  refine ⟨_, files, _, ran, rfl, rfl, rfl, layout.ids, layout.page, ?_⟩
  have all : (WriteOp.appendAll location destId PagedLog.empty ops).pages.flatten =
      ops.map (WriteOp.frame location.uid destId) := by
    rw [PagedLog.contents_pages, WriteOp.contents_appendAll, PagedLog.contents_empty,
      List.nil_append]
  rw [← all]
  exact flatten_drop_suffix _ _

theorem halfPage_admissible {data : List UInt8} (length : data.length = 9000000) :
    (WriteOp.writeRaw 3 101 data 4 5).Admissible simAccount := by
  constructor
  · simp [WriteOp.frame, WriteOp.content, pageEndTag]
  · simp [WriteOp.frame, WriteOp.content, findPageSize, simAccount, JLocation.make,
      mebibyte, length]

/-- Three writes of more than half a page in a ring of two pages. -/
theorem rollback_keeps_last_pages_three :
    ∃ w files log, rollbackSession 2 simAccount 7 false 1 2
        (List.replicate 3 (.writeRaw 3 101 (List.replicate 9000000 1) 4 5)) JournalFiles.fresh =
          .ok w files ∧
      log = WriteOp.appendAll simAccount 7 PagedLog.empty
        (List.replicate 3 (.writeRaw 3 101 (List.replicate 9000000 1) 4 5)) ∧
      w.journal.page = some ⟨slot 2 log.lastPageId, findPageSize simAccount⟩ ∧
      w.journal.frame = 24 + span log.current ∧
      (∀ p, p ∈ files.ids ↔ 1 ≤ p ∧ p ≤ min log.lastPageId 2) ∧
      (∀ i fs, log.stored[i]? = some fs → log.lastPageId ≤ i + 2 →
        PageUnit.Stored (findPageSize simAccount) (files.bytes (slot 2 (i + 1))) fs) ∧
      (log.pages.drop (log.lastPageId - 2)).flatten <:+
        (List.replicate 3 (WriteOp.writeRaw 3 101 (List.replicate 9000000 1) 4 5)).map
          (WriteOp.frame simAccount.uid 7) := by
  refine rollback_keeps_last_pages (by decide) simAccount 7 false 1 2 ?_
  intro op member
  rw [List.eq_of_mem_replicate member]
  exact halfPage_admissible List.length_replicate

end Writer
end BTrader
