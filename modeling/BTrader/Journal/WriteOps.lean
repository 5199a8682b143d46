import BTrader.Journal.WriterSpec

/-! The write operations as one type, and the refinement of the paged log by a
sequence of them: each operation appends its frame. -/
namespace BTrader
open ByteMemory Infra Procedure

/-- One call of a write function with the clock readings made in it. `writeBytes`
is given a vector of at least `length` bytes. -/
inductive WriteOp where
  | write (triggerTime : Int64) (data : List UInt8) (msgType : Int32) (pageEnd genTime : Int64)
  | writeAs (triggerTime : Int64) (data : List UInt8) (msgType : Int32) (source dest : UInt32)
      (pageEnd genTime : Int64)
  | writeAt (genTime triggerTime : Int64) (data : List UInt8) (msgType : Int32) (pageEnd : Int64)
  | writeRaw (triggerTime : Int64) (msgType : Int32) (data : List UInt8) (pageEnd genTime : Int64)
  | writeBytes (triggerTime : Int64) (msgType : Int32) (data : List UInt8) (length : UInt32)
      (covered : length.toNat ≤ data.length) (pageEnd genTime : Int64)
  | mark (triggerTime : Int64) (msgType : Int32) (pageEnd genTime : Int64)
  | markAt (genTime triggerTime : Int64) (msgType : Int32) (pageEnd : Int64)
  | copyFrame (source : SourceFrame) (trigger pageEnd : Int64)

namespace WriteOp

def run : WriteOp → WriterM Unit
  | write t data ty pe g => Writer.write t data ty pe g
  | writeAs t data ty s d pe g => Writer.writeAs t data ty s d pe g
  | writeAt g t data ty pe => Writer.writeAt g t data ty pe
  | writeRaw t ty data pe g => Writer.writeRaw t ty data pe g
  | writeBytes t ty data length _ pe g => Writer.writeBytes t ty data length pe g
  | mark t ty pe g => Writer.mark t ty pe g
  | markAt g t ty pe => Writer.markAt g t ty pe
  | copyFrame source t pe => Writer.copyFrame source.memory source.address t pe

/-- What the operation stores in a journal of that source and dest. -/
def content (source dest : UInt32) : WriteOp → Writer.Draft ⊕ SourceFrame
  | write t data ty _ g => .inl ⟨t, ty, source, dest, none, data, g⟩
  | writeAs t data ty s d _ g => .inl ⟨t, ty, source, dest, some (s, d), data, g⟩
  | writeAt g t data ty _ => .inl ⟨t, ty, source, dest, none, data, g⟩
  | writeRaw t ty data _ g => .inl ⟨t, ty, source, dest, none, data, g⟩
  | writeBytes t ty data length _ _ g =>
    .inl ⟨t, ty, source, dest, none, data.take length.toNat, g⟩
  | mark t ty _ g => .inl ⟨t, ty, source, dest, none, [], g⟩
  | markAt g t ty _ => .inl ⟨t, ty, source, dest, none, [], g⟩
  | copyFrame source _ _ => .inr source

def frame (source dest : UInt32) (op : WriteOp) : Frame :=
  (op.content source dest).elim Writer.Draft.frame SourceFrame.frame

/-- All stores of the operation on the page its frame goes to. -/
def stores (source dest : UInt32) (op : WriteOp) (a : Nat) : List StoreOp :=
  (op.content source dest).elim (fun d => d.stores a) (fun source => source.stores a)

/-- The trigger time and the time a page end marker made by the operation bears. -/
def pageEndTimes : WriteOp → Int64 × Int64
  | write t _ _ pe _ => (t, pe)
  | writeAs t _ _ _ _ pe _ => (t, pe)
  | writeAt _ t _ _ pe => (t, pe)
  | writeRaw t _ _ pe _ => (t, pe)
  | writeBytes t _ _ _ _ pe _ => (t, pe)
  | mark t _ pe _ => (t, pe)
  | markAt _ t _ pe => (t, pe)
  | copyFrame _ t pe => (t, pe)

def marker (source dest : UInt32) (op : WriteOp) : PageEnd :=
  .make op.pageEndTimes.1 op.pageEndTimes.2 source dest

/-- The message type is not the page end tag and the payload is shorter than a
page allows. -/
structure Admissible (location : JLocation) (op : WriteOp) : Prop where
  type : (op.frame location.uid 0).msgType ≠ pageEndTag
  short : (op.frame location.uid 0).data.length + 104 < findPageSize location

section

variable {location : JLocation}

theorem frame_shape (op : WriteOp) (s d s' d' : UInt32) :
    (op.frame s d).msgType = (op.frame s' d').msgType ∧
    (op.frame s d).data = (op.frame s' d').data ∧
    (op.frame s d).genTime = (op.frame s' d').genTime := by
  cases op <;> exact ⟨rfl, rfl, rfl⟩

theorem Admissible.msgType {op : WriteOp} (adm : op.Admissible location) (s d : UInt32) :
    (op.frame s d).msgType ≠ pageEndTag := by
  rw [(op.frame_shape s d location.uid 0).1]
  exact adm.type

theorem Admissible.size_lt {op : WriteOp} (adm : op.Admissible location) (s d : UInt32) :
    (op.frame s d).size + 64 < findPageSize location := by
  rw [Frame.size_eq, (op.frame_shape s d location.uid 0).2.1]
  have := adm.short
  omega

theorem places_of_size {op : WriteOp} (s d : UInt32) (small : (op.frame s d).size < 2 ^ 32) :
    Places (op.stores s d) (op.frame s d) := by
  rw [Frame.size_eq] at small
  unfold frame stores at *
  cases content : op.content s d with
  | inl draft =>
    rw [content] at small
    simp only [Sum.elim_inl, Writer.Draft.frame_data] at small
    exact draft.places (by omega)
  | inr source => exact source.places

theorem Admissible.places {op : WriteOp} (adm : op.Admissible location) (s d : UInt32) :
    Places (op.stores s d) (op.frame s d) := by
  have short := adm.size_lt s d
  have bounds := findPageSize_bounds location
  have mib : mebibyte = 1048576 := rfl
  exact places_of_size s d (by omega)

theorem stores_stored {op : WriteOp} (adm : op.Admissible location) (s d : UInt32)
    (stored : PageUnit.Stored (findPageSize location) m fs) :
    PageUnit.Stored (findPageSize location) (m.execAll (op.stores s d (24 + span fs)))
      (fs ++ [op.frame s d]) :=
  stored.place (adm.places s d)

end

theorem writeBytes_eq (covered : length.toNat ≤ data.length) :
    Writer.writeBytes t ty data length pe g =
      Writer.writeWith none t ty (data.take length.toNat) pe g :=
  if_neg (by omega)

variable {w : Writer.Handle} {files files' : JournalFiles} {log : Log} {k k' a a' nb nb' : Nat}

/-- A frame that fits is stored at the cursor, and then the cursor moves on. -/
theorem run_moves (w : Writer.Handle) {op : WriteOp} (nb : Nat)
    (header : PageUnit.Header (findPageSize w.location) (files.bytes k)) (first : 24 ≤ a)
    (fits : a + (op.frame w.location.uid w.destId).size + 40 < findPageSize w.location)
    (moved : ∀ locked, Writer.onJournal Journal.next (w.placed k a nb 0 locked,
      files.store k (op.stores w.location.uid w.destId a)) =
        .ok () (w.placed k' a' nb' 0 locked, files')) :
    op.run (w.placed k a nb 0 false, files) = .ok () (w.placed k' a' nb' 0 false, files') := by
  have written (retarget t ty data pe g)
      (inside : a + (40 + data.length) + 40 < findPageSize w.location)
      (moved : Writer.onJournal Journal.next (w.placed k a nb 0 true,
        files.store k ((w.draft retarget t ty data g).stores a)) =
          .ok () (w.placed k' a' nb' 0 true, files')) :
      Writer.writeWith retarget t ty data pe g (w.placed k a nb 0 false, files) =
        .ok () (w.placed k' a' nb' 0 false, files') :=
    w.writeWith_moves retarget t ty data pe g header first (by omega) moved
  cases op with
  | copyFrame source t pe => exact w.copyFrame_moves source t pe false header fits (moved false)
  | writeBytes t ty data length covered pe g =>
    rw [run, writeBytes_eq covered]
    exact written none t ty (data.take length.toNat) pe g fits (moved true)
  | mark t ty pe g => exact w.mark_moves t ty pe g header first fits (moved true)
  | markAt g t ty pe => exact w.mark_moves t ty pe g header first fits (moved true)
  | write t data ty pe g => exact written none t ty data pe g fits (moved true)
  | writeAs t data ty s d pe g => exact written (some (s, d)) t ty data pe g fits (moved true)
  | writeAt g t data ty pe => exact written none t ty data pe g fits (moved true)
  | writeRaw t ty data pe g => exact written none t ty data pe g fits (moved true)

/-- A frame that fits behind the cursor. -/
theorem run_fits (w : Writer.Handle) {op : WriteOp} (nb : Nat)
    (header : PageUnit.Header (findPageSize w.location) (files.bytes k))
    (type : (op.frame w.location.uid w.destId).msgType ≠ pageEndTag) (first : 24 ≤ a)
    (fits : a + (op.frame w.location.uid w.destId).size + 40 < findPageSize w.location) :
    op.run (w.placed k a nb 0 false, files) =
      .ok () (w.placed k (a + (op.frame w.location.uid w.destId).size) (nb + 1) 0 false,
        files.store k (op.stores w.location.uid w.destId a)) := by
  have bounds := findPageSize_bounds w.location
  have mib : mebibyte = 1048576 := rfl
  have places : Places (op.stores w.location.uid w.destId) (op.frame w.location.uid w.destId) :=
    places_of_size _ _ (by omega)
  exact run_moves w nb header first fits fun locked => w.next_placed nb 0 locked places type first

theorem copyFrame_change (w : Writer.Handle) {files' : JournalFiles} (source : SourceFrame)
    (header : PageUnit.Header (findPageSize w.location) (files.bytes k))
    (header' : PageUnit.Header (findPageSize w.location) (files'.bytes k'))
    (small : source.frame.size + 64 < findPageSize w.location)
    (full : ¬ a + source.frame.size + 40 < findPageSize w.location)
    (changed : Writer.closePage t pe (w.placed k a nb n locked, files) =
      .ok () (w.placed k' 24 0 n locked, files')) :
    Writer.copyFrame source.memory source.address t pe (w.placed k a nb n locked, files) =
      Writer.copyFrame source.memory source.address t pe (w.placed k' 24 0 n locked, files') := by
  obtain ⟨border, size⟩ := Writer.addressBorder_eq w.location header
  obtain ⟨border', size'⟩ := Writer.addressBorder_eq w.location header'
  have asserted : ¬ findPageSize w.location < source.frame.size + sizeofFrameHeader := by
    unfold sizeofFrameHeader
    omega
  have outside : findPageSize w.location - 40 ≤ a + source.frame.size := by omega
  have inside : ¬ findPageSize w.location - 40 ≤ 24 + source.frame.size := by omega
  simp only [Writer.copyFrame, bind_apply, get_apply, branch_apply,
    Writer.Handle.currentPage_placed, border, size, border', size', source.holds.length, asserted,
    if_false, Writer.Handle.placed_journal, Opening.placed_frame, inside, outside, if_true, changed]

/-- A frame that does not fit is written as if the page had been changed before. -/
theorem run_changed (w : Writer.Handle) (nb : Nat) {op : WriteOp}
    (header : PageUnit.Header (findPageSize w.location) (files.bytes k))
    (header' : PageUnit.Header (findPageSize w.location) (files'.bytes k'))
    (small : (op.frame w.location.uid w.destId).size + 64 < findPageSize w.location)
    (full : ¬ a + (op.frame w.location.uid w.destId).size + 40 < findPageSize w.location)
    (changed : ∀ locked, Writer.closePage op.pageEndTimes.1 op.pageEndTimes.2
      (w.placed k a nb 0 locked, files) = .ok () (w.placed k' 24 0 0 locked, files')) :
    op.run (w.placed k a nb 0 false, files) = op.run (w.placed k' 24 0 0 false, files') := by
  have opened (ty : Int32) (data : List UInt8)
      (here : (op.frame w.location.uid w.destId).data = data) :
      Writer.openFrame op.pageEndTimes.1 ty (UInt32.ofNat data.length) op.pageEndTimes.2
          (w.placed k a nb 0 false, files) =
        Writer.openFrame op.pageEndTimes.1 ty (UInt32.ofNat data.length) op.pageEndTimes.2
          (w.placed k' 24 0 0 false, files') := by
    rw [Frame.size_eq, here] at small full
    exact w.openFrame_change ty data.length header header' (by omega) (by omega) (changed true)
  cases op with
  | copyFrame source t pe =>
    exact copyFrame_change w source header header' small full (changed false)
  | writeBytes t ty data length covered pe g =>
    rw [run, writeBytes_eq covered]
    exact bind_same (opened ty _ rfl) _
  | mark t ty pe g => exact bind_same (opened ty [] rfl) _
  | markAt g t ty pe => exact bind_same (opened ty [] rfl) _
  | write t data ty pe g => exact bind_same (opened ty _ rfl) _
  | writeAs t data ty s d pe g => exact bind_same (opened ty _ rfl) _
  | writeAt g t data ty pe => exact bind_same (opened ty _ rfl) _
  | writeRaw t ty data pe g => exact bind_same (opened ty _ rfl) _

theorem run_change (w : Writer.Handle) (nb : Nat) {op : WriteOp}
    (layout : Layout w.location files log) (adm : op.Admissible w.location)
    (full : ¬ a + (op.frame w.location.uid w.destId).size + 40 < findPageSize w.location) :
    op.run (w.placed log.lastPageId a nb 0 false, files) =
      op.run (w.placed (log.lastPageId + 1) 24 0 0 false,
        w.sealedFiles log op.pageEndTimes.1 op.pageEndTimes.2 files) := by
  have header' := (w.sealedFiles_layout op.pageEndTimes.1 op.pageEndTimes.2 layout).current.header
  rw [Log.lastPageId, List.length_append, List.length_singleton, ← Log.lastPageId] at header'
  exact run_changed w nb layout.current.header header' (adm.size_lt w.location.uid w.destId) full
    (w.closePage_spec a nb 0 op.pageEndTimes.1 op.pageEndTimes.2 layout)

/-- The journal content after one operation. -/
def append (location : JLocation) (destId : UInt32) (log : Log) (op : WriteOp) : Log :=
  PagedLog.append Frame.size (pageRoom (findPageSize location)) log
    (op.frame location.uid destId) (op.marker location.uid destId)

theorem run_append_fits (w : Writer.Handle) {op : WriteOp} (layout : Layout w.location files log)
    (adm : op.Admissible w.location)
    (fits : Log.roomFor w.location log (op.frame w.location.uid w.destId)) :
    op.run (w.atEnd log, files) =
      .ok () (w.atEnd (op.append w.location w.destId log),
        files.store log.lastPageId (op.stores w.location.uid w.destId (24 + span log.current))) ∧
    Layout w.location (files.store log.lastPageId
      (op.stores w.location.uid w.destId (24 + span log.current)))
      (op.append w.location w.destId log) := by
  have room := pageRoom_bounds w.location
  have used : span log.current + (op.frame w.location.uid w.destId).size <
      pageRoom (findPageSize w.location) := fits
  have ran := run_fits (a := 24 + span log.current) w log.current.length layout.current.header
    (adm.msgType w.location.uid w.destId) (by omega) (by omega)
  have stored := stores_stored adm w.location.uid w.destId layout.current
  rw [append, PagedLog.append_of_fits fits]
  refine ⟨?_, layout.store stored (by simpa using used)⟩
  rw [Writer.Handle.atEnd, ran]
  simp [Writer.Handle.atEnd, Log.lastPageId, Nat.add_assoc]

/-- The journal the operation puts its frame in: the page is changed first when the
frame does not fit. -/
def opened (location : JLocation) (destId : UInt32) (log : Log) (op : WriteOp) : Log :=
  if Log.roomFor location log (op.frame location.uid destId) then log
  else ⟨log.closed ++ [(log.current, op.marker location.uid destId)], []⟩

/-- The files after that page change. -/
def openedFiles (w : Writer.Handle) (log : Log) (op : WriteOp) (files : JournalFiles) :
    JournalFiles :=
  if Log.roomFor w.location log (op.frame w.location.uid w.destId) then files
  else w.sealedFiles log op.pageEndTimes.1 op.pageEndTimes.2 files

theorem opened_roomFor {op : WriteOp} (adm : op.Admissible location) (destId : UInt32) (log : Log) :
    Log.roomFor location (op.opened location destId log) (op.frame location.uid destId) := by
  unfold opened
  split
  · assumption
  · have room := pageRoom_bounds location
    have small := adm.size_lt location.uid destId
    change 0 + (op.frame location.uid destId).size < pageRoom (findPageSize location)
    omega

theorem opened_append {op : WriteOp} (adm : op.Admissible location) (destId : UInt32) (log : Log) :
    op.append location destId (op.opened location destId log) = op.append location destId log := by
  by_cases fits : Log.roomFor location log (op.frame location.uid destId)
  · rw [opened, if_pos fits]
  · have fits' := opened_roomFor adm destId log
    rw [append, PagedLog.append_of_fits fits', append, PagedLog.append_of_not_fits fits, opened,
      if_neg fits]
    rfl

theorem openedFiles_layout (w : Writer.Handle) (op : WriteOp)
    (layout : Layout w.location files log) :
    Layout w.location (op.openedFiles w log files) (op.opened w.location w.destId log) := by
  unfold openedFiles opened
  split
  · exact layout
  · exact w.sealedFiles_layout _ _ layout

/-- Writing into the opened journal is all the operation does. -/
theorem run_opened (w : Writer.Handle) {op : WriteOp} (layout : Layout w.location files log)
    (adm : op.Admissible w.location) :
    op.run (w.atEnd log, files) =
      op.run (w.atEnd (op.opened w.location w.destId log), op.openedFiles w log files) := by
  unfold opened openedFiles
  split
  · rfl
  · rename_i fits
    have room := pageRoom_bounds w.location
    have full : ¬ 24 + span log.current + (op.frame w.location.uid w.destId).size + 40 <
        findPageSize w.location := by
      intro inside
      apply fits
      change span log.current + (op.frame w.location.uid w.destId).size <
        pageRoom (findPageSize w.location)
      omega
    rw [Writer.Handle.atEnd, run_change w _ layout adm full]
    simp [Writer.Handle.atEnd, Log.lastPageId]

/-- One operation of a writer behind the last frame appends its frame. -/
theorem run_append (w : Writer.Handle) {op : WriteOp} (layout : Layout w.location files log)
    (adm : op.Admissible w.location) :
    ∃ files', op.run (w.atEnd log, files) =
        .ok () (w.atEnd (op.append w.location w.destId log), files') ∧
      Layout w.location files' (op.append w.location w.destId log) := by
  have ran := run_append_fits w (openedFiles_layout w op layout) adm
    (opened_roomFor adm w.destId log)
  rw [opened_append adm, ← run_opened w layout adm] at ran
  exact ⟨_, ran⟩

/-- The operations one after another. -/
def runAll (ops : List WriteOp) : WriterM Unit := ops.forM run

def appendAll (location : JLocation) (destId : UInt32) (log : Log) (ops : List WriteOp) : Log :=
  ops.foldl (append location destId) log

theorem appendAll_eq (location : JLocation) (destId : UInt32) (log : Log) (ops : List WriteOp) :
    appendAll location destId log ops =
      PagedLog.appendAll Frame.size (pageRoom (findPageSize location)) log
        (ops.map fun op => (op.frame location.uid destId, op.marker location.uid destId)) := by
  rw [appendAll, PagedLog.appendAll, List.foldl_map]
  rfl

theorem contents_appendAll (location : JLocation) (destId : UInt32) (log : Log)
    (ops : List WriteOp) :
    (appendAll location destId log ops).contents =
      log.contents ++ ops.map (frame location.uid destId) := by
  rw [appendAll_eq, PagedLog.contents_appendAll, List.map_map]
  rfl

@[simp] theorem runAll_nil : runAll [] s = .ok () s := rfl

theorem runAll_cons (op : WriteOp) (ops : List WriteOp) :
    runAll (op :: ops) = op.run >>= fun _ => runAll ops := rfl

theorem runAll_appendAll (w : Writer.Handle) {ops : List WriteOp}
    (layout : Layout w.location files log) (adm : ∀ op ∈ ops, op.Admissible w.location) :
    ∃ files', runAll ops (w.atEnd log, files) =
        .ok () (w.atEnd (appendAll w.location w.destId log ops), files') ∧
      Layout w.location files' (appendAll w.location w.destId log ops) := by
  induction ops generalizing files log with
  | nil => exact ⟨files, rfl, layout⟩
  | cons op ops ih =>
    obtain ⟨files₁, ran, layout₁⟩ := run_append w layout (adm op List.mem_cons_self)
    obtain ⟨files₂, rest, layout₂⟩ := ih layout₁ (fun o h => adm o (List.mem_cons_of_mem _ h))
    refine ⟨files₂, ?_, layout₂⟩
    rw [runAll_cons, bind_ok ran, rest]
    rfl

end WriteOp
end BTrader
