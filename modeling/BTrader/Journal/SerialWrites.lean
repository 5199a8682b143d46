import BTrader.Journal.WriterThreads

/-! The calls that threads make on one writer are as if made one after another, in the order in
which they took its lock. -/
namespace BTrader
open ByteMemory Infra Procedure Interleaving

theorem storesFrom_closeStores {frame next : Nat} {len : UInt32} {g : Int64} (below : 24 ≤ next)
    (first : 24 ≤ frame) :
    StoresFrom 16 (Writer.closeStores frame next len g) := by
  refine ((storesFrom_copyBytes _ _).mono (by omega)).append fun op member m => ?_
  simp only [List.mem_cons, List.not_mem_nil, or_false] at member
  rcases member with rfl | rfl | rfl <;>
    simp [FrameUnit.setGenTime, FrameUnit.setDataLength, PageUnit.setLastFramePosition] <;> omega

theorem storesFrom_sealStores {frame : Nat} (t g : Int64) (s d : UInt32) (first : 24 ≤ frame) :
    StoresFrom 16 (Writer.sealStores frame t g s d) := by
  refine ((storesFrom_pageEndStores frame).mono (by omega)).append fun op member m => ?_
  rw [List.mem_singleton.mp member]
  simp [PageUnit.setLastFramePosition]

namespace Writer.Handle

/-- The writer is locked, and every mapped page has the header of its journal's pages. -/
def Busy (w : Handle) (s : SharedWriter) : Prop :=
  (∃ k a nb n, s.1.1 = w.placed k a nb n true) ∧
    ∀ p ∈ s.2, PageUnit.Header (findPageSize w.location) (s.1.2.bytes p)

variable {w : Handle} {files : JournalFiles} {log : Log} {k a nb n : Nat}

theorem header_execAll {size : Nat} {m : Memory} (header : PageUnit.Header size m)
    {ops : List StoreOp} (behind : StoresFrom 16 ops) : PageUnit.Header size (m.execAll ops) :=
  header.congr fun _ below => behind.execAll m below.2

theorem Busy.alone (header : PageUnit.Header (findPageSize w.location) (files.bytes k)) :
    w.Busy ((w.placed k a nb n true, files), [k]) :=
  ⟨⟨k, a, nb, n, rfl⟩, fun _ member => List.mem_singleton.mp member ▸ header⟩

theorem Busy.stores {ops sub : List StoreOp}
    (header : PageUnit.Header (findPageSize w.location) (files.bytes k))
    (behind : StoresFrom 16 ops) (inside : sub <+: ops) :
    w.Busy ((w.placed k a nb n true, files.store k sub), [k]) := by
  refine .alone ?_
  rw [JournalFiles.store_bytes_same]
  exact header_execAll header fun op member => behind op (inside.subset member)

/-- While a page is sealed the next one is mapped too. -/
theorem Busy.sealing (layout : Layout w.location files log) {sub : List StoreOp} {trigger : Int64}
    {now : Int → Int64} (v : Int)
    (inside : sub <+: sealStores (24 + span log.current) trigger (now v) w.location.uid w.destId) :
    w.Busy ((w.placed (log.lastPageId + 1) 24 0 n true,
      (files.addPage (log.lastPageId + 1) (findPageSize w.location)).store log.lastPageId sub),
      [log.lastPageId + 1, log.lastPageId]) := by
  refine ⟨⟨_, _, _, _, rfl⟩, fun p member => ?_⟩
  simp only [List.mem_cons, List.not_mem_nil, or_false] at member
  rcases member with rfl | rfl
  · rw [JournalFiles.store_bytes_other _ (by omega), JournalFiles.addPage_bytes_same]
    exact (PageUnit.initial_stored _).header
  · rw [JournalFiles.store_bytes_same, JournalFiles.addPage_bytes_other files (by omega)]
    refine header_execAll layout.current.header fun op member => ?_
    exact storesFrom_sealStores _ _ _ _ (by omega) op (inside.subset member)

end Writer.Handle

namespace SharedCall
open Writer

variable {w : Handle} {files : JournalFiles} {log : Log} {k a nb n : Nat} {t : Int}
    {now : Int → Int64}

/-- The bytes a call puts into its frame, and the ids it returns. -/
def data (id : UInt64) (m : Memory) (address : Nat) : SharedCall → List UInt8
  | write _ data _ => data
  | writeRaw _ _ data => data
  | mark _ _ => []
  | request _ _ size fill => (fill id (m.object address size)).bytes

def ids (id : UInt64) : SharedCall → List UInt64
  | request _ _ _ _ => [id]
  | _ => []

theorem data_length (c : SharedCall) (id : UInt64) (m : Memory) (address : Nat) :
    (c.data id m address).length = c.size := by
  cases c with
  | write t data ty => rfl
  | writeRaw t ty data => rfl
  | mark t ty => rfl
  | request t ty size fill => exact (fill id (m.object address size)).length

/-- The type is not that of a page end, and the payload is shorter than a page allows. -/
structure Admissible (location : JLocation) (c : SharedCall) : Prop where
  type : c.msgType ≠ pageEndTag
  short : c.size + 104 < findPageSize location

/-- The frame a call stores on a page at `a`. -/
def draft (w : Handle) (c : SharedCall) (m : Memory) (k a nb : Nat) (g : Int64) : Draft :=
  w.draft none c.triggerTime c.msgType (c.data (w.uidAt k nb)
    (m.execAll (openStores a c.triggerTime c.msgType w.location.uid w.destId)) (a + 40)) g

/-- What one thread alone does, where the frame fits at the cursor. -/
theorem task_fits (w : Handle) (c : SharedCall) (pe g : Int64) (nb : Nat)
    (header : PageUnit.Header (findPageSize w.location) (files.bytes k))
    (type : c.msgType ≠ pageEndTag)
    (first : 24 ≤ a) (fits : a + 40 + c.size + 40 < findPageSize w.location) :
    (c.task pe g).run (w.placed k a nb 0 false, files) =
      .ok (c.ids (w.uidAt k nb)) (w.placed k (a + 40 + c.size) (nb + 1) 0 false,
        files.store k ((c.draft w (files.bytes k) k a nb g).stores a)) := by
  cases c with
  | write t data ty => exact bind_ok (w.writeWith_fits none t ty data pe g header type first fits) _
  | writeRaw t ty data =>
    exact bind_ok (w.writeWith_fits none t ty data pe g header type first fits) _
  | mark t ty => exact bind_ok (w.mark_fits t ty pe g header type first fits) _
  | request t ty size fill =>
    exact bind_ok (w.issue_filled ⟨t, ty, size, fill, pe, g⟩ nb 0 header type first fits) _

/-- Otherwise it does what it would do after the page change. -/
theorem task_change (w : Handle) (c : SharedCall) (pe g : Int64)
    (layout : Layout w.location files log) (adm : c.Admissible w.location)
    (full : ¬ 24 + span log.current + 40 + c.size + 40 < findPageSize w.location) :
    (c.task pe g).run (w.atEnd log, files) =
      (c.task pe g).run (w.placed (log.lastPageId + 1) 24 0 0 false,
        w.sealedFiles log c.triggerTime pe files) := by
  have changed {op : WriteOp} (same : c.task pe g = .write op)
      (type : (op.frame w.location.uid 0).msgType = c.msgType)
      (size : ∀ s d, (op.frame s d).data.length = c.size)
      (times : op.pageEndTimes = (c.triggerTime, pe)) :
      op.run (w.atEnd log, files) =
        op.run (w.placed (log.lastPageId + 1) 24 0 0 false,
          w.sealedFiles log c.triggerTime pe files) := by
    have adm' : op.Admissible w.location :=
      ⟨by rw [type]; exact adm.type, by rw [size]; exact adm.short⟩
    have full' : ¬ 24 + span log.current + (op.frame w.location.uid w.destId).size + 40 <
        findPageSize w.location := by
      rw [Frame.size_eq, size, ← Nat.add_assoc]
      exact full
    have ran := WriteOp.run_change w log.current.length layout adm' full'
    rwa [times] at ran
  cases c with
  | write t data ty => exact bind_same (changed rfl rfl (fun _ _ => rfl) rfl) _
  | writeRaw t ty data => exact bind_same (changed rfl rfl (fun _ _ => rfl) rfl) _
  | mark t ty => exact bind_same (changed rfl rfl (fun _ _ => rfl) rfl) _
  | request t ty size fill =>
    have next : w.atEnd ⟨log.closed ++ [(log.current, .make t pe w.location.uid w.destId)], []⟩ =
        w.placed (log.lastPageId + 1) 24 0 0 false := by
      simp [Handle.atEnd, Log.lastPageId]
    rw [← next]
    exact bind_same (w.issue_change ⟨t, ty, size, fill, pe, g⟩ layout ⟨adm.type, adm.short⟩ full) _

/-- The payload is stored behind the header, and the id read is that of the frame. -/
theorem payload_leads (w : Handle) (c : SharedCall) {ids : Type} {f : List UInt64 → ThreadM ids}
    {post : ids → Int → SharedWriter → Prop}
    (header : PageUnit.Header (findPageSize w.location) (files.bytes k))
    (opened : FrameUnit.headerLength (files.bytes k) a = 40) (first : 24 ≤ a)
    (rest : ∀ u, t ≤ u → (f (c.ids (w.uidAt k nb))).Leads w.Busy post u ((w.placed k a nb n true,
      files.store k (copyBytes (a + 40) (c.data (w.uidAt k nb) (files.bytes k) (a + 40)))), [k])) :
    (c.payload a >>= f).Leads w.Busy post t ((w.placed k a nb n true, files), [k]) := by
  have busy : w.Busy ((w.placed k a nb n true, files), [k]) := .alone header
  have stores (data : List UInt8) (sub : List StoreOp) (inside : sub <+: copyBytes (a + 40) data) :
      w.Busy ((w.placed k a nb n true, files.store k sub), [k]) :=
    .stores header ((storesFrom_copyBytes _ _).mono (by omega)) inside
  cases c with
  | write _ data _ | writeRaw _ _ data =>
    refine Prog.Leads.bind
      (Prog.Leads.bind (Handle.dataAddress_leads busy opened fun u₀ begun => ?_))
    exact Prog.Leads.bind (Handle.storeHere_leads (stores _) fun u later v after =>
      rest v (begun.trans (later.trans after)))
  | mark _ _ =>
    refine Prog.Leads.bind fun u later => ?_
    have plain := rest u later
    simp only [data, copyBytes, JournalFiles.store_nil] at plain
    exact plain
  | request t ty size fill =>
    refine Prog.Leads.bind
      (Prog.Leads.bind (Handle.dataAddress_leads busy opened fun u₀ begun => ?_))
    refine .onFst busy Handle.currentFrameUid_placed
      (.onFst busy Handle.currentPage_placed (.lift busy (get_apply _) ?_))
    exact Prog.Leads.bind (Handle.storeHere_leads (stores _) fun u later v after =>
      rest v (begun.trans (later.trans after)))

theorem closing_leads (w : Handle) (c : SharedCall) {ids : Type} {f : Nat → ThreadM ids}
    {post : ids → Int → SharedWriter → Prop}
    (busy : w.Busy ((w.placed k a nb c.size true, files), [k]))
    (rest : (f c.size).Leads w.Busy post t ((w.placed k a nb c.size true, files), [k])) :
    (c.closing >>= f).Leads w.Busy post t ((w.placed k a nb c.size true, files), [k]) := by
  cases c with
  | write _ data _ => exact Prog.Leads.bind fun u later => rest.later later
  | writeRaw _ _ data => exact Prog.Leads.bind fun u later => rest.later later
  | mark _ _ => exact Prog.Leads.bind fun u later => rest.later later
  | request t ty size fill =>
    exact Prog.Leads.bind (.lift busy (get_apply _) fun u later => rest.later later)

/-- From the open frame to the end of a call. -/
theorem finish_leads (w : Handle) (c : SharedCall) {post : List UInt64 → Int → SharedWriter → Prop}
    (header : PageUnit.Header (findPageSize w.location) (files.bytes k))
    (type : c.msgType ≠ pageEndTag)
    (first : 24 ≤ a) (fits : a + 40 + c.size + 40 < findPageSize w.location)
    (rest :
      ∀ g u, t ≤ g → g ≤ u →
      post (c.ids (w.uidAt k nb)) u ((w.placed k (a + 40 + c.size) (nb + 1) 0 false,
      files.store k ((c.draft w (files.bytes k) k a nb (now g)).stores a)), [k])) :
    (do
      let ids ← c.payload a
      let length ← c.closing
      let genTime ← Prog.reading now
      Threads.closeFrame length genTime
      return ids : ThreadM (List UInt64)).Leads w.Busy post t ((w.placed k a nb c.size true,
        files.store k (openStores a c.triggerTime c.msgType w.location.uid w.destId)), [k]) := by
  let opens := openStores a c.triggerTime c.msgType w.location.uid w.destId
  let data := c.data (w.uidAt k nb) ((files.bytes k).execAll opens) (a + 40)
  have length : data.length = c.size := c.data_length _ _ _
  let d (g : Int64) : Draft := w.draft none c.triggerTime c.msgType data g
  have fills (g : Int64) : (d g).fillStores a = opens ++ copyBytes (a + 40) data := by
    simp only [Draft.fillStores, d, Handle.draft, retargetStores, List.append_nil]
    rfl
  have stores (g : Int64) : (d g).stores a =
      (opens ++ copyBytes (a + 40) data) ++
        closeStores a (a + 40 + c.size) (UInt32.ofNat c.size) g := by
    rw [← fills g, ← length]
    rfl
  have behind : StoresFrom 16 opens := (storesFrom_openStores a).mono (by omega)
  have header₁ : PageUnit.Header (findPageSize w.location) ((files.store k opens).bytes k) := by
    rw [JournalFiles.store_bytes_same]
    exact Handle.header_execAll header behind
  have opened : FrameUnit.headerLength ((files.store k opens).bytes k) a = 40 := by
    rw [JournalFiles.store_bytes_same]
    exact (openStores_header _ _ _ _ _ _).1
  refine payload_leads w c header₁ opened first fun u later => ?_
  rw [JournalFiles.store_bytes_same]
  change Prog.Leads w.Busy _ post u
    ((_, (files.store k opens).store k (copyBytes (a + 40) data)), [k])
  rw [← JournalFiles.store_append]
  have filled := (d 0).fill (files.bytes k) a
  have header₂ := (d 0).fillStores_header header first
  rw [fills, ← JournalFiles.store_bytes_same files] at filled header₂
  have busy :
      w.Busy ((w.placed k a nb c.size true, files.store k (opens ++ copyBytes (a + 40) data)),
      [k]) :=
    .alone header₂
  refine closing_leads w c busy (.reading busy fun g read => Prog.Leads.bind ?_)
  refine Handle.closeFrame_leads header₂ filled.header fits busy (Prog.Leads.bind ?_)
  have closing : StoresFrom 16 (closeStores a (a + 40 + c.size) (UInt32.ofNat c.size) (now g)) :=
    storesFrom_closeStores (by omega) first
  refine Handle.storeHere_leads (fun sub inside => .stores header₂ closing inside) fun v after => ?_
  have passed :=
    w.next_closed nb 0 true (now g) filled.header (filled.msgType.trans_ne type) first fits
  refine Handle.passOn_leads passed
    (fun a nb n => .stores header₂ closing (List.prefix_refl _)) fun v' last => ?_
  rw [← JournalFiles.store_append, ← stores]
  exact fun u' end' => rest g u' (later.trans read) (after.trans (last.trans end'))

/-- A call under the lock comes to what one thread alone does with some readings of the clock. -/
theorem body_leads (w : Handle) (c : SharedCall) {post : List UInt64 → Int → SharedWriter → Prop}
    (layout : Layout w.location files log) (adm : c.Admissible w.location)
    (rest : ∀ pe g u, t ≤ pe → pe ≤ g → g ≤ u → ∀ ids s k,
      (c.task (now pe) (now g)).run (w.atEnd log, files) = .ok ids s → s.1.mapped = [k] →
        post ids u (s, [k])) :
    (c.body now).Leads w.Busy post t
      ((w.placed log.lastPageId (24 + span log.current) log.current.length 0 true, files),
        [log.lastPageId]) := by
  have short := adm.short
  have header := layout.current.header
  refine Prog.Leads.bind
    (Handle.changePage_leads layout c.triggerTime short (.alone header) (fun fits v read => ?_)
    (fun full v sub inside => .sealing layout v inside) fun full v u read later => ?_)
  · refine Prog.Leads.bind (Handle.openHeader_leads c.triggerTime c.msgType short
      (fun n' sub inside => .stores header ((storesFrom_openStores _).mono (by omega)) inside)
        fun u₁ opened => ?_)
    refine finish_leads w c header adm.type (by omega) fits fun g u read' after => ?_
    exact rest g g u (read.trans (opened.trans read')) (le_refl g) after _ _ _
      (c.task_fits w (now g) (now g) log.current.length header adm.type (by omega) fits) rfl
  · have header' := (w.sealedFiles_layout c.triggerTime (now v) layout).current.header
    rw [Log.lastPageId, List.length_append, List.length_singleton, ← Log.lastPageId] at header'
    have left :
        [log.lastPageId + 1, log.lastPageId].erase log.lastPageId = [log.lastPageId + 1] := by
      rw [List.erase_cons_tail (by simp), List.erase_cons_head]
    rw [left]
    refine Prog.Leads.bind (Handle.openHeader_leads c.triggerTime c.msgType short
      (fun n' sub inside => .stores header' ((storesFrom_openStores _).mono (by omega)) inside)
        fun u₁ opened => ?_)
    refine finish_leads w c header' adm.type (le_refl 24) (by omega) fun g u' read' after => ?_
    refine rest v g u' read (later.trans (opened.trans read')) after _ _ _ ?_ rfl
    rw [c.task_change w (now v) (now g) layout adm full]
    exact c.task_fits w (now v) (now g) 0 header' adm.type (le_refl 24) (by omega)

/-- The write of the bytes that a call has put together. -/
def op (c : SharedCall) (data : List UInt8) (pe g : Int64) : WriteOp :=
  .writeRaw c.triggerTime c.msgType data pe g

theorem op_admissible {location : JLocation} (c : SharedCall) (adm : c.Admissible location)
    {data : List UInt8}
    (length : data.length = c.size) (pe g : Int64) : (c.op data pe g).Admissible location :=
  ⟨adm.type, by
    change data.length + 104 < _
    rw [length]
    exact adm.short⟩

theorem op_size (c : SharedCall) {data : List UInt8} (length : data.length = c.size) (pe g : Int64)
    (s d : UInt32) :
    ((c.op data pe g).frame s d).size = 40 + c.size := by
  rw [← length]
  rfl

theorem task_append_fits (w : Handle) (c : SharedCall) (pe g : Int64)
    (layout : Layout w.location files log) (adm : c.Admissible w.location)
    (fits : span log.current + (40 + c.size) < pageRoom (findPageSize w.location)) :
    ∃ m address files', (c.task pe g).run (w.atEnd log, files) =
      .ok (c.ids (w.uidOf (log.cursor Frame.size)))
        (w.atEnd ((c.op (c.data (w.uidOf (log.cursor Frame.size)) m address) pe g).append w.location
          w.destId log), files') ∧
      Layout w.location files'
        ((c.op (c.data (w.uidOf (log.cursor Frame.size)) m address) pe g).append w.location
          w.destId log) := by
  have bounds := pageRoom_bounds w.location
  have ran := c.task_fits w pe g log.current.length layout.current.header adm.type
    (Nat.le_add_right 24 (span log.current)) (by omega)
  let m := (files.bytes log.lastPageId).execAll
    (openStores (24 + span log.current) c.triggerTime c.msgType w.location.uid w.destId)
  let op := c.op (c.data (w.uidOf (log.cursor Frame.size)) m (24 + span log.current + 40)) pe g
  have size : (op.frame w.location.uid w.destId).size = 40 + c.size :=
    c.op_size (c.data_length _ _ _) pe g _ _
  have room : Log.roomFor w.location log (op.frame w.location.uid w.destId) := by
    change span log.current + (op.frame w.location.uid w.destId).size < _
    rwa [size]
  have layout' :=
    (WriteOp.run_append_fits w layout (c.op_admissible adm (c.data_length _ _ _) pe g) room).2
  have next : w.atEnd (op.append w.location w.destId log) =
      w.placed log.lastPageId (24 + span log.current + 40 + c.size)
        (log.current.length + 1) 0 false := by
    rw [WriteOp.append, PagedLog.append_of_fits room]
    simp [Handle.atEnd, Log.lastPageId, size, Nat.add_assoc]
  refine ⟨m, 24 + span log.current + 40, _, ?_, layout'⟩
  change _ = EStateM.Result.ok _ (w.atEnd (op.append w.location w.destId log), _)
  rw [next]
  exact ran

/-- A call appends its frame and returns the id of the place it got, when it reads it. -/
theorem task_append (w : Handle) (c : SharedCall) (pe g : Int64)
    (layout : Layout w.location files log) (adm : c.Admissible w.location) {place : PagedLog.Cursor}
    (here :
      (log.cursor Frame.size).place (pageRoom (findPageSize w.location)) (40 + c.size) = place) :
    ∃ m address files', (c.task pe g).run (w.atEnd log, files) = .ok (c.ids (w.uidOf place))
        (w.atEnd ((c.op (c.data (w.uidOf place) m address) pe g).append w.location w.destId log),
          files') ∧
      Layout w.location files'
        ((c.op (c.data (w.uidOf place) m address) pe g).append w.location w.destId log) := by
  have bounds := pageRoom_bounds w.location
  have short := adm.short
  by_cases fits : span log.current + (40 + c.size) < pageRoom (findPageSize w.location)
  · have same : place = log.cursor Frame.size := here.symm.trans (PagedLog.Cursor.place_fits fits)
    rw [same]
    exact c.task_append_fits w pe g layout adm fits
  · have next : place = ⟨log.closed.length + 1, 0, 0⟩ :=
      here.symm.trans (PagedLog.Cursor.place_full fits)
    let log₁ : Log :=
      ⟨log.closed ++ [(log.current, .make c.triggerTime pe w.location.uid w.destId)], []⟩
    have layout₁ : Layout w.location (w.sealedFiles log c.triggerTime pe files) log₁ :=
      w.sealedFiles_layout c.triggerTime pe layout
    have empty : span log₁.current = 0 := rfl
    obtain ⟨m, address, files', ran, layout'⟩ := c.task_append_fits w pe g layout₁ adm (by omega)
    have first : log₁.cursor Frame.size = place := by
      rw [next]
      simp [PagedLog.cursor, log₁]
    have same : (c.op (c.data (w.uidOf place) m address) pe g).append w.location w.destId log₁ =
        (c.op (c.data (w.uidOf place) m address) pe g).append w.location w.destId log := by
      have opened :=
        WriteOp.opened_append
          (c.op_admissible adm (c.data_length (w.uidOf place) m address) pe g) w.destId log
      have full : ¬ Log.roomFor w.location log
          ((c.op (c.data (w.uidOf place) m address) pe g).frame w.location.uid w.destId) := by
        change ¬ span log.current + ((c.op _ pe g).frame w.location.uid w.destId).size < _
        rwa [c.op_size (c.data_length _ _ _)]
      rwa [WriteOp.opened, if_neg full] at opened
    have changed := c.task_change w pe g layout adm (by omega)
    have start : w.atEnd log₁ = w.placed (log.lastPageId + 1) 24 0 0 false := by
      simp [Handle.atEnd, Log.lastPageId, log₁]
    rw [first, same, start, ← changed] at ran
    rw [first, same] at layout'
    exact ⟨m, address, files', ran, layout'⟩

end SharedCall

theorem Task.runAll_snoc {tasks : List Task} {task : Task} {ids more : List UInt64}
    {s t u : Writer × JournalFiles}
    (ran : runAll tasks s = .ok ids t) (last : task.run t = .ok more u) :
    runAll (tasks ++ [task]) s = .ok (ids ++ more) u := by
  induction tasks generalizing ids s with
  | nil =>
    cases ran
    rw [List.nil_append, runAll, bind_ok last]
    simp [runAll]
  | cons first tasks ih =>
    rw [runAll] at ran
    obtain ⟨here, s', ran₁, rest⟩ := of_bind_ok ran
    obtain ⟨later, t', ran₂, done⟩ := of_bind_ok rest
    cases done
    rw [List.cons_append, runAll, bind_ok ran₁, bind_ok (ih ran₂)]
    simp

namespace Log

/-- The gen times of the journal in write order, page ends included. -/
def genTimes (log : Log) : List Int64 := log.stored.flatten.map Frame.genTime

theorem genTimes_fits {location : JLocation} {destId : UInt32} {log : Log} {op : WriteOp}
    (fits : log.roomFor location (op.frame location.uid destId)) :
    (op.append location destId log).genTimes =
      log.genTimes ++ [(op.frame location.uid destId).genTime] := by
  rw [WriteOp.append, PagedLog.append_of_fits fits]
  simp [genTimes, stored]

theorem genTimes_full {location : JLocation} {destId : UInt32} {log : Log} {op : WriteOp}
    (full : ¬ log.roomFor location (op.frame location.uid destId)) :
    (op.append location destId log).genTimes =
      log.genTimes ++ [op.pageEndTimes.2, (op.frame location.uid destId).genTime] := by
  rw [WriteOp.append, PagedLog.append_of_not_fits full]
  simp [genTimes, stored, WriteOp.marker, PageEnd.make, Writer.pageEndFrame]

end Log

/-- A finished call: the instants of its two readings of the clock, and its frame. -/
structure Made where
  call : SharedCall
  pageEnd : Int
  genTime : Int
  place : PagedLog.Cursor
  frame : Frame
  ids : List UInt64

namespace Made

def task (now : Int → Int64) (x : Made) : Task := x.call.task (now x.pageEnd) (now x.genTime)

def readings (x : Made) : List Int := [x.pageEnd, x.genTime]

/-- The frame at its place has the bytes of this call alone, and the id is that of the place. -/
structure Own (w : Writer.Handle) (now : Int → Int64) (log : Log) (x : Made) : Prop where
  place : log.entryAt x.place = some x.frame
  ids : x.ids = x.call.ids (w.uidOf x.place)
  frame : ∃ m address, x.frame = (x.call.op (x.call.data (w.uidOf x.place) m address)
    (now x.pageEnd) (now x.genTime)).frame w.location.uid w.destId

theorem Own.append {w : Writer.Handle} {now : Int → Int64} {log : Log} {x : Made}
    (own : x.Own w now log) (op : WriteOp) : x.Own w now (op.append w.location w.destId log) :=
  ⟨PagedLog.entryAt_append own.place _ _, own.ids, own.frame⟩

end Made

/-- The state after calls made one after another: what one thread alone leaves, their frames
in this order, and gen times that are readings of the clock, in the order of the readings. -/
structure SerialWrites (w : Writer.Handle) (now : Int → Int64) (t₀ : Int) (log₀ : Log)
    (files₀ : JournalFiles) (made : List Made) (log : Log) (times : List Int) (t : Int)
    (s : Writer × JournalFiles) : Prop where
  alone :
    Task.runAll (made.map (Made.task now)) (w.atEnd log₀, files₀) = .ok (made.flatMap Made.ids) s
  here : s.1 = w.atEnd log
  layout : Layout w.location s.2 log
  contents : log.contents = log₀.contents ++ made.map Made.frame
  own : ∀ x ∈ made, x.Own w now log
  begun : t₀ ≤ t
  within : ∀ r ∈ made.flatMap Made.readings, t₀ ≤ r ∧ r ≤ t
  ordered : (made.flatMap Made.readings).Pairwise (· ≤ ·)
  drawn : times.Sublist (made.flatMap Made.readings)
  genTimes : log.genTimes = log₀.genTimes ++ times.map now

namespace SerialWrites

variable {w : Writer.Handle} {now : Int → Int64} {t₀ t u : Int} {log₀ log : Log}
    {files₀ files : JournalFiles}
  {made : List Made} {times : List Int} {s : Writer × JournalFiles}

theorem start (w : Writer.Handle) (now : Int → Int64) (t : Int)
    (layout : Layout w.location files log) :
    SerialWrites w now t log files [] log [] t (w.atEnd log, files) where
  alone := rfl
  here := rfl
  layout := layout
  contents := (List.append_nil _).symm
  own := nofun
  begun := le_refl t
  within := nofun
  ordered := .nil
  drawn := .slnil
  genTimes := (List.append_nil _).symm

theorem later (serial : SerialWrites w now t₀ log₀ files₀ made log times t s) (later : t ≤ u) :
    SerialWrites w now t₀ log₀ files₀ made log times u s :=
  { serial with
    begun := serial.begun.trans later
    within := fun r member => ⟨(serial.within r member).1, (serial.within r member).2.trans later⟩ }

/-- One more call, made with readings of the clock from now on. -/
theorem snoc (serial : SerialWrites w now t₀ log₀ files₀ made log times t s) {c : SharedCall}
    (adm : c.Admissible w.location) {pe g : Int} (read : t ≤ pe) (read' : pe ≤ g) (after : g ≤ u)
    {ids : List UInt64} {s' : Writer × JournalFiles}
    (ran : (c.task (now pe) (now g)).run s = .ok ids s') :
    ∃ x log' times', x.call = c ∧ x.ids = ids ∧
      SerialWrites w now t₀ log₀ files₀ (made ++ [x]) log' times' u s' := by
  obtain ⟨writer, files⟩ := s
  obtain rfl : writer = w.atEnd log := serial.here
  obtain ⟨m, address, files', ran', layout'⟩ :=
    c.task_append w (now pe) (now g) serial.layout adm rfl
  let place := (log.cursor Frame.size).place (pageRoom (findPageSize w.location)) (40 + c.size)
  let op := c.op (c.data (w.uidOf place) m address) (now pe) (now g)
  let f := op.frame w.location.uid w.destId
  have size : f.size = 40 + c.size := c.op_size (c.data_length _ _ _) _ _ _ _
  obtain ⟨rfl, rfl⟩ :
      ids = c.ids (w.uidOf place) ∧ s' = (w.atEnd (op.append w.location w.destId log), files') := by
    cases ran.symm.trans ran'
    exact ⟨rfl, rfl⟩
  let x : Made := ⟨c, pe, g, place, f, c.ids (w.uidOf place)⟩
  have own : x.Own w now (op.append w.location w.destId log) := by
    refine ⟨?_, rfl, m, address, rfl⟩
    change PagedLog.entryAt _ ((log.cursor Frame.size).place _ (40 + c.size)) = some f
    rw [← size]
    exact PagedLog.entryAt_appended _ _ _
  have readings : (made ++ [x]).flatMap Made.readings = made.flatMap Made.readings ++ [pe, g] := by
    simp [Made.readings, x]
  have before (r : Int) (member : r ∈ made.flatMap Made.readings) : r ≤ t :=
    (serial.within r member).2
  have begun := serial.begun
  obtain ⟨times', sub, genTimes⟩ :
      ∃ times' : List Int, times'.Sublist (made.flatMap Made.readings ++ [pe, g]) ∧
      (op.append w.location w.destId log).genTimes = log₀.genTimes ++ times'.map now := by
    by_cases fits : Log.roomFor w.location log f
    · refine ⟨times ++ [g], serial.drawn.append (by simp), ?_⟩
      rw [Log.genTimes_fits fits, serial.genTimes, List.append_assoc, List.map_append]
      rfl
    · refine ⟨times ++ [pe, g], serial.drawn.append (List.Sublist.refl _), ?_⟩
      rw [Log.genTimes_full fits, serial.genTimes, List.append_assoc, List.map_append]
      rfl
  refine ⟨x, op.append w.location w.destId log, times', rfl, rfl, ?_⟩
  exact {
    alone := by
      rw [List.map_append, List.flatMap_append]
      simpa [x, Made.task] using Task.runAll_snoc serial.alone ran
    here := rfl
    layout := layout'
    contents := by
      rw [WriteOp.append, PagedLog.contents_append, serial.contents]
      simp [x, f]
    own := by
      intro y member
      rcases List.mem_append.mp member with old | new
      · exact (serial.own y old).append op
      · rw [List.mem_singleton.mp new]
        exact own
    begun := by omega
    within := by
      rw [readings]
      intro r member
      rcases List.mem_append.mp member with old | new
      · have := serial.within r old
        omega
      · simp only [List.mem_cons, List.not_mem_nil, or_false] at new
        omega
    ordered := by
      rw [readings, List.pairwise_append]
      refine ⟨serial.ordered, by simpa using read', fun r member q new => ?_⟩
      have := before r member
      simp only [List.mem_cons, List.not_mem_nil, or_false] at new
      omega
    drawn := by rwa [readings]
    genTimes := genTimes }

/-- Where the clock never goes back, neither do the gen times of the journal. -/
theorem genTimes_sorted (serial : SerialWrites w now t₀ log₀ files₀ made log times t s)
    (steady : ∀ a b, t₀ ≤ a → a ≤ b → b ≤ t → now a ≤ now b)
    (before : (log₀.genTimes ++ [now t₀]).Pairwise (· ≤ ·)) : log.genTimes.Pairwise (· ≤ ·) := by
  obtain ⟨old, _, past⟩ := List.pairwise_append.mp before
  have within (r : Int) (member : r ∈ times) : t₀ ≤ r ∧ r ≤ t :=
    serial.within r (serial.drawn.subset member)
  rw [serial.genTimes, List.pairwise_append, List.pairwise_map]
  refine ⟨old, ?_, fun a earlier b later => ?_⟩
  · refine (serial.ordered.sublist serial.drawn).imp_of_mem fun {a b} left right order => ?_
    exact steady a b (within a left).1 order (within b right).2
  · obtain ⟨r, member, rfl⟩ := List.mem_map.mp later
    have first : a ≤ now t₀ := past a earlier _ (List.mem_singleton_self _)
    have read : now t₀ ≤ now r := steady t₀ r (le_refl t₀) (within r member).1 (within r member).2
    exact Int64.le_trans first read

end SerialWrites

namespace Writer.Handle

/-- What threads share the writer for: the calls it is open to, under its one lock. -/
def calls (w : Handle) (now : Int → Int64) :
    Calls Fault SharedWriter Int SharedCall Nat (List UInt64) where
  allowed := SharedCall.Admissible w.location
  look := SharedCall.look
  check := SharedCall.check
  body := SharedCall.body now
  held := fun s => s.1.1.locked
  take := fun s => (({ s.1.1 with locked := true }, s.1.2), s.2)

/-- The page that a pointer leads to is still mapped. -/
def Mapped (pageId : Nat) (s : SharedWriter) : Prop := pageId ∈ s.2

/-- Calls that returned these results are as if made one after another. -/
def Serialised (w : Handle) (now : Int → Int64) (t₀ : Int) (log₀ : Log) (files₀ : JournalFiles)
    (taken : List SharedCall) (results : List (List UInt64)) (t : Int) (s : SharedWriter) : Prop :=
  s.2 = s.1.1.mapped ∧ ∃ made log times, made.map Made.call = taken ∧ made.map Made.ids = results ∧
    SerialWrites w now t₀ log₀ files₀ made log times t s.1

variable {w : Handle} {files : JournalFiles} {log : Log} {k : Nat}

theorem Serialised.start {now : Int → Int64} {t : Int} (layout : Layout w.location files log) :
    w.Serialised now t log files [] [] t ((w.atEnd log, files), [log.lastPageId]) :=
  ⟨rfl, [], log, [], rfl, rfl, SerialWrites.start w now t layout⟩

theorem check_mapped {c : SharedCall} (adm : c.Admissible w.location) {s : SharedWriter}
    (mapped : k ∈ s.2) (header : PageUnit.Header (findPageSize w.location) (s.1.2.bytes k)) :
      c.check k s = .ok ⟨⟩ s := by
  obtain ⟨_, size⟩ := addressBorder_eq w.location header
  have short := adm.short
  have length := dataLength_toNat w.location c.size (by omega)
  have inside : ¬ findPageSize w.location < sizeofFrameHeader + c.size + sizeofFrameHeader := by
    unfold sizeofFrameHeader
    omega
  rw [SharedCall.check, Threads.assertSize, bind_ok (get_apply _)]
  simp only [mapped, not_true_eq_false, size, length, inside, if_false]
  rfl

theorem check_unmapped {c : SharedCall} {s : SharedWriter} (gone : k ∉ s.2) :
    c.check k s = .error .unmapped s := by
  rw [SharedCall.check, Threads.assertSize, bind_ok (get_apply _)]
  simp only [gone, not_false_eq_true, if_true]
  rfl

theorem calls_spec (w : Handle) (now : Int → Int64) (t₀ : Int) (log₀ : Log)
    (files₀ : JournalFiles) :
    Spec (w.calls now) Mapped w.Busy (w.Serialised now t₀ log₀ files₀) where
  later := by
    rintro taken results t u s ⟨mapped, made, log, times, called, returned, serial⟩ later
    exact ⟨mapped, made, log, times, called, returned, serial.later later⟩
  held := by
    rintro ⟨⟨writer, files⟩, mapped⟩ ⟨⟨k, a, nb, n, rfl⟩, headers⟩
    rfl
  look := by
    rintro c taken results t ⟨⟨writer, files⟩, mapped⟩ adm
      (⟨_, made, log, times, called, returned, serial⟩ | ⟨⟨k, a, nb, n, rfl⟩, headers⟩)
    · obtain rfl : writer = w.atEnd log := serial.here
      exact ⟨_, rfl⟩
    · exact ⟨_, rfl⟩
  check := by
    rintro c k taken results t ⟨⟨writer, files⟩, mapped⟩ adm
      (⟨current, made, log, times, called, returned, serial⟩ | ⟨_, headers⟩) present
    · obtain rfl : writer = w.atEnd log := serial.here
      obtain rfl : mapped = [log.lastPageId] := current
      refine check_mapped adm present ?_
      rw [List.mem_singleton.mp present]
      exact serial.layout.current.header
    · exact check_mapped adm present (headers k present)
  gone := fun left => ⟨_, check_unmapped left⟩
  body := by
    rintro c taken results t ⟨⟨writer, files⟩, mapped⟩ adm ⟨current, made, log, times, called,
      returned, serial⟩
    obtain rfl : writer = w.atEnd log := serial.here
    obtain rfl : mapped = [log.lastPageId] := current
    refine SharedCall.body_leads w c serial.layout adm
      fun pe g u read read' after ids s k ran here => ?_
    obtain ⟨x, log', times', rfl, rfl, serial'⟩ := serial.snoc adm read read' after ran
    exact ⟨here.symm, made ++ [x], log', times', by simp [called], by simp [returned], serial'⟩

end Writer.Handle

/-- What `now_time` gives in a process whose time base is normalised, the clock being at `t`
nanoseconds. -/
def nowTimeAt (unit : TimeUnit) (offset base t : Int) : Int :=
  nowTime unit (baseAt offset base) (clockAt t)

def stampAt (unit : TimeUnit) (offset base t : Int) : Int64 :=
  Int64.ofInt (nowTimeAt unit offset base t)

theorem stampAt_steady (unit : TimeUnit) (offset base : Int) {t₀ t : Int}
    (first : IsInt64 (nowTimeAt unit offset base t₀))
    (last : IsInt64 (nowTimeAt unit offset base t)) {a b : Int}
    (begun : t₀ ≤ a) (order : a ≤ b) (ended : b ≤ t) :
    stampAt unit offset base a ≤ stampAt unit offset base b := by
  have left := nowTime_mono unit offset base begun
  have middle := nowTime_mono unit offset base order
  have right := nowTime_mono unit offset base ended
  have fits : IsInt64 (nowTimeAt unit offset base a) :=
    ⟨first.1.trans left, (middle.trans right).trans_lt last.2⟩
  have fits' : IsInt64 (nowTimeAt unit offset base b) :=
    ⟨first.1.trans (left.trans middle), right.trans_lt last.2⟩
  exact (fits.ofInt_le_iff fits').mpr middle

namespace Writer.Handle

/-- The calls are as if made one after another, and where the times fit and those of the journal
were in order before, they stay so. -/
def InOrder (w : Handle) (unit : TimeUnit) (offset base t₀ : Int) (log₀ : Log)
    (files₀ : JournalFiles)
    (taken : List SharedCall) (results : List (List UInt64)) (t : Int) (s : SharedWriter) : Prop :=
  ∃ made log times, made.map Made.call = taken ∧ made.map Made.ids = results ∧
    SerialWrites w (stampAt unit offset base) t₀ log₀ files₀ made log times t s.1 ∧
    (IsInt64 (nowTimeAt unit offset base t₀) → IsInt64 (nowTimeAt unit offset base t) →
      (log₀.genTimes ++ [stampAt unit offset base t₀]).Pairwise (· ≤ ·) →
        log.genTimes.Pairwise (· ≤ ·))

theorem Serialised.inOrder {w : Handle} {unit : TimeUnit} {offset base t₀ t : Int} {log₀ : Log}
    {files₀ : JournalFiles} {taken : List SharedCall} {results : List (List UInt64)}
    {s : SharedWriter}
    (serialised : w.Serialised (stampAt unit offset base) t₀ log₀ files₀ taken results t s) :
    w.InOrder unit offset base t₀ log₀ files₀ taken results t s := by
  obtain ⟨_, made, log, times, called, returned, serial⟩ := serialised
  refine ⟨made, log, times, called, returned, serial, fun first last before => ?_⟩
  exact serial.genTimes_sorted (fun a b => stampAt_steady unit offset base first last) before

/-- No thread has failed, and either all calls that took the lock are as if made in that order, or
one thread is inside and they will be so when it is done, however the others go on. -/
def InTurn {ι : Type} [DecidableEq ι] (w : Handle) (unit : TimeUnit)
    (offset base t : Int) (log : Log) (files : JournalFiles)
    (m : Machine ι Fault SharedWriter Int SharedCall Nat (List UInt64)) : Prop :=
  (∀ i e, m.threads i ≠ .stopped e) ∧
  ((∀ i p, m.threads i ≠ .inside p) ∧
      w.InOrder unit offset base t log files m.taken m.results m.time m.shared ∨
    ∃ i p, m.threads i = .inside p ∧ (∀ j q, m.threads j = .inside q → j = i) ∧
      p.Leads w.Busy (fun ids u s =>
        w.InOrder unit offset base t log files m.taken (m.results ++ [ids]) u s)
        m.time m.shared)

/-- Threads that share a writer whose journal has this content. -/
def shared (ι : Type) (w : Handle) (log : Log) (files : JournalFiles) (t : Int) :
    Machine ι Fault SharedWriter Int SharedCall Nat (List UInt64) :=
  .start ι ((w.atEnd log, files), [log.lastPageId]) t

section
variable {ι : Type} [DecidableEq ι] {w : Handle} {unit : TimeUnit} {offset base t : Int}
    {files : JournalFiles}
  {log : Log} {m : Machine ι Fault SharedWriter Int SharedCall Nat (List UInt64)}

theorem shared_serial (layout : Layout w.location files log)
    (steady : Steady (w.calls (stampAt unit offset base)) Mapped (w.shared ι log files t) m) :
    Serial (w.calls (stampAt unit offset base)) w.Busy
      (w.Serialised (stampAt unit offset base) t log files) m :=
  steady_serial (w.calls_spec (stampAt unit offset base) t log files) (.start layout) steady

theorem serial_inTurn
    (serial :
      Serial (w.calls (stampAt unit offset base)) w.Busy
        (w.Serialised (stampAt unit offset base) t log files) m) :
    w.InTurn unit offset base t log files m := by
  refine ⟨serial.running, ?_⟩
  rcases serial.shared with ⟨none, quiet⟩ | ⟨i, p, inside, alone, _, leads⟩
  · exact .inl ⟨none, quiet.inOrder⟩
  · exact .inr ⟨i, p, inside, alone, leads.imp fun ids u s _ serialised => serialised.inOrder⟩

/-- However many threads call a writer and however they take turns, as long as no page is unmapped
between the two reads of an assertion that goes on, the calls are as if made in the order in which
they took the lock; the step that finds its page unmapped ends this. -/
theorem calls_serialised_iff {ι : Type} [DecidableEq ι] (w : Handle) (unit : TimeUnit)
    (offset base t : Int) {files : JournalFiles} {log : Log} (layout : Layout w.location files log)
    {m : Machine ι Fault SharedWriter Int SharedCall Nat (List UInt64)}
    (steady : Steady (w.calls (stampAt unit offset base)) Mapped (w.shared ι log files t) m) :
    w.InTurn unit offset base t log files m ∧ ∀ m', Step (w.calls (stampAt unit offset base)) m m' →
      (w.InTurn unit offset base t log files m' ↔ Timely Mapped m m') := by
  have serial := shared_serial layout steady
  have spec := w.calls_spec (stampAt unit offset base) t log files
  refine ⟨serial_inTurn serial, fun m' step => ⟨fun inTurn => ?_, fun timely => ?_⟩⟩
  · by_contra late
    obtain ⟨i, e, stopped⟩ := step.stops spec late
    exact inTurn.1 i e stopped
  · exact serial_inTurn (serial.step spec step timely)

/-- A thread that makes a call while no other is inside. -/
theorem called_alone {start : Machine ι Fault SharedWriter Int SharedCall Nat (List UInt64)}
    {now : Int → Int64}
    (steady : Steady (w.calls now) Mapped start m) (layout : Layout w.location files log)
    {c : SharedCall} (adm : c.Admissible w.location) {i : ι} (idle : m.threads i = .idle)
    (here : m.shared = ((w.atEnd log, files), [log.lastPageId])) :
    ∃ ids data pe g files', data.length = c.size ∧
      Layout w.location files' ((c.op data pe g).append w.location w.destId log) ∧
      Steady (w.calls now) Mapped start ⟨m.threads,
        ((w.atEnd ((c.op data pe g).append w.location w.destId log), files'),
        [((c.op data pe g).append w.location w.destId log).lastPageId]), m.time, m.taken ++ [c],
          m.results ++ [ids]⟩ := by
  let post (_ : List UInt64) (_ : Int) (s : SharedWriter) : Prop :=
    ∃ data pe g files', data.length = c.size ∧
    Layout w.location files' ((c.op data pe g).append w.location w.destId log) ∧
    s = ((w.atEnd ((c.op data pe g).append w.location w.destId log), files'),
      [((c.op data pe g).append w.location w.destId log).lastPageId])
  have leads : ((w.calls now).body c).Leads w.Busy post m.time ((w.calls now).take m.shared) := by
    rw [here]
    refine SharedCall.body_leads w c layout adm fun pe g u _ _ _ ids s k ran mapped => ?_
    obtain ⟨_, address, files', ran', layout'⟩ := c.task_append w (now pe) (now g) layout adm rfl
    cases ran.symm.trans ran'
    exact ⟨_, _, _, files', c.data_length _ _ _, layout', by rw [← mapped]; rfl⟩
  have looked : (w.calls now).look c m.shared = .ok log.lastPageId m.shared := by
    rw [here]
    rfl
  have mapped : log.lastPageId ∈ m.shared.2 := by
    rw [here]
    exact List.mem_singleton_self _
  have checked : (w.calls now).check c log.lastPageId m.shared = .ok ⟨⟩ m.shared := by
    refine check_mapped adm mapped ?_
    rw [here]
    exact layout.current.header
  have free : (w.calls now).held m.shared = false := by
    rw [here]
    rfl
  obtain ⟨ids, s', ⟨data, pe, g, files', length, layout', rfl⟩, steady'⟩ :=
    steady.called idle adm looked mapped checked free leads
  exact ⟨ids, data, pe, g, files', length, layout', steady'⟩

/-- Two threads make the same call, one after the other. -/
theorem two_calls (w : Handle) (now : Int → Int64) (t : Int) (layout : Layout w.location files log)
    {c : SharedCall} (adm : c.Admissible w.location) :
    ∃ m, m.taken = [c, c] ∧ m.results.length = 2 ∧
      Steady (w.calls now) Mapped (w.shared Bool log files t) m := by
  obtain ⟨ids, _, _, _, _, _, layout₁, first⟩ := called_alone .start layout adm (i := false)
    (m := w.shared Bool log files t) rfl rfl
  obtain ⟨ids', _, _, _, _, _, _, second⟩ := called_alone first layout₁ adm (i := true) rfl rfl
  exact ⟨_, rfl, rfl, second⟩

/-- A thread that saw a page which is not mapped any more fails. -/
theorem stops_unmapped (layout : Layout w.location files log)
    (steady : Steady (w.calls (stampAt unit offset base)) Mapped (w.shared ι log files t) m) {i : ι}
    {c : SharedCall} {k : Nat} (looked : m.threads i = .looked c k) (gone : k ∉ m.shared.2) :
    ∃ m', Interleaving.Reachable (w.calls (stampAt unit offset base)) (w.shared ι log files t) m' ∧
      m'.threads i = .stopped .unmapped ∧ m'.taken = m.taken ∧ m'.results = m.results := by
  have reached :=
    steady.reachable (w.calls_spec (stampAt unit offset base) t log files) (.start layout)
  exact ⟨_, .step reached (shared_serial layout steady).running
    (.refuse looked (check_unmapped gone)), Function.update_self _ _ _, rfl, rfl⟩

/-- The second of two threads reads which page is the current one; the first one changes the page
in its second call, and then the second thread reads the size of a page that is not mapped any
more. -/
theorem reads_unmapped (w : Handle) (unit : TimeUnit) (offset base t : Int)
    (layout : Layout w.location files log) {c : SharedCall} (adm : c.Admissible w.location)
    (full : ∀ data pe g, data.length = c.size →
      ¬ 24 + span ((c.op data pe g).append w.location w.destId log).current + 40 + c.size + 40 <
        findPageSize w.location) :
    ∃ m, Interleaving.Reachable (w.calls (stampAt unit offset base)) (w.shared Bool log files t) m ∧
      m.threads true = .stopped .unmapped ∧ m.taken = [c, c] ∧ m.results.length = 1 := by
  let now := stampAt unit offset base
  obtain ⟨ids, data, pe, g, files₁, length, layout₁, first⟩ :=
    called_alone .start layout adm (i := false)
    (m := w.shared Bool log files t) rfl rfl
  let log₁ := (c.op data pe g).append w.location w.destId log
  let quiet : Machine Bool Fault SharedWriter Int SharedCall Nat (List UInt64) :=
    ⟨fun _ => .idle, ((w.atEnd log₁, files₁), [log₁.lastPageId]), t, [c], [ids]⟩
  let looking :=
    { quiet with threads := Function.update quiet.threads true (.looked c log₁.lastPageId) }
  have looked : Steady (w.calls now) Mapped (w.shared Bool log files t) looking :=
    .step first (.look rfl adm rfl)
      (.of_other true (fun j other => Function.update_of_ne other _ _) nofun)
  -- the first thread goes on into its second call and changes the page
  have checked : (w.calls now).check c log₁.lastPageId looking.shared = .ok ⟨⟩ looking.shared :=
    check_mapped adm (List.mem_singleton_self _) layout₁.current.header
  have inside := looked.entered (i := false) rfl adm rfl (List.mem_singleton_self _) checked rfl
  have changes : (Threads.changePage now c.triggerTime (UInt32.ofNat c.size)).Leads w.Busy
      (fun _ _ s => s.2 = [log₁.lastPageId + 1]) t
      ((w.placed log₁.lastPageId (24 + span log₁.current) log₁.current.length 0 true, files₁),
        [log₁.lastPageId]) := by
    refine changePage_leads layout₁ c.triggerTime adm.short (.alone layout₁.current.header)
      (fun fits => absurd fits (full data pe g length))
        (fun _ v sub inside => .sealing layout₁ v inside)
      fun _ v u _ _ => ?_
    rw [List.erase_cons_tail (by simp), List.erase_cons_head]
  obtain ⟨_, s, gone, later⟩ := Steady.runs (m := { looking with taken := [c, c] }) changes inside
  obtain ⟨m', reached, stopped, taken, results⟩ := stops_unmapped layout later (i := true)
    (resume_other _ _ _ (by decide)) (by
      rw [resume_shared, gone, List.mem_singleton]
      omega)
  exact ⟨m', reached, stopped, taken, by rw [results]; rfl⟩

end

/-- Two frames of this length do not go on one page. -/
def bulkWrite : SharedCall := .write 3 (List.replicate 9000000 0) 101

theorem bulkWrite_size : bulkWrite.size = 9000000 := List.length_replicate

theorem bulkWrite_admissible : bulkWrite.Admissible simAccount :=
  ⟨by decide, by rw [bulkWrite_size]; simp [findPageSize, simAccount, JLocation.make, mebibyte]⟩

/-- Two threads, one call each, the second one behind a page change. -/
theorem calls_serialised_iff_two :
    ∃ m : Machine Bool Fault SharedWriter Int SharedCall Nat (List UInt64),
      m.taken = [bulkWrite, bulkWrite] ∧ m.results.length = 2 ∧
      (handleAt simAccount 7 false 1).InTurn .milli 0 0 5 PagedLog.empty
        (JournalFiles.fresh.addPage 1 (findPageSize simAccount)) m ∧
      ∀ m', Step ((handleAt simAccount 7 false 1).calls (stampAt .milli 0 0)) m m' →
        ((handleAt simAccount 7 false 1).InTurn .milli 0 0 5 PagedLog.empty
          (JournalFiles.fresh.addPage 1 (findPageSize simAccount)) m' ↔ Timely Mapped m m') := by
  have layout := Layout.start simAccount
  obtain ⟨m, taken, results, steady⟩ :=
    two_calls (handleAt simAccount 7 false 1) (stampAt .milli 0 0) 5 layout
    bulkWrite_admissible
  exact ⟨m, taken, results,
    (handleAt simAccount 7 false 1).calls_serialised_iff .milli 0 0 5 layout steady⟩

theorem unmapped_read :
    ∃ m : Machine Bool Fault SharedWriter Int SharedCall Nat (List UInt64),
      Interleaving.Reachable ((handleAt simAccount 7 false 1).calls (stampAt .milli 0 0))
        ((handleAt simAccount 7 false 1).shared Bool PagedLog.empty
          (JournalFiles.fresh.addPage 1 (findPageSize simAccount)) 5) m ∧
      m.taken = [bulkWrite, bulkWrite] ∧ m.results.length = 1 ∧
        m.threads true = .stopped .unmapped ∧
      ¬ (handleAt simAccount 7 false 1).InTurn .milli 0 0 5 PagedLog.empty
        (JournalFiles.fresh.addPage 1 (findPageSize simAccount)) m := by
  have layout := Layout.start simAccount
  have full (data : List UInt8) (pe g : Int64) (length : data.length = bulkWrite.size) :
      ¬ 24 + span ((bulkWrite.op data pe g).append simAccount 7 PagedLog.empty).current + 40 +
        bulkWrite.size + 40 <
        findPageSize simAccount := by
    have size := bulkWrite.op_size length pe g simAccount.uid 7
    have page : findPageSize simAccount = 16777216 := by
      simp [findPageSize, simAccount, JLocation.make, mebibyte]
    have fits :
        Log.roomFor simAccount PagedLog.empty
          ((bulkWrite.op data pe g).frame simAccount.uid 7) := by
      change 0 + ((bulkWrite.op data pe g).frame simAccount.uid 7).size < _
      rw [size, bulkWrite_size, page]
      decide
    have used :
        span ((bulkWrite.op data pe g).append simAccount 7 PagedLog.empty).current = 9000040 := by
      rw [WriteOp.append, PagedLog.append_of_fits fits]
      change span [(bulkWrite.op data pe g).frame simAccount.uid 7] = _
      rw [span_cons, span_nil, size, bulkWrite_size]
    rw [used, bulkWrite_size, page]
    decide
  obtain ⟨m, reached, stopped, taken, results⟩ :=
    reads_unmapped (handleAt simAccount 7 false 1) .milli 0 0 5 layout
    bulkWrite_admissible full
  exact ⟨m, reached, taken, results, stopped, fun inTurn => inTurn.1 true _ stopped⟩

end Writer.Handle
end BTrader
