import BTrader.Journal.PageChange
import BTrader.Broker.BrokerSim

/-! The identifiers of frame positions, along every run of a writer and for the orders
written through `open_data`, which bear the id of their own frame. -/
namespace BTrader
open ByteMemory Infra Procedure

namespace Writer

/-- The page id and the frame number as they go into an identifier. -/
def positionBits (pageId pageFrameNb : Nat) : UInt32 :=
  ((UInt32.ofNat pageId <<< 16) &&& pageIdTranc) ||| (UInt32.ofNat pageFrameNb &&& frameIdTranc)

theorem positionBits_toNat (p n : Nat) :
    (positionBits p n).toNat = p % 65536 * 65536 + n % 65536 := by
  have low : (UInt32.ofNat n &&& frameIdTranc).toNat = n % 65536 := by
    rw [UInt32.toNat_and, UInt32.toNat_ofNat']
    change n % 2 ^ 32 &&& 2 ^ 16 - 1 = n % 65536
    rw [Nat.and_two_pow_sub_one_eq_mod]
    omega
  have high : ((UInt32.ofNat p <<< 16) &&& pageIdTranc).toNat = (p % 65536) <<< 16 := by
    have shifted : (UInt32.ofNat p <<< 16).toNat = (p % 65536) <<< 16 := by
      rw [UInt32.toNat_shiftLeft, UInt32.toNat_ofNat']
      simp only [Nat.shiftLeft_eq]
      change p % 2 ^ 32 * 2 ^ 16 % 2 ^ 32 = p % 65536 * 2 ^ 16
      omega
    rw [UInt32.toNat_and, shifted]
    change (p % 65536) <<< 16 &&& (2 ^ 16 - 1) <<< 16 = (p % 65536) <<< 16
    rw [← Nat.shiftLeft_and_distrib, Nat.and_two_pow_sub_one_eq_mod, Nat.mod_mod]
  rw [positionBits, UInt32.toNat_or, high, low,
    ← Nat.shiftLeft_add_eq_or_of_lt (by omega : n % 65536 < 2 ^ 16), Nat.shiftLeft_eq]

/-- An identifier is the two uids of the journal above the position, xored with the start. -/
theorem frameUid_toNat (location : JLocation) (destId start : UInt32) (p n : Nat) :
    (frameUid (idBase location destId) start p n).toNat =
      (location.uid ^^^ destId).toNat * 2 ^ 32 + (positionBits p n ^^^ start).toNat := by
  have high : (idBase location destId).toNat = (location.uid ^^^ destId).toNat <<< 32 := by
    have bound := (location.uid ^^^ destId).toNat_lt
    rw [idBase, UInt64.toNat_shiftLeft, UInt32.toNat_toUInt64]
    simp only [Nat.shiftLeft_eq]
    change (location.uid ^^^ destId).toNat * 2 ^ 32 % 2 ^ 64 = _
    omega
  have low : (positionBits p n ^^^ start).toUInt64.toNat < 2 ^ 32 := by
    rw [UInt32.toNat_toUInt64]
    exact UInt32.toNat_lt _
  change ((idBase location destId) ||| (positionBits p n ^^^ start).toUInt64).toNat = _
  rw [UInt64.toNat_or, high, ← Nat.shiftLeft_add_eq_or_of_lt low, Nat.shiftLeft_eq,
    UInt32.toNat_toUInt64]

/-- Two positions get one identifier when both numbers agree in their last 16 bits. -/
theorem frameUid_eq_iff (location : JLocation) (destId start : UInt32) (p n p' n' : Nat) :
    frameUid (idBase location destId) start p n = frameUid (idBase location destId) start p' n' ↔
      p % 65536 = p' % 65536 ∧ n % 65536 = n' % 65536 := by
  rw [← UInt64.toNat_inj, frameUid_toNat, frameUid_toNat, Nat.add_left_cancel_iff, UInt32.toNat_inj,
    UInt32.xor_left_inj, ← UInt32.toNat_inj, positionBits_toNat, positionBits_toNat]
  omega

section Runs

/-- What the identifiers of one writer are built from. -/
def Issues (base : UInt64) (start : UInt32) (s : Writer × JournalFiles) : Prop :=
  s.1.frameIdBase = base ∧ s.1.writerStartTime32int = start

variable {base : UInt64} {start : UInt32}

theorem issues_onJournal (x : JournalM α) : Keeps (Issues base start) (onJournal x) :=
  keeps_zoom (Q := fun _ => True) (fun _ _ => trivial) (fun _ _ => trivial)
    fun _ _ issues _ => issues

theorem issues_closePage (t pe : Int64) : Keeps (Issues base start) (closePage t pe) :=
  keeps_bind keeps_get fun _ => keeps_bind (issues_onJournal _) fun _ =>
    keeps_bind (issues_onJournal _) fun _ => keeps_bind keeps_get fun _ =>
      keeps_modify fun _ issues => issues

theorem issues_lock : Keeps (Issues base start) lock := by
  rintro ⟨w, files⟩ issues
  cases locked : w.locked <;> simp only [after, lock, bind_apply, get_apply, locked, branch_apply,
    if_true, if_false, Bool.false_eq_true, throw_apply, set_apply] <;> exact issues

theorem issues_setSizeToWrite (size : Nat) : Keeps (Issues base start) (setSizeToWrite size) :=
  keeps_modify fun _ issues => issues

theorem issues_unlock : Keeps (Issues base start) unlock := keeps_modify fun _ issues => issues

theorem issues_openFrame (t : Int64) (ty : Int32) (dataLength : UInt32) (pe : Int64) :
    Keeps (Issues base start) (openFrame t ty dataLength pe) := by
  have opens (w : Writer × JournalFiles) : Keeps (Issues base start) (do
      onJournal (Journal.store
        (openStores w.1.journal.frame t ty w.1.journal.location.uid w.1.journal.destId))
      setSizeToWrite dataLength.toNat
      return w.1.journal.frame : WriterM Nat) :=
    keeps_bind (issues_onJournal _) fun _ => keeps_bind (issues_setSizeToWrite _) fun _ =>
      keeps_pure _
  refine keeps_bind keeps_get fun s => keeps_bind (issues_onJournal _) fun page => ?_
  refine keeps_branch _ (keeps_bind (keeps_throw _) fun _ => ?_) ?_
  all_goals
    refine keeps_bind issues_lock fun _ =>
      keeps_branch _ (keeps_bind (issues_closePage t pe) fun _ => ?_) ?_
  all_goals exact keeps_bind keeps_get opens

theorem issues_closeFrame (dataLength : Nat) (g : Int64) :
    Keeps (Issues base start) (closeFrame dataLength g) := by
  have closes (ops : List StoreOp) : Keeps (Issues base start) (do
      onJournal (Journal.store ops)
      setSizeToWrite 0
      onJournal Journal.next
      unlock : WriterM Unit) :=
    keeps_bind (issues_onJournal _) fun _ => keeps_bind (issues_setSizeToWrite _) fun _ =>
      keeps_bind (issues_onJournal _) fun _ => issues_unlock
  refine keeps_bind keeps_get fun s => keeps_branch _ (keeps_bind (keeps_throw _) fun _ => ?_) ?_
  all_goals
    refine keeps_bind (issues_onJournal _) fun page =>
      keeps_branch _ (keeps_bind (keeps_throw _) fun _ => ?_) ?_
  all_goals exact closes _

theorem issues_copyHere (source : Memory) (sourceFrame : Nat) :
    Keeps (Issues base start) (copyHere source sourceFrame) :=
  keeps_bind keeps_get fun _ => keeps_bind (issues_onJournal _) fun _ =>
    keeps_bind (issues_onJournal _) fun _ => keeps_bind keeps_get fun _ =>
      keeps_bind (issues_onJournal _) fun _ => issues_onJournal _

theorem issues_copyFrame (source : Memory) (sourceFrame : Nat) (t pe : Int64) :
    Keeps (Issues base start) (copyFrame source sourceFrame t pe) := by
  refine keeps_bind keeps_get fun s => keeps_bind (issues_onJournal _) fun page =>
    keeps_branch _ (keeps_bind (keeps_throw _) fun _ => ?_) ?_
  all_goals refine keeps_branch _ (keeps_bind (issues_closePage t pe) fun _ => ?_) ?_
  all_goals exact issues_copyHere source sourceFrame

theorem issues_call (c : Call) : Keeps (Issues base start) c.run := by
  cases c with
  | openFrame t ty dataLength pe =>
    exact keeps_bind (issues_openFrame t ty dataLength pe) fun _ => keeps_pure _
  | fill ops behind => exact issues_onJournal _
  | closeFrame dataLength g => exact issues_closeFrame dataLength g
  | copyFrame source sourceFrame t pe => exact issues_copyFrame source sourceFrame t pe

/-- A step of a run: a call on the writer, returning or throwing, or any change of the files
by other processes. -/
inductive RunStep where
  | call (c : Call)
  | files (files' : JournalFiles)

def RunStep.apply (step : RunStep) (s : Writer × JournalFiles) : Writer × JournalFiles :=
  match step with
  | call c => after c.run s
  | files files' => (s.1, files')

/-- The states of a run, from its first one on. -/
def visits (s : Writer × JournalFiles) : List RunStep → List (Writer × JournalFiles)
  | [] => [s]
  | step :: steps => s :: visits (step.apply s) steps

/-- The frame position the writer is at. -/
def position (s : Writer × JournalFiles) : Option (Nat × Nat) :=
  s.1.journal.page.map fun page => (page.pageId, s.1.journal.pageFrameNb)

/-- What `currentFrameUid` returns in that state. -/
def uidOf (s : Writer × JournalFiles) : Option UInt64 :=
  match currentFrameUid s with
  | .ok id _ => some id
  | .error _ _ => none

theorem uidOf_eq (issues : Issues base start s) :
    uidOf s = (position s).map fun p => frameUid base start p.1 p.2 := by
  obtain ⟨w, files⟩ := s
  obtain ⟨rfl, rfl⟩ := issues
  cases page : w.journal.page with
  | none =>
    have ran : Journal.currentPage (w.journal, files) = .error .nullPointer (w.journal, files) := by
      simp [Journal.currentPage, page]
    simp only [uidOf, currentFrameUid, bind_apply, get_apply, onJournal_error ran, position, page,
      Option.map_none]
  | some q =>
    simp only [uidOf, currentFrameUid, bind_apply, get_apply, currentPage_eq page,
      pure_apply, position, page, Option.map_some]

theorem visits_issues (issues : Issues base start s) (steps : List RunStep) :
    ∀ t ∈ visits s steps, Issues base start t := by
  induction steps generalizing s with
  | nil => simpa [visits] using issues
  | cons step steps ih =>
    have next : Issues base start (step.apply s) := by
      cases step with
      | call c => exact issues_call c s issues
      | files files' => exact issues
    intro t member
    rcases List.mem_cons.mp member with rfl | later
    · exact issues
    · exact ih next t later

/-- Positions that agree in both numbers modulo `2 ^ 16`. -/
def SamePosition16 (p q : Nat × Nat) : Prop := p.1 % 65536 = q.1 % 65536 ∧ p.2 % 65536 = q.2 % 65536

/-- Different frame positions of a run get different identifiers. -/
def UniqueUids (states : List (Writer × JournalFiles)) : Prop :=
  ∀ s ∈ states, ∀ t ∈ states, ∀ p q, position s = some p → position t = some q → p ≠ q →
    uidOf s ≠ uidOf t

theorem uniqueUids_iff {location : JLocation} {destId : UInt32}
    (issues : Issues (idBase location destId) start s) (steps : List RunStep) :
    UniqueUids (visits s steps) ↔ ∀ a ∈ visits s steps, ∀ b ∈ visits s steps, ∀ p q,
      position a = some p → position b = some q → p ≠ q → ¬ SamePosition16 p q := by
  have different {a b : Writer × JournalFiles} (left : a ∈ visits s steps)
      (right : b ∈ visits s steps)
      {p q : Nat × Nat} (at' : position a = some p) (at'' : position b = some q) :
      uidOf a = uidOf b ↔ SamePosition16 p q := by
    rw [uidOf_eq (visits_issues issues steps a left), uidOf_eq (visits_issues issues steps b right),
      at', at'', Option.map_some, Option.map_some, Option.some.injEq, frameUid_eq_iff]
    rfl
  constructor
  · intro unique a left b right p q at' at'' other same
    exact unique a left b right p q at' at'' other ((different left right at' at'').mpr same)
  · intro apart a left b right p q at' at'' other same
    exact apart a left b right p q at' at'' other ((different left right at' at'').mp same)

end Runs

end Writer

/-- An object written through `open_data`. `fill` is what the caller assigns, given the id
of the frame and the object that was in its place. -/
structure Request where
  triggerTime : Int64
  msgType : Int32
  size : Nat
  fill : UInt64 → Object size → Object size
  pageEnd : Int64
  genTime : Int64

namespace Request

def issue (r : Request) : WriterM UInt64 := do
  let address ← Writer.openData r.triggerTime r.msgType r.size r.pageEnd
  let id ← Writer.currentFrameUid
  let page ← Writer.onJournal Journal.currentPage
  let old := ((← get).2.bytes page.pageId).object address r.size
  Writer.onJournal (Journal.store (copyBytes address (r.fill id old).bytes))
  Writer.closeData r.genTime
  return id

/-- The bytes of the object that is written, in place of those at the address. -/
def filled (r : Request) (id : UInt64) (m : Memory) (address : Nat) : List UInt8 :=
  (r.fill id (m.object address r.size)).bytes

theorem filled_length (r : Request) (id : UInt64) (m : Memory) (address : Nat) :
    (r.filled id m address).length = r.size := (r.fill id (m.object address r.size)).length

structure Admissible (location : JLocation) (r : Request) : Prop where
  type : r.msgType ≠ pageEndTag
  short : r.size + 104 < findPageSize location

/-- The write of the finished object. -/
def op (r : Request) (data : List UInt8) : WriteOp :=
  .writeRaw r.triggerTime r.msgType data r.pageEnd r.genTime

theorem op_size (r : Request) {data : List UInt8} (length : data.length = r.size) (s d : UInt32) :
    ((r.op data).frame s d).size = 40 + r.size := by
  rw [← length]
  rfl

theorem Admissible.op {r : Request} (adm : r.Admissible location) (length : data.length = r.size) :
    (r.op data).Admissible location :=
  ⟨adm.type, by
    change data.length + 104 < _
    rw [length]
    exact adm.short⟩

end Request

namespace Writer.Handle

/-- The identifier this writer gives to a position. -/
def uidAt (w : Handle) (pageId pageFrameNb : Nat) : UInt64 :=
  frameUid (idBase w.location w.destId) w.start pageId pageFrameNb

variable {w : Handle} {files files' : JournalFiles} {log : Log} {k a nb n : Nat} {locked : Bool}

@[simp] theorem currentFrameUid_placed :
    currentFrameUid (w.placed k a nb n locked, files) =
      .ok (w.uidAt k nb) (w.placed k a nb n locked, files) := rfl

/-- A request that fits at the cursor fills in what was in its place. -/
theorem issue_filled (w : Handle) (r : Request) (nb n : Nat)
    (header : PageUnit.Header (findPageSize w.location) (files.bytes k))
    (type : r.msgType ≠ pageEndTag) (first : 24 ≤ a)
    (fits : a + 40 + r.size + 40 < findPageSize w.location) :
    r.issue (w.placed k a nb n false, files) =
      .ok (w.uidAt k nb) (w.placed k (a + 40 + r.size) (nb + 1) 0 false,
        files.store k ((w.draft none r.triggerTime r.msgType
          (r.filled (w.uidAt k nb) ((files.bytes k).execAll
            (openStores a r.triggerTime r.msgType w.location.uid w.destId)) (a + 40))
              r.genTime).stores a)) := by
  have opened :=
    w.openFrame_fits r.triggerTime r.msgType r.size r.pageEnd nb n header (by omega) fits
  let files₁ := files.store k (openStores a r.triggerTime r.msgType w.location.uid w.destId)
  have address : FrameUnit.dataAddress (files₁.bytes k) a = a + 40 := by
    rw [FrameUnit.dataAddress, JournalFiles.store_bytes_same, (openStores_header _ _ _ _ _ _).1]
    rfl
  let data := r.filled (w.uidAt k nb) (files₁.bytes k) (a + 40)
  have length : data.length = r.size := r.filled_length _ _ _
  let d := w.draft none r.triggerTime r.msgType data r.genTime
  have fills : d.fillStores a =
      openStores a r.triggerTime r.msgType w.location.uid w.destId ++ copyBytes (a + 40) data := by
    simp only [Draft.fillStores, d, draft, retargetStores, List.append_nil]
  have filled := d.fill (files.bytes k) a
  have header' := d.fillStores_header header first
  rw [← JournalFiles.store_bytes_same files] at filled header'
  have closed := w.closeFrame_fits nb data.length r.genTime header' filled.header
    (filled.msgType.trans_ne type) first (by rwa [length])
  have stores : d.stores a = (openStores a r.triggerTime r.msgType w.location.uid w.destId ++
      copyBytes (a + 40) data) ++
        closeStores a (a + 40 + r.size) (UInt32.ofNat r.size) r.genTime := by
    rw [← fills, ← length]
    rfl
  rw [length, fills, ← JournalFiles.store_append, ← stores] at closed
  rw [← JournalFiles.store_bytes_same]
  change _ = EStateM.Result.ok _ (_, files.store k (d.stores a))
  simp only [Request.issue, openData, bind_apply, opened, currentPage_placed, get_apply, pure_apply,
    currentFrameUid_placed, address, files₁, store_placed, closeData, placed_sizeToWrite,
    ← JournalFiles.store_append]
  rw [show (r.fill _ _).bytes = data from rfl, closed]

theorem issue_fits (w : Handle) (r : Request) (nb n : Nat)
    (header : PageUnit.Header (findPageSize w.location) (files.bytes k))
    (type : r.msgType ≠ pageEndTag) (first : 24 ≤ a)
    (fits : a + 40 + r.size + 40 < findPageSize w.location) :
    ∃ data, data.length = r.size ∧
      r.issue (w.placed k a nb n false, files) =
        .ok (w.uidAt k nb) (w.placed k (a + 40 + r.size) (nb + 1) 0 false,
          files.store k ((w.draft none r.triggerTime r.msgType data r.genTime).stores a)) :=
  ⟨_, r.filled_length _ _ _, w.issue_filled r nb n header type first fits⟩

/-- A request that does not fit is issued as if the page had been changed before. -/
theorem issue_change (w : Handle) (r : Request) (layout : Layout w.location files log)
    (adm : r.Admissible w.location)
    (full : ¬ 24 + span log.current + 40 + r.size + 40 < findPageSize w.location) :
    r.issue (w.atEnd log, files) =
      r.issue (w.atEnd ⟨log.closed ++
        [(log.current, .make r.triggerTime r.pageEnd w.location.uid w.destId)], []⟩,
        w.sealedFiles log r.triggerTime r.pageEnd files) := by
  have layout' := w.sealedFiles_layout r.triggerTime r.pageEnd layout
  have header' := layout'.current.header
  rw [Log.lastPageId, List.length_append, List.length_singleton, ← Log.lastPageId] at header'
  have changed :=
    w.closePage_spec (24 + span log.current) log.current.length 0 r.triggerTime r.pageEnd
    layout true
  have opened :=
    w.openFrame_change r.msgType r.size layout.current.header header' adm.short full changed
  have next :
      w.atEnd ⟨log.closed ++ [(log.current, .make r.triggerTime r.pageEnd w.location.uid w.destId)],
      []⟩ =
      w.placed (log.lastPageId + 1) 24 0 0 false := by simp [atEnd, Log.lastPageId]
  rw [next]
  exact bind_same (bind_same opened _) _

/-- The identifier of a place in this writer's journal. -/
def uidOf (w : Handle) (place : PagedLog.Cursor) : UInt64 := w.uidAt (place.page + 1) place.index

/-- The request on a journal whose current page has room for it. -/
theorem issue_append_fits (w : Handle) (r : Request) (layout : Layout w.location files log)
    (adm : r.Admissible w.location)
    (fits : span log.current + (40 + r.size) < pageRoom (findPageSize w.location)) :
    ∃ data files', data.length = r.size ∧
      r.issue (w.atEnd log, files) = .ok (w.uidOf (log.cursor Frame.size))
        (w.atEnd ((r.op data).append w.location w.destId log), files') ∧
      Layout w.location files' ((r.op data).append w.location w.destId log) := by
  have bounds := pageRoom_bounds w.location
  obtain ⟨data, length, issued⟩ :=
    w.issue_fits r log.current.length 0 layout.current.header adm.type
    (Nat.le_add_right 24 (span log.current)) (by omega)
  have room : Log.roomFor w.location log ((r.op data).frame w.location.uid w.destId) := by
    change span log.current + ((r.op data).frame w.location.uid w.destId).size < _
    rwa [r.op_size length]
  obtain ⟨ran, layout'⟩ := WriteOp.run_append_fits w layout (adm.op length) room
  refine ⟨data, _, length, ?_, layout'⟩
  have next : w.atEnd ((r.op data).append w.location w.destId log) =
      w.placed log.lastPageId (24 + span log.current + 40 + r.size)
        (log.current.length + 1) 0 false := by
    rw [WriteOp.append, PagedLog.append_of_fits room]
    simp [atEnd, Log.lastPageId, r.op_size length, Nat.add_assoc]
  rw [next]
  exact issued

/-- A request appends its frame and returns the identifier of the place it got. -/
theorem issue_append (w : Handle) (r : Request) (layout : Layout w.location files log)
    (adm : r.Admissible w.location) :
    ∃ data files', data.length = r.size ∧
      r.issue (w.atEnd log, files) =
        .ok (w.uidOf ((log.cursor Frame.size).place (pageRoom (findPageSize w.location))
          (40 + r.size)))
          (w.atEnd ((r.op data).append w.location w.destId log), files') ∧
      Layout w.location files' ((r.op data).append w.location w.destId log) := by
  have bounds := pageRoom_bounds w.location
  have short := adm.short
  by_cases fits : span log.current + (40 + r.size) < pageRoom (findPageSize w.location)
  · have here : (log.cursor Frame.size).place (pageRoom (findPageSize w.location)) (40 + r.size) =
        log.cursor Frame.size := PagedLog.Cursor.place_fits fits
    rw [here]
    exact w.issue_append_fits r layout adm fits
  · have next : (log.cursor Frame.size).place (pageRoom (findPageSize w.location)) (40 + r.size) =
        ⟨log.closed.length + 1, 0, 0⟩ := PagedLog.Cursor.place_full fits
    let mark := PageEnd.make r.triggerTime r.pageEnd w.location.uid w.destId
    let log₁ : Log := ⟨log.closed ++ [(log.current, mark)], []⟩
    have layout₁ : Layout w.location (w.sealedFiles log r.triggerTime r.pageEnd files) log₁ :=
      w.sealedFiles_layout r.triggerTime r.pageEnd layout
    have empty : span log₁.current = 0 := rfl
    obtain ⟨data, files', length, issued, layout'⟩ := w.issue_append_fits r layout₁ adm (by omega)
    have same : (r.op data).append w.location w.destId log₁ =
        (r.op data).append w.location w.destId log := by
      have opened := WriteOp.opened_append (adm.op length) w.destId log
      have full : ¬ Log.roomFor w.location log ((r.op data).frame w.location.uid w.destId) := by
        change ¬ span log.current + ((r.op data).frame w.location.uid w.destId).size < _
        rwa [r.op_size length]
      rwa [WriteOp.opened, if_neg full] at opened
    have place : log₁.cursor Frame.size = ⟨log.closed.length + 1, 0, 0⟩ := by
      simp [PagedLog.cursor, log₁]
    rw [place, same] at issued
    rw [same] at layout'
    refine ⟨data, files', length, ?_, layout'⟩
    rw [next, w.issue_change r layout adm (by omega), issued]

end Writer.Handle

/-- One call on a writer: a write, or a request that reads its frame's id. -/
inductive Task where
  | write (op : WriteOp)
  | request (r : Request)

namespace Task

/-- The calls return the identifiers they read. -/
def run : Task → WriterM (List UInt64)
  | write op => do
    op.run
    return []
  | request r => do
    let id ← r.issue
    return [id]

def runAll : List Task → WriterM (List UInt64)
  | [] => pure []
  | task :: tasks => do
    let ids ← task.run
    let more ← runAll tasks
    return ids ++ more

def Admissible (location : JLocation) : Task → Prop
  | write op => op.Admissible location
  | request r => r.Admissible location

/-- The bytes of the journal a call takes. -/
def size : Task → Nat
  | write op => (op.frame 0 0).size
  | request r => 40 + r.size

/-- The places of the frames whose id is read. -/
def issued (room : Nat) : PagedLog.Cursor → List Task → List PagedLog.Cursor
  | _, [] => []
  | c, task :: tasks =>
    let here := c.place room task.size
    let more := issued room (here.pass task.size) tasks
    match task with
    | write _ => more
    | request _ => here :: more

variable {w : Writer.Handle} {files : JournalFiles} {log : Log}

theorem run_append (w : Writer.Handle) (task : Task) (layout : Layout w.location files log)
    (adm : task.Admissible w.location) :
    ∃ files' log', task.run (w.atEnd log, files) =
        .ok ((issued (pageRoom (findPageSize w.location)) (log.cursor Frame.size)
          [task]).map w.uidOf)
          (w.atEnd log', files') ∧ Layout w.location files' log' ∧
      log'.cursor Frame.size = ((log.cursor Frame.size).place (pageRoom (findPageSize w.location))
        task.size).pass task.size := by
  cases task with
  | write op =>
    obtain ⟨files', ran, layout'⟩ := WriteOp.run_append w layout adm
    have size : (op.frame w.location.uid w.destId).size = (op.frame 0 0).size := by
      rw [Frame.size_eq, Frame.size_eq, (op.frame_shape w.location.uid w.destId 0 0).2.1]
    refine ⟨files', _, ?_, layout', ?_⟩
    · rw [run, bind_ok ran]
      rfl
    · rw [WriteOp.append, PagedLog.cursor_append, size]
      rfl
  | request r =>
    obtain ⟨data, files', length, issued, layout'⟩ := w.issue_append r layout adm
    refine ⟨files', _, ?_, layout', ?_⟩
    · rw [run, bind_ok issued]
      rfl
    · rw [WriteOp.append, PagedLog.cursor_append, r.op_size length]
      rfl

/-- A run of calls returns the identifiers of the places of its requests. -/
theorem runAll_issued (w : Writer.Handle) {tasks : List Task} (layout : Layout w.location files log)
    (adm : ∀ task ∈ tasks, task.Admissible w.location) :
    ∃ files' log', runAll tasks (w.atEnd log, files) =
        .ok ((issued (pageRoom (findPageSize w.location)) (log.cursor Frame.size) tasks).map
          w.uidOf)
          (w.atEnd log', files') ∧ Layout w.location files' log' := by
  induction tasks generalizing files log with
  | nil => exact ⟨files, log, rfl, layout⟩
  | cons task tasks ih =>
    obtain ⟨files₁, log₁, ran, layout₁, cursor⟩ :=
      run_append w task layout (adm task List.mem_cons_self)
    obtain ⟨files₂, log₂, more, layout₂⟩ :=
      ih layout₁ fun t later => adm t (List.mem_cons_of_mem _ later)
    refine ⟨files₂, log₂, ?_, layout₂⟩
    rw [runAll, bind_ok ran, bind_ok more, cursor]
    cases task <;> rfl

theorem uidOf_eq_iff (w : Writer.Handle) (c d : PagedLog.Cursor) :
    w.uidOf c = w.uidOf d ↔ c.Congruent 65536 d := by
  rw [Writer.Handle.uidOf, Writer.Handle.uidOf, Writer.Handle.uidAt, Writer.Handle.uidAt,
    Writer.frameUid_eq_iff, PagedLog.Cursor.Congruent]
  omega

theorem uids_nodup_iff (w : Writer.Handle) (places : List PagedLog.Cursor) :
    (places.map w.uidOf).Nodup ↔ places.Pairwise fun c d => ¬ c.Congruent 65536 d := by
  rw [List.Nodup, List.pairwise_map]
  simp only [ne_eq, uidOf_eq_iff]

end Task
end BTrader
