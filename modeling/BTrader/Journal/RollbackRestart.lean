import BTrader.Journal.RollbackSession
import BTrader.Journal.Reopen
import BTrader.Lib.Sorting

/-! A second writer on the ring of a first one, after a restart. The constructor looks for
the newest page in the file with the largest number, and that is where the ring is
continued only by luck. -/
namespace BTrader
open ByteMemory Infra Procedure Ring

/-- The last page id of the listing. -/
theorem PageUnit.listPageId_last {files : JournalFiles} {last : Nat} (present : last ∈ files.ids)
    (largest : ∀ p ∈ files.ids, p ≤ last) :
    ∃ rest, (PageUnit.listPageId files).reverse = last :: rest := by
  have sorted : (PageUnit.listPageId files).Pairwise (· ≤ ·) := Sorting.ascending files.ids
  have member : last ∈ (PageUnit.listPageId files).reverse := by
    rw [List.mem_reverse]
    exact List.mem_mergeSort.mpr present
  cases backwards : (PageUnit.listPageId files).reverse with
  | nil =>
    rw [backwards] at member
    contradiction
  | cons p rest =>
    rw [← List.pairwise_reverse, backwards, List.pairwise_cons] at sorted
    have listed : p ∈ files.ids := by
      apply List.mem_mergeSort.mp
      apply List.mem_reverse.mp
      change p ∈ (PageUnit.listPageId files).reverse
      rw [backwards]
      exact List.mem_cons_self
    have upper := largest p listed
    rw [backwards] at member
    rcases List.mem_cons.mp member with rfl | later
    · exact ⟨rest, rfl⟩
    · have lower := sorted.1 last later
      obtain rfl : last = p := le_antisymm lower upper
      exact ⟨rest, rfl⟩

namespace RingLayout

variable {location : JLocation} {size : Nat} {files : JournalFiles} {log : Log}

/-- The page file with the largest number. -/
theorem last_file (layout : RingLayout location size files log) (positive : 1 ≤ size) :
    min log.lastPageId size ∈ files.ids ∧ ∀ p ∈ files.ids, p ≤ min log.lastPageId size := by
  constructor
  · rw [layout.ids]
    refine ⟨le_min ?_ positive, le_refl _⟩
    rw [Log.lastPageId]
    omega
  · intro p member
    exact ((layout.ids p).mp member).2

/-- The newest page of a later lap that is not in the last file: the last file holds the last
page of the lap before, and the first file the first page of this one. -/
theorem later_lap (layout : RingLayout location size files log) (positive : 1 ≤ size)
    (elsewhere : slot size log.lastPageId ≠ min log.lastPageId size) :
    min log.lastPageId size = size ∧ slot size log.lastPageId < size ∧
    (∃ (i : Nat) (fs : List Frame) (mark : PageEnd), log.closed[i]? = some (fs, mark) ∧
      PageUnit.Stored (findPageSize location) (files.bytes size) (fs ++ [mark.frame])) ∧
    ∃ (i : Nat) (fs : List Frame), log.pages[i]? = some fs ∧ log.lastPageId ≤ i + size ∧
      slot size (i + 1) = 1 := by
  have first : 1 ≤ log.lastPageId := Nat.le_add_left _ _
  have laps := laps_add_slot size first
  have here := slot_pos size log.lastPageId
  have below := slot_le positive log.lastPageId
  have later : size < log.lastPageId := by
    by_contra before
    rw [slot_first first (not_lt.mp before), Nat.min_eq_left (not_lt.mp before)] at elsewhere
    exact elsewhere rfl
  have last : min log.lastPageId size = size := Nat.min_eq_right later.le
  rw [last] at elsewhere
  obtain ⟨q, lap⟩ : ∃ q, (log.lastPageId - 1) / size = q + 1 := by
    have : (log.lastPageId - 1) / size ≠ 0 := by
      intro zero
      rw [zero] at laps
      omega
    exact Nat.exists_eq_succ_of_ne_zero this
  rw [lap] at laps
  have ends := slot_lap_end positive q
  have begins := slot_lap_begin size (q + 1)
  have large : 1 ≤ size * (q + 1) := Nat.mul_pos positive (Nat.succ_pos q)
  refine ⟨last, lt_of_le_of_ne below elsewhere, ?_, ?_⟩
  · have bound : size * (q + 1) - 1 < log.closed.length := by
      rw [Log.lastPageId] at laps here
      omega
    have page := List.getElem?_eq_getElem bound
    have stored := layout.page _ _ (Log.stored_closed page) (by omega)
    rw [Nat.sub_add_cancel large, ends] at stored
    exact ⟨_, _, _, page, stored⟩
  · have bound : size * (q + 1) < log.pages.length := by
      rw [PagedLog.pages_length]
      rw [Log.lastPageId] at laps here
      omega
    exact ⟨size * (q + 1), _, List.getElem?_eq_getElem bound, by omega, begins⟩

end RingLayout

namespace PageUnit

/-- The newest page by number is taken when it begins before the time. -/
theorem findPageId_ring {location : JLocation} {files : JournalFiles} {last : Nat} {time : Int64}
    (present : last ∈ files.ids) (largest : ∀ p ∈ files.ids, p ≤ last)
    (mappable : files.mappable last = true)
    (fileSize : (files.file last).size = findPageSize location)
    (stored : Stored (findPageSize location) (files.bytes last) fs)
    (inside : 24 + span fs < findPageSize location) (begins : Log.beginTime fs < time)
    (nonzero : time ≠ 0)
    (destId : UInt32) : findPageId location destId time files = .ok last files := by
  obtain ⟨rest, backwards⟩ := listPageId_last present largest
  have loaded := load_existing present mappable fileSize stored inside destId false true
  have before : beginTime (files.bytes last) < time := by
    rw [stored.beginTime]
    exact begins
  cases listed : listPageId files with
  | nil =>
    rw [listed] at backwards
    contradiction
  | cons front later =>
    rw [listed] at backwards
    have back : findBackwards location destId time (front :: later).reverse files =
        .ok (some last) files := by
      rw [backwards]
      simp [findBackwards, loaded, before]
    simp only [findPageId, bind_apply, get_apply, listed, nonzero, if_false, back]
    rfl

end PageUnit

namespace Opening

variable {o : Opening} {files : JournalFiles} {size mark p : Nat} {time : Int64}

theorem loadPage_opening (o : Opening) (size : Nat) (present : p ∈ files.ids)
    (mappable : files.mappable p = true) (fileSize : (files.file p).size = findPageSize o.location)
    (stored : PageUnit.Stored (findPageSize o.location) (files.bytes p) fs)
    (inside : 24 + span fs < findPageSize o.location) :
    Journal.loadPage p (o.make.rolling size 0, files) =
      .ok () ((o.placed p 24 0).rolling size 0, files) := by
  have loaded := onSnd_ok (s := o.make)
    (PageUnit.load_existing present mappable fileSize stored inside o.destId o.isWriting o.isLazy)
  have first := stored.header.firstFrameAddress
  have opened : Journal.loadPage p (o.make, files) = .ok () (o.placed p 24 0, files) := by
    simp only [make, Journal.make] at loaded
    simp [Journal.loadPage, make, Journal.make, placed, loaded, first]
  exact Journal.loadPage_rolling opened size 0

/-- The frames of a page are passed one after another, up to the first that is not due. -/
theorem skipFrames_page (o : Opening) (size mark : Nat) (time : Int64) (passed : List Frame)
    (stored : PageUnit.Stored (findPageSize o.location) (files.bytes p) (passed ++ rest))
    (fuel : Nat) (enough : rest.length < fuel) :
    Journal.skipFrames time fuel ((o.placed p (24 + span passed) passed.length).rolling size mark,
      files) =
      .ok () ((o.placed p (24 + span (passed ++ Log.due time rest))
        (passed ++ Log.due time rest).length).rolling size mark, files) := by
  have page (a nb : Nat) : Journal.currentPage ((o.placed p a nb).rolling size mark, files) =
      .ok ⟨p, findPageSize o.location⟩ ((o.placed p a nb).rolling size mark, files) := rfl
  induction rest generalizing passed fuel with
  | nil =>
    obtain ⟨fuel, rfl⟩ := Nat.exists_eq_add_of_lt enough
    rw [List.append_nil] at stored
    have slot := stored.slot_hasData
    simp [Journal.skipFrames, placed, Journal.rolling, Journal.currentPage, slot, Log.due]
  | cons f rest ih =>
    obtain ⟨fuel, rfl⟩ : ∃ n, fuel = n + 1 := ⟨fuel - 1, by simp at enough; omega⟩
    have holds := stored.chain.get
    have cursor : ((o.placed p (24 + span passed) passed.length).rolling size mark).frame =
        24 + span passed := rfl
    have test : (FrameUnit.hasData (files.bytes p) (24 + span passed) = true ∧
        FrameUnit.genTime (files.bytes p) (24 + span passed) ≤ time) ↔ Log.Due time f := by
      rw [holds.hasData, holds.genTime]
      simp [Log.Due]
    rw [Journal.skipFrames]
    simp only [bind_apply, page, get_apply, cursor, test]
    by_cases due : Log.Due time f
    · have type : FrameUnit.msgType (files.bytes p) (24 + span passed) ≠ pageEndTag := by
        rw [holds.msgType]
        intro zero
        have := due.1
        rw [zero] at this
        exact absurd this (by decide)
      have moved :
          Journal.next ((o.placed p (24 + span passed) passed.length).rolling size mark, files) =
          .ok () ((o.placed p (24 + span passed + f.size) (passed.length + 1)).rolling size mark,
            files) := by
        rw [← holds.moveToNext]
        simp [Journal.next, placed, Journal.rolling, type]
      have run := ih (passed ++ [f]) (by simpa using stored) fuel (by simp at enough; omega)
      have taken : Log.due time (f :: rest) = f :: Log.due time rest := by simp [Log.due, due]
      simp only [span_append, span_cons, span_nil, Nat.add_zero, ← Nat.add_assoc,
        List.length_append,
        List.length_singleton, List.append_assoc, List.singleton_append, ← taken] at run ⊢
      rw [if_pos due, bind_ok moved, run]
    · have taken : Log.due time (f :: rest) = [] := by simp [Log.due, due]
      rw [if_neg due, taken, List.append_nil]
      rfl

/-- Whether a stored page is passed as full. -/
theorem stored_passed (stored : PageUnit.Stored (findPageSize o.location) (files.bytes p) fs)
    (inside : 24 + span fs < findPageSize o.location) (time : Int64) :
    (PageUnit.isFull (files.bytes p) = true ∧ PageUnit.endTime (files.bytes p) ≤ time) ↔
      Log.Passed (findPageSize o.location) time fs := by
  have bounds := findPageSize_bounds o.location
  have mib : mebibyte = 1048576 := rfl
  rw [stored.isFull (by omega) (by omega), stored.endTime (by omega), decide_eq_true_eq]
  rfl

section Seek

variable {last : Nat} {fs : List Frame} (present : last ∈ files.ids)
    (largest : ∀ p ∈ files.ids, p ≤ last)
  (mappable : ∀ p, files.mappable p = true)
  (fileSize : ∀ p ∈ files.ids, (files.file p).size = findPageSize o.location)
  (stored : PageUnit.Stored (findPageSize o.location) (files.bytes last) fs)
  (inside : 24 + span fs < findPageSize o.location) (begins : Log.beginTime fs < time)
  (nonzero : time ≠ 0)
include present largest mappable fileSize stored inside begins nonzero

/-- A page that is not full is where the seek ends. -/
theorem seekToTime_stays (stops : ¬ Log.Passed (findPageSize o.location) time fs) (size : Nat) :
    Journal.seekToTime time (o.make.rolling size 0, files) =
      .ok () ((o.placed last (24 + span (Log.due time fs)) (Log.due time fs).length).rolling size 0,
        files) := by
  have search :=
    onSnd_ok (s := o.make.rolling size 0) (PageUnit.findPageId_ring present largest (mappable last)
    (fileSize last present) stored inside begins nonzero o.destId)
  have opened :=
    o.loadPage_opening size present (mappable last) (fileSize last present) stored inside
  have test := stored_passed stored inside time
  have pages (fuel : Nat) :
      Journal.skipFullPages time (fuel + 1) ((o.placed last 24 0).rolling size 0, files) =
      .ok () ((o.placed last 24 0).rolling size 0, files) := by
    simp [Journal.skipFullPages, Journal.currentPage, placed, Journal.rolling, test, stops]
  have length := length_le_span fs
  have frames := o.skipFrames_page size 0 time [] stored (findPageSize o.location + 1) (by omega)
  simp only [span_nil, Nat.add_zero, List.length_nil, List.nil_append] at frames
  simp only [make, Journal.make, Journal.rolling] at search opened ⊢
  simp only [Journal.seekToTime, bind_apply, get_apply]
  rw [search]
  simp only [opened]
  simp only [Journal.rolling] at pages frames
  simp only [pages]
  exact frames

/-- A full last page of the ring sends the seek to the first one, which is emptied. -/
theorem seekToTime_wraps (writing : o.isWriting = true)
    (passed : Log.Passed (findPageSize o.location) time fs)
    (positive : 1 ≤ last) (begun : 1 ∈ files.ids)
    (first : PageUnit.Stored (findPageSize o.location) (files.bytes 1) gs)
    (inside' : 24 + span gs < findPageSize o.location) :
    Journal.seekToTime time (o.make.rolling last 0, files) =
      .ok () ((o.placed 1 24 0).rolling last 1, files.store 1 PageUnit.reinitialize) := by
  have bounds := findPageSize_bounds o.location
  have mib : mebibyte = 1048576 := rfl
  have search :=
    onSnd_ok (s := o.make.rolling last 0) (PageUnit.findPageId_ring present largest (mappable last)
    (fileSize last present) stored inside begins nonzero o.destId)
  have opened :=
    o.loadPage_opening last present (mappable last) (fileSize last present) stored inside
  have test := stored_passed stored inside time
  have lap : last < last → 0 = last := fun below => absurd below (lt_irrefl last)
  have turned := loadNextPage_emptied writing (by omega) lap
    (if_neg (lt_irrefl last))
      (loadPage_stored (k := last) begun (mappable 1) (fileSize 1 begun) first inside' 24 0)
  have emptied : PageUnit.Stored (findPageSize o.location)
      ((files.store 1 PageUnit.reinitialize).bytes 1) [] := by
    rw [JournalFiles.store_bytes_same]
    exact first.emptied (by omega) (by omega) inside'.le
  have test' := stored_passed emptied (by rw [span_nil]; omega) time
  rw [JournalFiles.store_bytes_same] at test'
  have stops : ¬ Log.Passed (findPageSize o.location) time [] := by
    rintro ⟨full, _⟩
    rw [span_nil] at full
    omega
  obtain ⟨n, count⟩ : ∃ n, files.ids.length = n + 1 :=
    Nat.exists_eq_succ_of_ne_zero (List.length_pos_of_mem present).ne'
  have pages :
      Journal.skipFullPages time (files.ids.length + 1)
        ((o.placed last 24 0).rolling last 0, files) =
      .ok () ((o.placed 1 24 0).rolling last 1, files.store 1 PageUnit.reinitialize) := by
    simp only [placed, Journal.rolling] at turned ⊢
    rw [count]
    simp [Journal.skipFullPages, Journal.currentPage, test, passed, turned, test', stops]
  have frames := o.skipFrames_page last 1 time [] emptied (findPageSize o.location + 1) (by simp)
  simp only [span_nil, Nat.add_zero, List.length_nil, List.nil_append] at frames
  simp only [make, Journal.make, Journal.rolling] at search opened ⊢
  simp only [Journal.seekToTime, bind_apply, get_apply]
  rw [search]
  simp only [opened]
  simp only [Journal.rolling] at pages frames
  simp only [pages]
  exact frames

end Seek

end Opening

namespace Writer

variable {location : JLocation} {size : Nat} {files : JournalFiles} {log : Log} {now : Int64}

theorem make_rolling (sought : Journal.seekToTime now
      ((⟨location, destId, true, isLazy⟩ : Opening).make.rolling size 0, files) =
        .ok () (j, files')) (started : Int64) :
    make location destId isLazy size started now files =
      .ok ⟨idBase location destId, j, 0, timeHashed started, false⟩ files' := by
  simp only [Opening.make, Journal.make, Journal.rolling] at sought
  rw [make, Journal.make, sought]

end Writer

namespace RingLayout

variable {location : JLocation} {size : Nat} {files : JournalFiles} {log : Log} {now : Int64}

/-- A writer that is constructed while the newest page is in the last file. -/
theorem restart_ends (layout : RingLayout location size files log) (positive : 1 ≤ size)
    (typed : Log.Typed log) (past : ∀ f ∈ log.contents, f.genTime < now) (clock : 0 < now)
    (newest : slot size log.lastPageId = min log.lastPageId size) (destId : UInt32) (isLazy : Bool)
    (started : Int64) :
    Writer.make location destId isLazy size started now files =
      .ok (((Writer.handleAt location destId isLazy started).placed (slot size log.lastPageId)
        (24 + span log.current) log.current.length 0 false).rolling size 0) files := by
  obtain ⟨present, largest⟩ := layout.last_file positive
  rw [← newest] at present largest
  have inside := layout.current_inside
  have here {f : Frame} (member : f ∈ log.current) : f ∈ log.contents :=
    List.mem_append_right _ member
  have begins : Log.beginTime log.current < now := by
    cases current : log.current with
    | nil => exact clock
    | cons f fs => exact past f (here (by rw [current]; exact List.mem_cons_self))
  have all : Log.due now log.current = log.current := by
    apply Log.due_eq_self
    intro f member
    exact ⟨typed f (here member), Int64.le_of_lt (past f (here member))⟩
  have stops : ¬ Log.Passed (findPageSize location) now log.current := by
    rintro ⟨full, _⟩
    omega
  have nonzero : now ≠ 0 := by
    rintro rfl
    exact absurd clock (by decide)
  have sought :=
    Opening.seekToTime_stays (o := ⟨location, destId, true, isLazy⟩) present largest layout.mappable
    layout.fileSize (layout.current positive) (by simp only; omega) begins nonzero stops size
  rw [all] at sought
  exact Writer.make_rolling sought started

/-- While it is elsewhere, the new writer ends on the last page of the lap before, or on the
first file, which it empties. -/
theorem restart_strays (layout : RingLayout location size files log) (positive : 1 ≤ size)
    (filled : PagedLog.Filled log) (past : ∀ f ∈ log.contents, f.genTime < now) (clock : 0 < now)
    (elsewhere : slot size log.lastPageId ≠ min log.lastPageId size) (destId : UInt32)
    (isLazy : Bool) (started : Int64) :
    (∃ j, Writer.make location destId isLazy size started now files =
        .ok ⟨Writer.idBase location destId, j, 0, timeHashed started, false⟩ files ∧
      j.page = some ⟨size, findPageSize location⟩) ∨
    ∃ j, Writer.make location destId isLazy size started now files =
        .ok ⟨Writer.idBase location destId, j, 0, timeHashed started, false⟩
          (files.store 1 PageUnit.reinitialize) ∧
      j.page = some ⟨1, findPageSize location⟩ ∧ j.frame = 24 ∧
      PageUnit.Stored (findPageSize location) ((files.store 1 PageUnit.reinitialize).bytes 1)
        [] := by
  have bounds := findPageSize_bounds location
  have mib : mebibyte = 1048576 := rfl
  obtain ⟨present, largest⟩ := layout.last_file positive
  obtain ⟨last, below, ⟨i, fs, mark, page, stored⟩, i', gs, page', retained, begun⟩ :=
    layout.later_lap positive elsewhere
  rw [last] at present largest
  have inside := layout.page_inside (Log.stored_closed page)
  have some' : fs ≠ [] := filled.closed _ (List.mem_of_getElem? page)
  have begins : Log.beginTime (fs ++ [mark.frame]) < now := by
    obtain ⟨f, rest, rfl⟩ := List.exists_cons_of_ne_nil some'
    apply past f
    rw [← PagedLog.contents_pages]
    exact List.mem_flatten_of_mem
      (List.mem_of_getElem? (PagedLog.pages_closed page)) List.mem_cons_self
  have nonzero : now ≠ 0 := by
    rintro rfl
    exact absurd clock (by decide)
  let o : Opening := ⟨location, destId, true, isLazy⟩
  by_cases passed : Log.Passed (findPageSize location) now (fs ++ [mark.frame])
  · right
    have one : 1 ∈ files.ids := by
      rw [layout.ids, last]
      exact ⟨le_refl 1, positive⟩
    obtain ⟨hs, first, inside'⟩ : ∃ hs, PageUnit.Stored (findPageSize location) (files.bytes 1) hs ∧
        24 + span hs < findPageSize location := by
      have bound : i' < log.stored.length := by
        have := (List.getElem?_eq_some_iff.mp page').1
        rw [PagedLog.pages_length] at this
        rwa [Log.stored_length]
      have page'' := List.getElem?_eq_getElem bound
      have stored' := layout.page _ _ page'' retained
      rw [begun] at stored'
      exact ⟨_, stored', layout.page_inside page''⟩
    have sought :=
      Opening.seekToTime_wraps (o := o) present largest layout.mappable layout.fileSize stored
      inside begins nonzero rfl passed positive one first inside'
    refine ⟨_, Writer.make_rolling sought started, rfl, rfl, ?_⟩
    rw [JournalFiles.store_bytes_same]
    exact first.emptied (by omega) (by omega) inside'.le
  · left
    have sought :=
      Opening.seekToTime_stays (o := o) present largest layout.mappable layout.fileSize stored
      inside begins nonzero passed size
    exact ⟨_, Writer.make_rolling sought started, rfl⟩

end RingLayout

namespace Writer

/-- A restart with a clock behind which all frames are goes on where the writer before
stopped exactly when the newest page is in the file with the largest number. Otherwise it
writes on a page of the lap before, or it has emptied the first page of the current lap. -/
theorem rollback_restart (positive : 1 ≤ size) (location : JLocation) (destId : UInt32)
    (isLazy isLazy' : Bool) (started now started' : Int64) {now' : Int64} {ops : List WriteOp}
    (adm : ∀ op ∈ ops, op.Admissible location)
    (typed : ∀ op ∈ ops, 0 < (op.frame location.uid destId).msgType)
    (past : ∀ op ∈ ops, (op.frame location.uid destId).genTime < now') (clock : 0 < now') :
    ∃ w files log w' files',
      rollbackSession size location destId isLazy started now ops JournalFiles.fresh = .ok w files ∧
      log = WriteOp.appendAll location destId PagedLog.empty ops ∧
      make location destId isLazy' size started' now' files = .ok w' files' ∧
      ((files' = files ∧ w'.journal.page = w.journal.page ∧ w'.journal.frame = w.journal.frame) ↔
        slot size log.lastPageId = min log.lastPageId size) ∧
      (slot size log.lastPageId ≠ min log.lastPageId size →
        (files' = files ∧ w'.journal.page = some ⟨size, findPageSize location⟩) ∨
        (w'.journal.page = some ⟨1, findPageSize location⟩ ∧
          PageUnit.Stored (findPageSize location) (files'.bytes 1) [] ∧
          ∃ (i : Nat) (fs : List Frame), log.pages[i]? = some fs ∧ fs ≠ [] ∧
            log.lastPageId ≤ i + size ∧
            slot size (i + 1) = 1)) := by
  obtain ⟨files, ran, layout⟩ :=
    rollbackSession_fresh positive location destId isLazy started now adm
  let log := WriteOp.appendAll location destId PagedLog.empty ops
  have contents : log.contents = ops.map (WriteOp.frame location.uid destId) := by
    rw [WriteOp.contents_appendAll, PagedLog.contents_empty, List.nil_append]
  have typed' : Log.Typed log := by
    intro f member
    rw [contents] at member
    obtain ⟨op, present, rfl⟩ := List.mem_map.mp member
    exact typed op present
  have past' : ∀ f ∈ log.contents, f.genTime < now' := by
    intro f member
    rw [contents] at member
    obtain ⟨op, present, rfl⟩ := List.mem_map.mp member
    exact past op present
  have filled : PagedLog.Filled log := Left.filled_appendAll PagedLog.Filled.empty adm
  by_cases newest : slot size log.lastPageId = min log.lastPageId size
  · have made := layout.restart_ends positive typed' past' clock newest destId isLazy' started'
    refine ⟨_, files, log, _, _, ran, rfl, made, ?_, fun elsewhere => absurd newest elsewhere⟩
    constructor
    · exact fun _ => newest
    · exact fun _ => ⟨rfl, rfl, rfl⟩
  · obtain ⟨last, below, _, i, fs, page, retained, begun⟩ := layout.later_lap positive newest
    have more : log.closed ≠ [] := by
      intro nothing
      have one : log.lastPageId = 1 := by rw [Log.lastPageId, nothing, List.length_nil]
      rw [one, slot_first (le_refl 1) positive, Nat.min_eq_left positive] at newest
      exact newest rfl
    rcases layout.restart_strays positive filled past' clock newest destId isLazy' started' with
      ⟨j, made, here⟩ | ⟨j, made, here, cursor, emptied⟩
    · refine ⟨_, files, log, _, _, ran, rfl, made, ?_, fun _ => Or.inl ⟨rfl, here⟩⟩
      constructor
      · rintro ⟨_, same, _⟩
        have same : j.page = some ⟨slot size log.lastPageId, findPageSize location⟩ := same
        rw [here, Option.some.injEq, PageUnit.mk.injEq] at same
        exact absurd same.1.symm below.ne
      · exact fun last => absurd last newest
    · refine ⟨_, files, log, _, _, ran, rfl, made, ?_,
        fun _ => Or.inr ⟨here, emptied, i, fs, page, ?_, retained, begun⟩⟩
      · constructor
        · rintro ⟨_, _, same⟩
          have same : j.frame = 24 + span log.current := same
          have length := length_le_span log.current
          have some' : 0 < log.current.length := List.length_pos_iff.mpr (filled.current more)
          omega
        · exact fun last => absurd last newest
      · exact filled.page more (List.mem_of_getElem? page)

/-- After three writes of more than half a page the newest page of a ring of two is in the
first file. -/
theorem rollback_restart_three :
    ∃ w files log w' files',
      rollbackSession 2 simAccount 7 false 1 2
        (List.replicate 3 (.writeRaw 3 101 (List.replicate 9000000 1) 4 5)) JournalFiles.fresh =
          .ok w files ∧
      log = WriteOp.appendAll simAccount 7 PagedLog.empty
        (List.replicate 3 (.writeRaw 3 101 (List.replicate 9000000 1) 4 5)) ∧
      make simAccount 7 false 2 6 7 files = .ok w' files' ∧
      ((files' = files ∧ w'.journal.page = w.journal.page ∧ w'.journal.frame = w.journal.frame) ↔
        slot 2 log.lastPageId = min log.lastPageId 2) ∧
      (slot 2 log.lastPageId ≠ min log.lastPageId 2 →
        (files' = files ∧ w'.journal.page = some ⟨2, findPageSize simAccount⟩) ∨
        (w'.journal.page = some ⟨1, findPageSize simAccount⟩ ∧
          PageUnit.Stored (findPageSize simAccount) (files'.bytes 1) [] ∧
          ∃ (i : Nat) (fs : List Frame), log.pages[i]? = some fs ∧ fs ≠ [] ∧
            log.lastPageId ≤ i + 2 ∧
            slot 2 (i + 1) = 1)) := by
  refine rollback_restart (by decide) simAccount 7 false false 1 2 6 ?_ ?_ ?_ (by decide)
  · intro op member
    rw [List.eq_of_mem_replicate member]
    exact halfPage_admissible List.length_replicate
  · intro op member
    rw [List.eq_of_mem_replicate member]
    exact (by decide : (0 : Int32) < 101)
  · intro op member
    rw [List.eq_of_mem_replicate member]
    exact (by decide : (5 : Int64) < 7)

end Writer
end BTrader
