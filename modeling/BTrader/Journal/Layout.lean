import BTrader.Journal.PageLoad

/-! The layout of a whole journal: pages numbered from 1 without gaps, all but the
last one sealed with a page end marker. The journal is a paged log of frames, and
cursor movements are equations over it. -/
namespace BTrader
open ByteMemory Infra Procedure

/-- The marker a page is sealed with. -/
structure PageEnd where
  frame : Frame
  isPageEnd : frame.msgType = pageEndTag
  noData : frame.data = []
  deriving DecidableEq

theorem PageEnd.size_eq (mark : PageEnd) : mark.frame.size = 40 := by
  rw [Frame.size_eq, mark.noData, List.length_nil]

abbrev Log := PagedLog Frame PageEnd

namespace Log

def lastPageId (log : Log) : Nat := log.closed.length + 1

/-- What each page stores, the marker included. -/
def stored (log : Log) : List (List Frame) :=
  log.closed.map (fun page => page.1 ++ [page.2.frame]) ++ [log.current]

/-- Every frame passes `hasData`. -/
def Typed (log : Log) : Prop := ∀ f ∈ log.contents, 0 < f.msgType

def roomFor (location : JLocation) (log : Log) (f : Frame) : Prop :=
  PagedLog.Fits Frame.size (pageRoom (findPageSize location)) log f

instance (location : JLocation) (log : Log) (f : Frame) : Decidable (roomFor location log f) :=
  inferInstanceAs (Decidable (PagedLog.Fits _ _ _ _))

@[simp] theorem stored_length (log : Log) : log.stored.length = log.lastPageId := by
  simp [stored, lastPageId]

theorem stored_closed {log : Log} {i : Nat} (page : log.closed[i]? = some (fs, mark)) :
    log.stored[i]? = some (fs ++ [mark.frame]) := by
  have bound := (List.getElem?_eq_some_iff.mp page).1
  rw [stored, List.getElem?_append_left (by simpa using bound), List.getElem?_map, page]
  rfl

end Log

theorem used_eq_span (fs : List Frame) : PagedLog.used Frame.size fs = span fs := rfl

theorem pageRoom_bounds (location : JLocation) :
    pageRoom (findPageSize location) + 64 = findPageSize location := by
  have := findPageSize_bounds location
  have : mebibyte = 1048576 := rfl
  unfold pageRoom sizeofFrameHeader sizeofPageHeader
  omega

structure Layout (location : JLocation) (files : JournalFiles) (log : Log) : Prop where
  ids : files.ids = List.range' 1 log.lastPageId
  mappable : ∀ p, files.mappable p = true
  size : ∀ p ∈ files.ids, (files.file p).size = findPageSize location
  bounded : PagedLog.Bounded Frame.size (pageRoom (findPageSize location)) log
  page : ∀ i fs, log.stored[i]? = some fs →
    PageUnit.Stored (findPageSize location) (files.bytes (i + 1)) fs

namespace Layout

variable {location : JLocation} {files : JournalFiles} {log : Log}

theorem mem_ids (layout : Layout location files log) :
    p ∈ files.ids ↔ 1 ≤ p ∧ p ≤ log.lastPageId := by
  rw [layout.ids, List.mem_range'_1]
  omega

theorem current (layout : Layout location files log) :
    PageUnit.Stored (findPageSize location) (files.bytes log.lastPageId) log.current :=
  layout.page log.closed.length log.current (by simp [Log.stored])

theorem closed (layout : Layout location files log) (page : log.closed[i]? = some (fs, mark)) :
    PageUnit.Stored (findPageSize location) (files.bytes (i + 1)) (fs ++ [mark.frame]) :=
  layout.page i _ (Log.stored_closed page)

theorem current_inside (layout : Layout location files log) :
    24 + span log.current + 40 < findPageSize location := by
  have bounded := layout.bounded.current
  have room := pageRoom_bounds location
  rw [used_eq_span] at bounded
  omega

/-- Every page keeps its frames and its marker inside. -/
theorem page_inside {i : Nat} (layout : Layout location files log)
    (page : log.stored[i]? = some fs) :
    24 + span fs < findPageSize location := by
  have member := List.mem_of_getElem? page
  have room := pageRoom_bounds location
  rw [Log.stored, List.mem_append, List.mem_map, List.mem_singleton] at member
  rcases member with ⟨⟨fs, mark⟩, closed, rfl⟩ | rfl
  · have bounded := layout.bounded.closed _ closed
    simp only [used_eq_span] at bounded
    simp only [span_append, span_cons, span_nil, mark.size_eq]
    omega
  · have := layout.current_inside
    omega

theorem page_of_id (layout : Layout location files log) (lower : 1 ≤ p)
    (upper : p ≤ log.lastPageId) :
    ∃ fs, log.stored[p - 1]? = some fs ∧
      PageUnit.Stored (findPageSize location) (files.bytes p) fs := by
  have bound : p - 1 < log.stored.length := by
    rw [Log.stored_length]
    omega
  have page := List.getElem?_eq_getElem bound
  have stored := layout.page _ _ page
  rw [show p - 1 + 1 = p by omega] at stored
  exact ⟨_, page, stored⟩

theorem load (layout : Layout location files log) (lower : 1 ≤ p) (upper : p ≤ log.lastPageId)
    (destId : UInt32) (isWriting isLazy : Bool) :
    PageUnit.load location destId p isWriting isLazy files =
      .ok ⟨p, findPageSize location⟩ files := by
  have member := layout.mem_ids.mpr ⟨lower, upper⟩
  obtain ⟨_, page, stored⟩ := layout.page_of_id lower upper
  exact PageUnit.load_existing member (layout.mappable p) (layout.size p member) stored
    (layout.page_inside page) destId isWriting isLazy

/-- The journal whose first page was just created. -/
theorem start (location : JLocation) :
    Layout location (JournalFiles.fresh.addPage 1 (findPageSize location)) PagedLog.empty := by
  refine ⟨rfl, fun _ => rfl, ?_, ?_, ?_⟩
  · intro p member
    have : p = 1 := by simpa [JournalFiles.addPage, JournalFiles.fresh] using member
    subst this
    simp [JournalFiles.addPage]
  · exact PagedLog.Bounded.empty (by
      have := pageRoom_bounds location
      have := findPageSize_bounds location
      have : mebibyte = 1048576 := rfl
      omega)
  · intro i fs page
    have : i = 0 ∧ fs = [] := by
      cases i with
      | zero => simpa [Log.stored, PagedLog.empty, eq_comm] using page
      | succ i => simp [Log.stored, PagedLog.empty] at page
    obtain ⟨rfl, rfl⟩ := this
    rw [JournalFiles.addPage_bytes_same]
    exact PageUnit.initial_stored _

/-- Stores on the last page that leave it storing other frames. -/
theorem store (layout : Layout location files log)
    (stored : PageUnit.Stored (findPageSize location)
      ((files.bytes log.lastPageId).execAll ops) fs)
    (bounded : span fs < pageRoom (findPageSize location)) :
    Layout location (files.store log.lastPageId ops) ⟨log.closed, fs⟩ := by
  refine ⟨layout.ids, layout.mappable, ?_, ⟨layout.bounded.closed, bounded⟩, ?_⟩
  · intro p member
    rw [JournalFiles.store_size]
    exact layout.size p member
  · intro i gs page
    by_cases last : i = log.closed.length
    · subst last
      obtain rfl : fs = gs := by simpa [Log.stored] using page
      exact (JournalFiles.store_bytes_same files).symm ▸ stored
    · rw [JournalFiles.store_bytes_other _ (by rw [Log.lastPageId]; omega)]
      apply layout.page i
      have bound := (List.getElem?_eq_some_iff.mp page).1
      simp only [Log.stored_length, Log.lastPageId] at bound
      simp only [Log.stored] at page ⊢
      rw [List.getElem?_append_left (by simp; omega)] at page ⊢
      exact page

/-- The next page created and the last one sealed. -/
theorem sealPage (layout : Layout location files log) (mark : PageEnd)
    (stored : PageUnit.Stored (findPageSize location)
      ((files.bytes log.lastPageId).execAll ops) (log.current ++ [mark.frame])) :
    Layout location
      ((files.addPage (log.lastPageId + 1) (findPageSize location)).store log.lastPageId ops)
      ⟨log.closed ++ [(log.current, mark)], []⟩ := by
  have positive : 0 < pageRoom (findPageSize location) := by
    have := layout.bounded.current
    omega
  refine ⟨?_, layout.mappable, ?_, ⟨?_, positive⟩, ?_⟩
  · simp only [JournalFiles.store_ids, JournalFiles.addPage, layout.ids, Log.lastPageId,
      List.length_append, List.length_singleton]
    rw [List.range'_concat (n := log.closed.length + 1)]
    simp only [Nat.one_mul, Nat.add_comm 1]
  · intro p member
    rw [JournalFiles.store_size]
    by_cases new : p = log.lastPageId + 1
    · subst new
      simp [JournalFiles.addPage]
    · have old : p ∈ files.ids := by simpa [JournalFiles.addPage, new] using member
      simpa [JournalFiles.addPage, Function.update_of_ne new] using layout.size p old
  · intro page member
    rcases List.mem_append.mp member with member | member
    · exact layout.bounded.closed page member
    · rw [List.mem_singleton.mp member]
      exact layout.bounded.current
  · intro i fs page
    have bound := (List.getElem?_eq_some_iff.mp page).1
    simp only [Log.stored, List.length_append, List.length_map, List.length_singleton] at bound
    simp only [Log.stored, List.map_append, List.map_cons, List.map_nil, List.append_assoc] at page
    rcases Nat.lt_trichotomy i log.closed.length with before | here | after
    · rw [JournalFiles.store_bytes_other _ (by rw [Log.lastPageId]; omega),
        JournalFiles.addPage_bytes_other _ (by rw [Log.lastPageId]; omega)]
      apply layout.page i
      rw [Log.stored]
      rw [List.getElem?_append_left (by simpa using before)] at page ⊢
      exact page
    · subst here
      obtain rfl : log.current ++ [mark.frame] = fs := by simpa using page
      rw [← Log.lastPageId, JournalFiles.store_bytes_same,
        JournalFiles.addPage_bytes_other _ (by omega)]
      exact stored
    · obtain rfl : i = log.closed.length + 1 := by omega
      obtain rfl : [] = fs := by simpa using page
      rw [JournalFiles.store_bytes_other _ (by rw [Log.lastPageId]; omega), Log.lastPageId,
        JournalFiles.addPage_bytes_same]
      exact PageUnit.initial_stored _

end Layout

/-- What a journal object is constructed with. -/
structure Opening where
  location : JLocation
  destId : UInt32
  isWriting : Bool
  isLazy : Bool

namespace Opening

/-- The journal object before its first seek, without rollback. -/
def make (o : Opening) : Journal := .make o.location o.destId o.isWriting o.isLazy 0

/-- The journal object with its cursor on that page. -/
def placed (o : Opening) (pageId frame pageFrameNb : Nat) : Journal :=
  ⟨o.location, o.destId, o.isWriting, o.isLazy, some ⟨pageId, findPageSize o.location⟩, frame,
    pageFrameNb, 0, 0⟩

@[simp] theorem placed_location (o : Opening) : (o.placed k a nb).location = o.location := rfl

@[simp] theorem placed_destId (o : Opening) : (o.placed k a nb).destId = o.destId := rfl

@[simp] theorem placed_frame (o : Opening) : (o.placed k a nb).frame = a := rfl

@[simp] theorem placed_pageFrameNb (o : Opening) : (o.placed k a nb).pageFrameNb = nb := rfl

variable {o : Opening} {files : JournalFiles} {log : Log}

@[simp] theorem currentPage_placed :
    Journal.currentPage (o.placed k a nb, files) =
      .ok ⟨k, findPageSize o.location⟩ (o.placed k a nb, files) := rfl

@[simp] theorem store_placed (ops : List StoreOp) :
    Journal.store ops (o.placed k a nb, files) = .ok () (o.placed k a nb, files.store k ops) := rfl

theorem loadPage_make (o : Opening) (layout : Layout o.location files log) (lower : 1 ≤ p)
    (upper : p ≤ log.lastPageId) :
    Journal.loadPage p (o.make, files) = .ok () (o.placed p 24 0, files) := by
  have loaded := onSnd_ok (s := o.make) (layout.load lower upper o.destId o.isWriting o.isLazy)
  obtain ⟨_, _, stored⟩ := layout.page_of_id lower upper
  have first := stored.header.firstFrameAddress
  simp only [make, Journal.make] at loaded
  simp [Journal.loadPage, make, Journal.make, placed, loaded, first]

theorem loadPage_placed (layout : Layout o.location files log) (lower : 1 ≤ p)
    (upper : p ≤ log.lastPageId) :
    Journal.loadPage p (o.placed k a nb, files) = .ok () (o.placed p 24 0, files) := by
  have loaded := onSnd_ok (s := o.placed k a nb)
    (layout.load lower upper o.destId o.isWriting o.isLazy)
  obtain ⟨_, _, stored⟩ := layout.page_of_id lower upper
  have first := stored.header.firstFrameAddress
  simp only [placed] at loaded
  by_cases same : k = p
  · subst same
    simp [Journal.loadPage, placed, first]
  · simp [Journal.loadPage, placed, loaded, first, same]

theorem loadPage_new (absent : p ∉ files.ids) (mappable : files.mappable p = true)
    (writable : master o.isWriting o.isLazy = true) (other : k ≠ p) :
    Journal.loadPage p (o.placed k a nb, files) =
      .ok () (o.placed p 24 0, files.addPage p (findPageSize o.location)) := by
  have loaded := onSnd_ok (s := o.placed k a nb)
    (PageUnit.load_new absent mappable writable o.location o.destId)
  simp only [placed] at loaded
  have first := (PageUnit.initial_stored (findPageSize o.location)).header.firstFrameAddress
  simp [Journal.loadPage, placed, loaded, first, other]

theorem loadPage_create (absent : p ∉ files.ids) (mappable : files.mappable p = true)
    (writable : master o.isWriting o.isLazy = true) :
    Journal.loadPage p (o.make, files) =
      .ok () (o.placed p 24 0, files.addPage p (findPageSize o.location)) := by
  have loaded := onSnd_ok (s := o.make)
    (PageUnit.load_new absent mappable writable o.location o.destId)
  simp only [make, Journal.make] at loaded
  have first := (PageUnit.initial_stored (findPageSize o.location)).header.firstFrameAddress
  simp [Journal.loadPage, make, Journal.make, placed, loaded, first]

/-- Page ids start at 1, so without rollback no page is ever the rollback page. -/
theorem loadNextPage_placed (positive : 1 ≤ k)
    (loaded : Journal.loadPage (k + 1) (o.placed k a nb, files) = .ok () (o.placed p b n, files')) :
    Journal.loadNextPage (o.placed k a nb, files) = .ok () (o.placed p b n, files') := by
  have plain : ¬ 0 = k := by omega
  simp only [placed] at loaded
  simp [Journal.loadNextPage, Journal.currentPage, placed, loaded, plain]

theorem next_placed (nb : Nat) (open' : FrameUnit.msgType (files.bytes k) a ≠ pageEndTag) :
    Journal.next (o.placed k a nb, files) =
      .ok () (o.placed k (FrameUnit.moveToNext (files.bytes k) a) (nb + 1), files) := by
  simp [Journal.next, placed, open']

theorem next_pageEnd (closed : FrameUnit.msgType (files.bytes k) a = pageEndTag) :
    Journal.next (o.placed k a nb, files) = Journal.loadNextPage (o.placed k a nb, files) := by
  simp [Journal.next, placed, closed]

end Opening
end BTrader
