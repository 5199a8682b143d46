import BTrader.Lib.Ring
import BTrader.Journal.Rollback
import BTrader.Journal.Session

/-! The pages of a writer with rollback are a ring over the page files: page `p` of the
journal is in the file of the slot of `p`, and a file holds the newest page of its slot. -/
namespace BTrader
open ByteMemory Infra Procedure Ring

namespace PageUnit

variable {size : Nat} {m : Memory} {fs : List Frame}

/-- A page ready for its first frame: behind the header there is nothing, or a page end
marker that the frame will cover. -/
structure Blank (size : Nat) (m : Memory) : Prop where
  header : Header size m
  clear : ∀ x, 64 ≤ x → m x = 0

theorem Stored.blank (stored : Stored size m fs) (short : span fs ≤ 40) : Blank size m :=
  ⟨stored.header, fun x beyond => stored.clear x (by omega)⟩

/-- The first frame of a page. -/
theorem Blank.place (blank : Blank size m) (places : Places stores f) :
    Stored size (m.execAll (stores 24)) [f] := by
  have large : 40 ≤ f.size := by
    rw [Frame.size_eq]
    omega
  refine ⟨?_, ⟨places.holds m 24 (le_refl 24), trivial⟩, ?_, ?_⟩
  · exact blank.header.congr fun x inside =>
      places.frame m 24 x (Or.inl inside.2) (Or.inl (by have := inside.2; omega))
  · simpa using places.last m 24
  · intro x beyond
    rw [span_cons, span_nil] at beyond
    by_cases slot : x < 24 + f.size + sizeofFrameHeader
    · exact places.slot m 24 x (le_refl 24) (by omega) slot
    · rw [places.frame m 24 x (by omega) (by omega)]
      exact blank.clear x (by omega)

/-- The rollback branches leave a page without frames. -/
theorem Stored.emptied (stored : Stored size m fs) (small : size < 2 ^ 32) (large : 24 ≤ size)
    (inside : 24 + span fs ≤ size) : Stored size (m.execAll PageUnit.reinitialize) [] := by
  have length : (pageHeaderLength m).toUInt64 = UInt64.ofNat 24 := by
    rw [stored.header.pageHeaderLength]
    rfl
  let m₁ := m.exec (setLastFramePosition (UInt64.ofNat 24))
  have other {x : Nat} (outside : x < 16 ∨ 24 ≤ x) : m₁ x = m x := by
    apply write_frame
    rintro ⟨lower, upper⟩
    simp only [setLastFramePosition, word64_address, word64_length] at lower upper
    omega
  have header₁ : Header size m₁ := stored.header.congr fun x inside => other (Or.inl inside.2)
  have emptied : m.execAll PageUnit.reinitialize = m₁.write ⟨24, List.replicate (size - 24) 0⟩ := by
    have first : m.exec (fun m => .word64 16 (pageHeaderLength m).toUInt64) = m₁ := by
      simp only [Memory.exec, length, m₁, setLastFramePosition]
    have range : (⟨(pageHeaderLength m₁).toNat,
        List.replicate ((getPageSize m₁).toNat - (pageHeaderLength m₁).toNat) 0⟩ : Store) =
          ⟨24, List.replicate (size - 24) 0⟩ := by
      rw [header₁.getPageSize_toNat small, header₁.pageHeaderLength]
      rfl
    rw [PageUnit.reinitialize, execAll_cons, first, execAll_cons, execAll_nil]
    exact congrArg m₁.write range
  let body : Store := ⟨24, List.replicate (size - 24) 0⟩
  have before {x : Nat} (low : x < 24) : m₁.write body x = m₁ x := by
    apply write_frame
    rintro ⟨lower, _⟩
    exact absurd lower (by simpa [body] using low)
  have word : lastFramePosition (m₁.write body) = UInt64.ofNat 24 := by
    have same : lastFramePosition (m₁.write body) = lastFramePosition m₁ :=
      load64_congr fun x inside => before inside.2
    rw [same]
    exact load64_write_word m 16 (UInt64.ofNat 24)
  rw [emptied]
  refine ⟨header₁.congr fun x inside => before (by have := inside.2; omega), trivial, word, ?_⟩
  intro x beyond
  rw [span_nil] at beyond
  by_cases covered : x < size
  · have bound : x - 24 < body.bytes.length := by
      simp only [body, List.length_replicate]
      omega
    have written := write_at m₁ body (x - 24) bound
    have address : body.address + (x - 24) = x := Nat.add_sub_cancel' beyond
    rw [address] at written
    rw [written]
    exact List.getElem_replicate _
  · rw [write_frame, other (Or.inr beyond)]
    · exact stored.clear x (by omega)
    · rintro ⟨_, upper⟩
      simp only [List.length_replicate] at upper
      omega

end PageUnit

/-- The page files of a journal whose writer rolls back after `size` pages. -/
structure RingLayout (location : JLocation) (size : Nat) (files : JournalFiles)
    (log : Log) : Prop where
  ids : ∀ p, p ∈ files.ids ↔ 1 ≤ p ∧ p ≤ min log.lastPageId size
  mappable : ∀ p, files.mappable p = true
  fileSize : ∀ p ∈ files.ids, (files.file p).size = findPageSize location
  bounded : PagedLog.Bounded Frame.size (pageRoom (findPageSize location)) log
  /-- Of the pages the last `size` ones are there. -/
  page : ∀ i fs, log.stored[i]? = some fs → log.lastPageId ≤ i + size →
    PageUnit.Stored (findPageSize location) (files.bytes (slot size (i + 1))) fs

namespace Writer.Handle

/-- The page that is marked as rolled back: none in the first lap, later the current one. -/
def ringMark (size n : Nat) : Nat := if n ≤ size then 0 else slot size n

/-- A writer between two writes, behind the last frame of the ring. -/
def ringEnd (w : Handle) (size : Nat) (log : Log) : Writer :=
  (w.placed (slot size log.lastPageId)
    (24 + span log.current) log.current.length 0 false).rolling size
    (ringMark size log.lastPageId)

end Writer.Handle

namespace RingLayout

variable {location : JLocation} {size : Nat} {files : JournalFiles} {log : Log}

theorem current (layout : RingLayout location size files log) (positive : 1 ≤ size) :
    PageUnit.Stored (findPageSize location) (files.bytes (slot size log.lastPageId)) log.current :=
  layout.page log.closed.length log.current (by simp [Log.stored]) (by rw [Log.lastPageId]; omega)

theorem current_inside (layout : RingLayout location size files log) :
    24 + span log.current + 40 < findPageSize location := by
  have bounded := layout.bounded.current
  have room := pageRoom_bounds location
  rw [used_eq_span] at bounded
  omega

/-- The ring before the first frame. -/
theorem start (location : JLocation) (positive : 1 ≤ size) :
    RingLayout location size
      (JournalFiles.fresh.addPage 1 (findPageSize location)) PagedLog.empty := by
  have layout := Layout.start location
  refine ⟨?_, layout.mappable, layout.size, layout.bounded, ?_⟩
  · intro p
    have last : Log.lastPageId PagedLog.empty = 1 := rfl
    rw [layout.mem_ids, last, Nat.min_eq_left positive]
  · intro i fs page _
    have first : i = 0 := by
      cases i with
      | zero => rfl
      | succ i => simp [Log.stored, PagedLog.empty] at page
    subst first
    have stored := layout.page 0 fs page
    rwa [slot_first (le_refl 1) positive]

/-- A frame stored on the current page. -/
theorem store (layout : RingLayout location size files log)
    (stored : PageUnit.Stored (findPageSize location)
      ((files.bytes (slot size log.lastPageId)).execAll ops) fs)
    (bounded : span fs < pageRoom (findPageSize location)) :
    RingLayout location size (files.store (slot size log.lastPageId) ops) ⟨log.closed, fs⟩ := by
  refine ⟨layout.ids, layout.mappable, ?_, ⟨layout.bounded.closed, bounded⟩, ?_⟩
  · intro p member
    rw [JournalFiles.store_size]
    exact layout.fileSize p member
  · intro i gs page retained
    change log.lastPageId ≤ i + size at retained
    by_cases last : i = log.closed.length
    · subst last
      obtain rfl : fs = gs := by simpa [Log.stored] using page
      exact (JournalFiles.store_bytes_same files).symm ▸ stored
    · have bound := (List.getElem?_eq_some_iff.mp page).1
      simp only [Log.stored_length, Log.lastPageId] at bound
      have other : slot size (i + 1) ≠ slot size log.lastPageId :=
        slot_ne (by omega) (by rw [Log.lastPageId]; omega) (by omega)
      rw [JournalFiles.store_bytes_other _ other]
      apply layout.page i gs ?_ retained
      simp only [Log.stored] at page ⊢
      rw [List.getElem?_append_left (by simp; omega)] at page ⊢
      exact page

end RingLayout

namespace Journal

/-- Loading a page does not look at the rollback members. -/
theorem loadPage_rolling (ran : loadPage p (j, files) = .ok () (j', files')) (size mark : Nat) :
    loadPage p (j.rolling size mark, files) = .ok () (j'.rolling size mark, files') := by
  by_cases same : j.page.map PageUnit.pageId = some p
  · simp only [loadPage, bind_apply, get_apply, ne_eq, same, not_true_eq_false,
      if_false, modify_apply, EStateM.Result.ok.injEq, Prod.mk.injEq, true_and] at ran
    obtain ⟨rfl, rfl⟩ := ran
    simp only [loadPage, bind_apply, get_apply, rolling, ne_eq, same, not_true_eq_false,
      if_false, modify_apply]
  · cases loaded : PageUnit.load j.location j.destId p j.isWriting j.isLazy files with
    | error e t =>
      have failed := onSnd_error (s := j) loaded
      simp only [loadPage, bind_apply, get_apply, ne_eq, same, not_false_eq_true, if_true,
        failed] at ran
      contradiction
    | ok q t =>
      have here := onSnd_ok (s := j) loaded
      have here' := onSnd_ok (s := j.rolling size mark) loaded
      simp only [loadPage, bind_apply, get_apply, ne_eq, same, not_false_eq_true, if_true,
        here, modify_apply, EStateM.Result.ok.injEq, Prod.mk.injEq, true_and] at ran
      obtain ⟨rfl, rfl⟩ := ran
      simp only [rolling] at here'
      simp only [loadPage, bind_apply, get_apply, rolling, ne_eq, same, not_false_eq_true,
        if_true, here', modify_apply]

end Journal

namespace Opening

variable {o : Opening} {files : JournalFiles} {size mark k p : Nat}

/-- A page of the ring is loaded as it is, the current one included. -/
theorem loadPage_stored (present : p ∈ files.ids) (mappable : files.mappable p = true)
    (fileSize : (files.file p).size = findPageSize o.location)
    (stored : PageUnit.Stored (findPageSize o.location) (files.bytes p) fs)
    (inside : 24 + span fs < findPageSize o.location) (a nb : Nat) :
    Journal.loadPage p (o.placed k a nb, files) = .ok () (o.placed p 24 0, files) := by
  have loaded := onSnd_ok (s := o.placed k a nb)
    (PageUnit.load_existing present mappable fileSize stored inside o.destId o.isWriting o.isLazy)
  have first := stored.header.firstFrameAddress
  simp only [placed] at loaded
  by_cases same : k = p
  · subst same
    simp [Journal.loadPage, placed, first]
  · simp [Journal.loadPage, placed, loaded, first, same]

/-- In the first lap a page change only creates a page. -/
theorem loadNextPage_created (inside : k < size) (unmarked : mark ≠ k)
    (loaded :
      Journal.loadPage (k + 1) (o.placed k a nb, files) = .ok () (o.placed (k + 1) 24 0, files')) :
    Journal.loadNextPage ((o.placed k a nb).rolling size mark, files) =
      .ok () ((o.placed (k + 1) 24 0).rolling size mark, files') := by
  have loaded := Journal.loadPage_rolling loaded size mark
  simp only [placed, Journal.rolling] at loaded
  simp [Journal.loadNextPage, Journal.currentPage, placed, Journal.rolling, inside,
    loaded, unmarked]

/-- From then on it empties the page it goes to, and marks it. -/
theorem loadNextPage_emptied (writing : o.isWriting = true) (rolls : size ≠ 0)
    (lap : k < size → mark = k) (target : (if k < size then k + 1 else 1) = p)
    (loaded : Journal.loadPage p (o.placed k a nb, files) = .ok () (o.placed p 24 0, files')) :
    Journal.loadNextPage ((o.placed k a nb).rolling size mark, files) =
      .ok () ((o.placed p 24 0).rolling size p, files'.store p PageUnit.reinitialize) := by
  have loaded := Journal.loadPage_rolling loaded size mark
  simp only [placed, Journal.rolling, writing] at loaded
  by_cases inside : k < size
  · rw [if_pos inside] at target
    obtain rfl := lap inside
    subst target
    simp [Journal.loadNextPage, Journal.reinitializePage, Journal.store,
      Journal.currentPage, placed, Journal.rolling, inside, loaded, writing]
  · rw [if_neg inside] at target
    subst target
    simp [Journal.loadNextPage, Journal.reinitializePage, Journal.store,
      Journal.currentPage, placed, Journal.rolling, inside, loaded, rolls, writing]

end Opening

namespace RingLayout

variable {location : JLocation} {size : Nat} {files : JournalFiles} {log : Log}

theorem page_inside {i : Nat} (layout : RingLayout location size files log)
    (page : log.stored[i]? = some fs) :
    24 + span fs < findPageSize location := by
  have member := List.mem_of_getElem? page
  have room := pageRoom_bounds location
  rw [Log.stored, List.mem_append, List.mem_map, List.mem_singleton] at member
  rcases member with ⟨⟨fs, mark⟩, closed, rfl⟩ | rfl
  · have bounded := layout.bounded.closed _ closed
    simp only [used_eq_span] at bounded
    simp only [span_append, span_cons, span_nil, mark.size_eq]
    omega
  · have := layout.current_inside
    omega

/-- Once a lap is full, the next slot holds the oldest page. -/
theorem oldest (layout : RingLayout location size files log) (positive : 1 ≤ size)
    (full : size ≤ log.lastPageId) :
    slot size (log.lastPageId + 1) ∈ files.ids ∧ ∃ fs, 24 + span fs < findPageSize location ∧
      PageUnit.Stored (findPageSize location)
        (files.bytes (slot size (log.lastPageId + 1))) fs := by
  constructor
  · rw [layout.ids, Nat.min_eq_right full]
    exact ⟨slot_pos _ _, slot_le positive _⟩
  · have bound : log.lastPageId - size < log.stored.length := by
      rw [Log.stored_length]
      omega
    have page := List.getElem?_eq_getElem bound
    have stored := layout.page _ _ page (by omega)
    have same : slot size (log.lastPageId - size + 1) = slot size (log.lastPageId + 1) := by
      rw [← slot_lap size (by omega), show log.lastPageId - size + 1 + size =
        log.lastPageId + 1 by omega]
    rw [same] at stored
    exact ⟨_, layout.page_inside page, stored⟩

end RingLayout

namespace Writer.Handle

variable {w : Handle} {files files' : JournalFiles} {log : Log} {k k' a nb n size mark mark' : Nat}
    {locked : Bool}

@[simp] theorem currentPage_rolling :
    onJournal Journal.currentPage ((w.placed k a nb n locked).rolling size mark, files) =
      .ok ⟨k, findPageSize w.location⟩ ((w.placed k a nb n locked).rolling size mark, files) := rfl

@[simp] theorem store_rolling (ops : List StoreOp) :
    onJournal (Journal.store ops) ((w.placed k a nb n locked).rolling size mark, files) =
      .ok () ((w.placed k a nb n locked).rolling size mark, files.store k ops) := rfl

@[simp] theorem lock_rolling :
    lock ((w.placed k a nb n false).rolling size mark, files) =
      .ok () ((w.placed k a nb n true).rolling size mark, files) := rfl

@[simp] theorem setSizeToWrite_rolling :
    setSizeToWrite length ((w.placed k a nb n locked).rolling size mark, files) =
      .ok () ((w.placed k a nb length locked).rolling size mark, files) := rfl

/-- The files in which the page change finds or makes an empty page. -/
def nextRing (w : Handle) (size : Nat) (log : Log) (files : JournalFiles) : JournalFiles :=
  if log.lastPageId < size then files.addPage (log.lastPageId + 1) (findPageSize w.location)
  else files.store (slot size (log.lastPageId + 1)) PageUnit.reinitialize

theorem loadNextPage_ring (w : Handle) (layout : RingLayout w.location size files log)
    (positive : 1 ≤ size) (a nb : Nat) :
    Journal.loadNextPage ((w.opening.placed (slot size log.lastPageId) a nb).rolling size
        (ringMark size log.lastPageId), files) =
      .ok () ((w.opening.placed (slot size (log.lastPageId + 1)) 24 0).rolling size
        (ringMark size (log.lastPageId + 1)), w.nextRing size log files) := by
  have first : 1 ≤ log.lastPageId := by
    rw [Log.lastPageId]
    omega
  by_cases lap : log.lastPageId < size
  · have absent : log.lastPageId + 1 ∉ files.ids := by
      rw [layout.ids]
      omega
    have created :
        Journal.loadPage (log.lastPageId + 1) (w.opening.placed log.lastPageId a nb, files) = _ :=
      Opening.loadPage_new absent (layout.mappable _) rfl (by omega)
    have unmarked : ringMark size log.lastPageId = 0 := if_pos lap.le
    have unmarked' : ringMark size (log.lastPageId + 1) = 0 := if_pos lap
    rw [slot_first first lap.le, slot_first (by omega) lap, unmarked, unmarked',
      nextRing, if_pos lap]
    exact Opening.loadNextPage_created lap (by omega) created
  · have full : size ≤ log.lastPageId := not_lt.mp lap
    obtain ⟨present, fs, inside, stored⟩ := layout.oldest positive full
    have loaded := Opening.loadPage_stored (o := w.opening) (k := slot size log.lastPageId) present
      (layout.mappable _) (layout.fileSize _ present) stored inside a nb
    have marked : ringMark size (log.lastPageId + 1) = slot size (log.lastPageId + 1) :=
      if_neg (by omega)
    rw [nextRing, if_neg lap, marked]
    refine Opening.loadNextPage_emptied rfl (by omega) ?_ (slot_succ positive first).symm loaded
    intro below
    have later : ¬ log.lastPageId ≤ size := by
      intro le
      rw [slot_first first le] at below
      omega
    exact if_neg later

theorem closePage_rolling (w : Handle) (n : Nat) (t pe : Int64) (locked : Bool)
    (moved : Journal.loadNextPage ((w.opening.placed k a nb).rolling size mark, files) =
      .ok () ((w.opening.placed k' 24 0).rolling size mark', files'))
    (behind :
      FrameUnit.moveToNext (files'.bytes k) (PageUnit.lastFrameAddress (files'.bytes k)) = b) :
    closePage t pe ((w.placed k a nb n locked).rolling size mark, files) =
      .ok () ((w.placed k' 24 0 n locked).rolling size mark',
        files'.store k (sealStores b t pe w.location.uid w.destId)) := by
  have moved := onJournal_ok (w := (w.placed k a nb n locked).rolling size mark) moved
  simp only [closePage, bind_apply, get_apply, currentPage_rolling, moved, modify_apply, behind]
  rfl

/-- The files after the page change: the page that is left is sealed. With one page for the
whole ring that page is already emptied, and the marker goes to its beginning. -/
def turnedFiles (w : Handle) (size : Nat) (log : Log) (t pe : Int64) (files : JournalFiles) :
    JournalFiles :=
  (w.nextRing size log files).store (slot size log.lastPageId)
    (sealStores (if size = 1 then 24 else 24 + span log.current) t pe w.location.uid w.destId)

variable {t pe : Int64}

theorem nextRing_other (w : Handle) (files : JournalFiles)
    (other : q ≠ slot size (log.lastPageId + 1)) :
      (w.nextRing size log files).bytes q = files.bytes q := by
  by_cases lap : log.lastPageId < size
  · rw [slot_first (by omega) lap] at other
    rw [nextRing, if_pos lap, JournalFiles.addPage_bytes_other _ other]
  · rw [nextRing, if_neg lap, JournalFiles.store_bytes_other _ other]

/-- The page that is gone to has no frames. -/
theorem nextRing_emptied (w : Handle) (layout : RingLayout w.location size files log)
    (positive : 1 ≤ size) :
    PageUnit.Stored (findPageSize w.location)
      ((w.nextRing size log files).bytes (slot size (log.lastPageId + 1))) [] := by
  have bounds := findPageSize_bounds w.location
  have mib : mebibyte = 1048576 := rfl
  by_cases lap : log.lastPageId < size
  · rw [nextRing, if_pos lap, slot_first (by omega) lap, JournalFiles.addPage_bytes_same]
    exact PageUnit.initial_stored _
  · obtain ⟨_, fs, inside, stored⟩ := layout.oldest positive (not_lt.mp lap)
    rw [nextRing, if_neg lap, JournalFiles.store_bytes_same]
    exact stored.emptied (by omega) (by omega) inside.le

theorem closePage_ring (w : Handle) (layout : RingLayout w.location size files log)
    (positive : 1 ≤ size) (a nb n : Nat) (t pe : Int64) (locked : Bool) :
    closePage t pe ((w.placed (slot size log.lastPageId) a nb n locked).rolling size
        (ringMark size log.lastPageId), files) =
      .ok () ((w.placed (slot size (log.lastPageId + 1)) 24 0 n locked).rolling size
        (ringMark size (log.lastPageId + 1)), w.turnedFiles size log t pe files) := by
  have bounds := findPageSize_bounds w.location
  have mib : mebibyte = 1048576 := rfl
  refine w.closePage_rolling n t pe locked (w.loadNextPage_ring layout positive a nb) ?_
  by_cases one : size = 1
  · subst one
    have emptied := nextRing_emptied w layout positive
    have same (p : Nat) : slot 1 p = 1 := by rw [slot, Nat.mod_one]
    rw [same] at emptied ⊢
    exact emptied.last_moveToNext (by simp)
  · have inside := layout.current_inside
    have other : slot size log.lastPageId ≠ slot size (log.lastPageId + 1) :=
      slot_ne (by rw [Log.lastPageId]; omega) (Nat.lt_succ_self _) (by omega)
    rw [if_neg one, w.nextRing_other files other]
    exact (layout.current positive).last_moveToNext (by omega)

theorem turnedFiles_blank (w : Handle) (layout : RingLayout w.location size files log)
    (positive : 1 ≤ size) (t pe : Int64) :
    PageUnit.Blank (findPageSize w.location)
      ((w.turnedFiles size log t pe files).bytes (slot size (log.lastPageId + 1))) := by
  have emptied := nextRing_emptied w layout positive
  by_cases one : size = 1
  · subst one
    have same (p : Nat) : slot 1 p = 1 := by rw [slot, Nat.mod_one]
    rw [same] at emptied ⊢
    rw [turnedFiles, same, JournalFiles.store_bytes_same]
    exact (emptied.sealed t pe w.location.uid w.destId).blank (le_refl 40)
  · have other : slot size log.lastPageId ≠ slot size (log.lastPageId + 1) :=
      slot_ne (by rw [Log.lastPageId]; omega) (Nat.lt_succ_self _) (by omega)
    rw [turnedFiles, JournalFiles.store_bytes_other _ other.symm]
    exact emptied.blank (by simp)

theorem turnedFiles_sealed (w : Handle) (layout : RingLayout w.location size files log)
    (several : 2 ≤ size) (t pe : Int64) :
    PageUnit.Stored (findPageSize w.location)
      ((w.turnedFiles size log t pe files).bytes (slot size log.lastPageId))
      (log.current ++ [pageEndFrame t pe w.location.uid w.destId]) := by
  have other : slot size log.lastPageId ≠ slot size (log.lastPageId + 1) :=
    slot_ne (by rw [Log.lastPageId]; omega) (Nat.lt_succ_self _) (by omega)
  rw [turnedFiles, JournalFiles.store_bytes_same, w.nextRing_other files other, if_neg (by omega)]
  exact (layout.current (by omega)).sealed t pe w.location.uid w.destId

/-- The first frame on the page that was gone to. -/
theorem turned_layout (w : Handle) (layout : RingLayout w.location size files log)
    (positive : 1 ≤ size)
    (places : Places stores f) (small : f.size < pageRoom (findPageSize w.location))
    (t pe : Int64) :
    RingLayout w.location size
      ((w.turnedFiles size log t pe files).store (slot size (log.lastPageId + 1)) (stores 24))
      ⟨log.closed ++ [(log.current, .make t pe w.location.uid w.destId)], [f]⟩ := by
  have last :
      Log.lastPageId ⟨log.closed ++ [(log.current, .make t pe w.location.uid w.destId)], [f]⟩ =
      log.lastPageId + 1 := by simp [Log.lastPageId]
  have created {p : Nat} (lap : log.lastPageId < size) :
      p ∈ (w.nextRing size log files).ids ↔ p ∈ files.ids ∨ p = log.lastPageId + 1 := by
    rw [nextRing, if_pos lap]
    simp [JournalFiles.addPage]
  have kept {p : Nat} (lap : ¬ log.lastPageId < size) :
      p ∈ (w.nextRing size log files).ids ↔ p ∈ files.ids := by
        rw [nextRing, if_neg lap, JournalFiles.store_ids]
  constructor
  · intro p
    rw [last, JournalFiles.store_ids, turnedFiles, JournalFiles.store_ids]
    by_cases lap : log.lastPageId < size
    · rw [created lap, layout.ids]
      omega
    · rw [kept lap, layout.ids]
      omega
  · intro p
    rw [JournalFiles.store_mappable, turnedFiles, JournalFiles.store_mappable, nextRing]
    split
    · exact layout.mappable p
    · exact layout.mappable p
  · intro p member
    rw [JournalFiles.store_ids, turnedFiles, JournalFiles.store_ids] at member
    rw [JournalFiles.store_size, turnedFiles, JournalFiles.store_size]
    by_cases lap : log.lastPageId < size
    · rw [created lap] at member
      rw [nextRing, if_pos lap]
      by_cases new : p = log.lastPageId + 1
      · subst new
        simp [JournalFiles.addPage]
      · simpa [JournalFiles.addPage, Function.update_of_ne new] using
          layout.fileSize p (member.resolve_right new)
    · rw [kept lap] at member
      rw [nextRing, if_neg lap, JournalFiles.store_size]
      exact layout.fileSize p member
  · refine ⟨?_, by simpa using small⟩
    intro page member
    rcases List.mem_append.mp member with member | member
    · exact layout.bounded.closed page member
    · rw [List.mem_singleton.mp member]
      exact layout.bounded.current
  · intro i fs page retained
    rw [last] at retained
    have bound := (List.getElem?_eq_some_iff.mp page).1
    rw [Log.stored_length, last] at bound
    have first : 1 ≤ log.lastPageId := Nat.le_add_left _ _
    simp only [Log.stored, List.map_append, List.map_cons, List.map_nil, List.append_assoc] at page
    rcases Nat.lt_trichotomy (i + 1) log.lastPageId with before | here | after
    · -- an older page is neither left nor gone to
      have old : log.stored[i]? = some fs := by
        rw [Log.stored]
        rw [Log.lastPageId] at before
        rw [List.getElem?_append_left (by simp; omega)] at page ⊢
        exact page
      have leaves : slot size (i + 1) ≠ slot size log.lastPageId :=
        slot_ne (by omega) before (by omega)
      have enters : slot size (i + 1) ≠ slot size (log.lastPageId + 1) :=
        slot_ne (by omega) (by omega) (by omega)
      rw [JournalFiles.store_bytes_other _ enters, turnedFiles,
        JournalFiles.store_bytes_other _ leaves, w.nextRing_other files enters]
      exact layout.page i fs old (by omega)
    · have index : i = log.closed.length := Nat.succ_injective here
      obtain rfl : log.current ++ [pageEndFrame t pe w.location.uid w.destId] = fs := by
        subst index
        simpa [PageEnd.make] using page
      have enters : slot size (i + 1) ≠ slot size (log.lastPageId + 1) :=
        slot_ne (by omega) (by omega) (by omega)
      rw [JournalFiles.store_bytes_other _ enters, here]
      exact turnedFiles_sealed w layout (by omega) t pe
    · have index : i = log.lastPageId := by omega
      obtain rfl : [f] = fs := by
        subst index
        simpa [Log.lastPageId] using page
      rw [index, JournalFiles.store_bytes_same]
      exact (turnedFiles_blank w layout positive t pe).place places

end Writer.Handle
end BTrader
