import BTrader.Journal.Layout

/-! `seekToTime` over a journal layout: the page found backwards by begin time,
the pages passed over as full, and the frames passed over in the page reached. -/
namespace BTrader
open ByteMemory Infra Procedure

namespace Log

/-- The frame is skipped when the journal seeks to `time`. -/
def Due (time : Int64) (f : Frame) : Prop := 0 < f.msgType ∧ f.genTime ≤ time

instance (time : Int64) (f : Frame) : Decidable (Due time f) := inferInstanceAs (Decidable (_ ∧ _))

def due (time : Int64) (fs : List Frame) : List Frame := fs.takeWhile (fun f => decide (Due time f))

def beginTime (fs : List Frame) : Int64 := (fs.head?.map Frame.genTime).getD 0

def endTime (fs : List Frame) : Int64 := (fs.getLast?.map Frame.genTime).getD 0

/-- `findPageId` lands on the page of that index: no later page begins before
`time`, and the page itself does unless it is the first one. -/
structure Found (log : Log) (time : Int64) (i : Nat) : Prop where
  bound : i < log.stored.length
  later : ∀ j fs, i < j → log.stored[j]? = some fs → time = 0 ∨ ¬ beginTime fs < time
  earlier : i = 0 ∨ time ≠ 0 ∧ ∀ fs, log.stored[i]? = some fs → beginTime fs < time

/-- The page is full as `isFull` tests it, and its last stamp is not after `time`. -/
def Passed (size : Nat) (time : Int64) (fs : List Frame) : Prop :=
  size - 40 < 24 + span fs ∧ endTime fs ≤ time

instance (size : Nat) (time : Int64) (fs : List Frame) : Decidable (Passed size time fs) :=
  inferInstanceAs (Decidable (_ ∧ _))

/-- Where `seekToTime` leaves the cursor. -/
structure Landing (size : Nat) (log : Log) (time : Int64) (i : Nat) (fs : List Frame) : Prop where
  page : log.stored[i]? = some fs
  stops : ¬ Passed size time fs
  found : ∃ start, Found log time start ∧ start ≤ i ∧
    ∀ j gs, start ≤ j → j < i → log.stored[j]? = some gs → Passed size time gs

theorem Landing.onlyPage {size i : Nat} {log : Log} {time : Int64} {fs : List Frame}
    (landing : Landing size log time i fs) (only : log.closed = []) : i = 0 ∧ fs = log.current := by
  have page := landing.page
  simp only [stored, only, List.map_nil, List.nil_append] at page
  cases i with
  | zero => exact ⟨rfl, by simpa [eq_comm] using page⟩
  | succ i => simp at page

end Log

theorem length_le_span (fs : List Frame) : 40 * fs.length ≤ span fs := by
  induction fs with
  | nil => simp
  | cons f fs ih =>
    have := f.size_eq
    rw [span_cons, List.length_cons]
    omega

namespace PageUnit

variable {location : JLocation} {files : JournalFiles} {log : Log}

theorem findBackwards_eq (layout : Layout location files log) (destId : UInt32) (time : Int64)
    (pageIds : List Nat) (present : ∀ p ∈ pageIds, p ∈ files.ids) :
    findBackwards location destId time pageIds files =
      .ok (pageIds.find? (fun p => decide (beginTime (files.bytes p) < time))) files := by
  induction pageIds with
  | nil => rfl
  | cons p rest ih =>
    have bounds := layout.mem_ids.mp (present p List.mem_cons_self)
    have loaded := layout.load bounds.1 bounds.2 destId false true
    have rest := ih (fun q member => present q (List.mem_cons_of_mem _ member))
    by_cases before : beginTime (files.bytes p) < time
    · simp [findBackwards, loaded, before]
    · simp [findBackwards, loaded, before, rest]

theorem find_last {n p : Nat} {test : Nat → Bool}
    (found : (List.range' 1 n).reverse.find? test = some p) :
    1 ≤ p ∧ p ≤ n ∧ test p = true ∧ ∀ q, p < q → q ≤ n → test q = false := by
  obtain ⟨holds, before, after, split, fails⟩ := List.find?_eq_some_iff_append.mp found
  have sorted : (before ++ p :: after).Pairwise (· > ·) := by
    rw [← split, List.pairwise_reverse]
    exact List.pairwise_lt_range'
  have member : p ∈ (List.range' 1 n).reverse := List.mem_of_find?_eq_some found
  rw [List.mem_reverse, List.mem_range'_1] at member
  refine ⟨member.1, by omega, holds, ?_⟩
  intro q later bound
  have present : q ∈ before ++ p :: after := by
    rw [← split, List.mem_reverse, List.mem_range'_1]
    omega
  rw [List.mem_append, List.mem_cons] at present
  rcases present with early | same | late
  · simpa using fails q early
  · omega
  · have := (List.pairwise_cons.mp (List.pairwise_append.mp sorted).2.1).1 q late
    omega

theorem findPageId_spec (layout : Layout location files log) (destId : UInt32) (time : Int64) :
    ∃ i, Log.Found log time i ∧ findPageId location destId time files = .ok (i + 1) files := by
  have sorted : listPageId files = 1 :: List.range' 2 log.closed.length := by
    have ascending :
        (List.range' 1 (log.closed.length + 1)).Pairwise (fun p q => decide (p ≤ q) = true) := by
      simpa using List.pairwise_le_range' (s := 1) (n := log.closed.length + 1)
    rw [listPageId, layout.ids, Log.lastPageId]
    exact List.mergeSort_of_pairwise ascending
  have ids : (1 : Nat) :: List.range' 2 log.closed.length = List.range' 1 log.lastPageId := rfl
  have begins : ∀ j fs, log.stored[j]? = some fs →
      beginTime (files.bytes (j + 1)) = Log.beginTime fs :=
    fun j fs page => (layout.page j fs page).beginTime
  by_cases zero : time = 0
  · refine ⟨0, ⟨?_, fun _ _ _ _ => Or.inl zero, Or.inl rfl⟩, ?_⟩
    · rw [Log.stored_length, Log.lastPageId]
      omega
    · simp [findPageId, sorted, zero]
  have back := findBackwards_eq layout destId time (List.range' 1 log.lastPageId).reverse
    (fun p member => by rw [layout.ids]; exact List.mem_reverse.mp member)
  cases search : (List.range' 1 log.lastPageId).reverse.find?
      (fun p => decide (beginTime (files.bytes p) < time)) with
  | none =>
    rw [search, ← ids] at back
    refine ⟨0, ⟨?_, ?_, Or.inl rfl⟩, ?_⟩
    · rw [Log.stored_length, Log.lastPageId]
      omega
    · intro j fs _ page
      have bound := (List.getElem?_eq_some_iff.mp page).1
      rw [Log.stored_length] at bound
      have fails := List.find?_eq_none.mp search (j + 1) (by
        rw [List.mem_reverse, List.mem_range'_1]
        omega)
      rw [begins j fs page] at fails
      exact Or.inr (by simpa using fails)
    · simp only [findPageId, bind_apply, get_apply, sorted, zero, if_false, back]
      rfl
  | some p =>
    rw [search, ← ids] at back
    obtain ⟨positive, bound, holds, later⟩ := find_last search
    have index : p - 1 + 1 = p := by omega
    refine ⟨p - 1, ⟨?_, ?_, Or.inr ⟨zero, ?_⟩⟩, ?_⟩
    · rw [Log.stored_length]
      omega
    · intro j fs after page
      have bound := (List.getElem?_eq_some_iff.mp page).1
      rw [Log.stored_length] at bound
      have fails := later (j + 1) (by omega) (by omega)
      rw [begins j fs page] at fails
      exact Or.inr (by simpa using fails)
    · intro fs page
      rw [← begins _ fs page, index]
      simpa using holds
    · simp only [findPageId, bind_apply, get_apply, sorted, zero, if_false, back, index]
      rfl

end PageUnit

theorem page_passed {i : Nat} {files : JournalFiles} {log : Log}
    (layout : Layout location files log) (page : log.stored[i]? = some fs) (time : Int64) :
    (PageUnit.isFull (files.bytes (i + 1)) = true ∧ PageUnit.endTime (files.bytes (i + 1)) ≤ time) ↔
      Log.Passed (findPageSize location) time fs := by
  have stored := layout.page i fs page
  have inside := layout.page_inside page
  have bounds := findPageSize_bounds location
  have mib : mebibyte = 1048576 := rfl
  rw [stored.isFull (by omega) (by omega), stored.endTime (by omega), decide_eq_true_eq]
  rfl

/-- Only a sealed page is ever passed. -/
theorem passed_closed {i : Nat} {files : JournalFiles} {log : Log}
    (layout : Layout location files log)
    (page : log.stored[i]? = some fs) (passed : Log.Passed (findPageSize location) time fs) :
    i < log.closed.length := by
  have bound := (List.getElem?_eq_some_iff.mp page).1
  rw [Log.stored_length, Log.lastPageId] at bound
  by_contra last
  have current : fs = log.current := by
    have : i = log.closed.length := by omega
    subst this
    simpa [Log.stored, eq_comm] using page
  have inside := layout.current_inside
  have := passed.1
  rw [current] at this
  omega

namespace Opening
open Journal (skipFullPages skipFrames seekToTime)

variable {o : Opening} {files : JournalFiles} {log : Log}

theorem skipFullPages_spec (o : Opening) (layout : Layout o.location files log) (time : Int64)
    (bound : i < log.stored.length) (fuel : Nat) (enough : log.lastPageId < fuel + i + 1) :
    ∃ k fs, i ≤ k ∧ log.stored[k]? = some fs ∧ ¬ Log.Passed (findPageSize o.location) time fs ∧
      (∀ j gs, i ≤ j → j < k → log.stored[j]? = some gs →
        Log.Passed (findPageSize o.location) time gs) ∧
      skipFullPages time fuel (o.placed (i + 1) 24 0, files) =
        .ok () (o.placed (k + 1) 24 0, files) := by
  induction fuel generalizing i with
  | zero =>
    rw [Log.stored_length] at bound
    omega
  | succ fuel ih =>
    have page := List.getElem?_eq_getElem bound
    generalize log.stored[i] = fs at page
    have test := page_passed layout page time
    by_cases passed : Log.Passed (findPageSize o.location) time fs
    · have inner := passed_closed layout page passed
      have bound' : i + 1 < log.stored.length := by
        rw [Log.stored_length, Log.lastPageId]
        omega
      obtain ⟨k, gs, le, reached, stops, between, run⟩ := ih bound' (by omega)
      refine ⟨k, gs, by omega, reached, stops, ?_, ?_⟩
      · intro j hs lower upper here
        by_cases first : j = i
        · subst first
          rw [page] at here
          exact Option.some.inj here ▸ passed
        · exact between j hs (by omega) upper here
      · have loaded : Journal.loadPage (i + 1 + 1) (o.placed (i + 1) 24 0, files) =
            .ok () (o.placed (i + 1 + 1) 24 0, files) :=
          loadPage_placed layout (by omega) (by rw [Log.lastPageId]; omega)
        have next := loadNextPage_placed (by omega) loaded
        simp [skipFullPages, test, passed, next, run]
    · refine ⟨i, fs, le_refl _, page, passed, ?_, ?_⟩
      · intro j _ lower upper
        omega
      · simp [skipFullPages, test, passed]

theorem skipFrames_spec (o : Opening) {k : Nat} (layout : Layout o.location files log)
    (time : Int64)
    (passed : List Frame) (page : log.stored[k]? = some (passed ++ rest)) (fuel : Nat)
    (enough : rest.length < fuel) :
    skipFrames time fuel (o.placed (k + 1) (24 + span passed)
        passed.length, files) =
      .ok () (o.placed (k + 1) (24 + span (passed ++ Log.due time rest))
        (passed ++ Log.due time rest).length, files) := by
  have stored := layout.page k _ page
  induction rest generalizing passed fuel with
  | nil =>
    obtain ⟨fuel, rfl⟩ := Nat.exists_eq_add_of_lt enough
    rw [List.append_nil] at stored
    have slot := stored.slot_hasData
    simp [skipFrames, placed, Journal.currentPage, slot, Log.due]
  | cons f rest ih =>
    obtain ⟨fuel, rfl⟩ : ∃ n, fuel = n + 1 := ⟨fuel - 1, by simp at enough; omega⟩
    have holds := stored.chain.get
    have shift : passed ++ f :: rest = (passed ++ [f]) ++ rest := by simp
    by_cases due : Log.Due time f
    · have type : FrameUnit.msgType (files.bytes (k + 1)) (24 + span passed) ≠ pageEndTag := by
        rw [holds.msgType]
        intro zero
        have := due.1
        rw [zero] at this
        exact absurd this (by decide)
      have moved := next_placed (o := o) passed.length type
      rw [holds.moveToNext] at moved
      have run := ih (passed ++ [f]) (shift ▸ page) fuel (by simp at enough; omega)
        (shift ▸ stored)
      have taken : Log.due time (f :: rest) = f :: Log.due time rest := by
        simp [Log.due, due]
      simp only [span_append, span_cons, span_nil, Nat.add_zero, ← Nat.add_assoc,
        List.length_append,
        List.length_singleton, List.append_assoc, List.singleton_append, ← taken] at run ⊢
      have test : FrameUnit.hasData (files.bytes (k + 1)) (24 + span passed) = true ∧
          FrameUnit.genTime (files.bytes (k + 1)) (24 + span passed) ≤ time := by
        rw [holds.hasData, holds.genTime]
        simpa [Log.Due] using due
      rw [skipFrames]
      simp only [bind_apply, currentPage_placed, get_apply]
      rw [show (o.placed (k + 1) (24 + span passed)
        passed.length).frame = 24 + span passed from rfl, if_pos test, bind_ok moved, run]
    · have taken : Log.due time (f :: rest) = [] := by
        simp [Log.due, due]
      have test : ¬ (FrameUnit.hasData (files.bytes (k + 1)) (24 + span passed) = true ∧
          FrameUnit.genTime (files.bytes (k + 1)) (24 + span passed) ≤ time) := by
        rw [holds.hasData, holds.genTime]
        simpa [Log.Due] using due
      rw [taken, List.append_nil, skipFrames]
      simp only [bind_apply, currentPage_placed, get_apply]
      rw [show (o.placed (k + 1) (24 + span passed)
        passed.length).frame = 24 + span passed from rfl, if_neg test]
      rfl

/-- A fresh journal object seeks to the landing page and passes its due frames. -/
theorem seekToTime_spec (o : Opening) (layout : Layout o.location files log) (time : Int64) :
    ∃ k fs, Log.Landing (findPageSize o.location) log time k fs ∧
      seekToTime time (o.make, files) =
        .ok () (o.placed (k + 1) (24 + span (Log.due time fs))
          (Log.due time fs).length, files) := by
  obtain ⟨i, found, search⟩ := PageUnit.findPageId_spec layout o.destId time
  have upper : i + 1 ≤ log.lastPageId := by
    have := found.bound
    rw [Log.stored_length] at this
    omega
  obtain ⟨k, fs, le, page, stops, between, skipped⟩ :=
    o.skipFullPages_spec layout time found.bound (files.ids.length + 1) (by
        rw [layout.ids, List.length_range']
        omega)
  refine ⟨k, fs, ⟨page, stops, i, found, le, between⟩, ?_⟩
  have frames : fs.length < findPageSize o.location + 1 := by
    have := layout.page_inside page
    have := length_le_span fs
    omega
  have run := o.skipFrames_spec layout time [] page (findPageSize o.location + 1) frames
  simp only [span_nil, Nat.add_zero, List.length_nil, List.nil_append] at run
  have opened := o.loadPage_make layout (by omega : 1 ≤ i + 1) upper
  have found' := onSnd_ok (s := o.make) search
  simp only [seekToTime, bind_apply, get_apply]
  simp only [make, Journal.make] at found' opened ⊢
  rw [found']
  simp only [opened, skipped, run]

/-- On a journal without pages the first one is created and nothing is passed. -/
theorem seekToTime_fresh (o : Opening) (writable : master o.isWriting o.isLazy = true)
    (time : Int64) :
    seekToTime time (o.make, JournalFiles.fresh) =
      .ok () (o.placed 1 24 0,
        JournalFiles.fresh.addPage 1 (findPageSize o.location)) := by
  have layout := Layout.start o.location
  have search : PageUnit.findPageId o.location o.destId time JournalFiles.fresh =
      .ok 1 JournalFiles.fresh := by
    simp [PageUnit.findPageId, PageUnit.listPageId, JournalFiles.fresh]
  have found := onSnd_ok (s := o.make) search
  have opened : Journal.loadPage 1 (o.make, JournalFiles.fresh) = .ok () (o.placed 1 24 0,
      JournalFiles.fresh.addPage 1 (findPageSize o.location)) :=
    loadPage_create (by simp [JournalFiles.fresh]) rfl writable
  obtain ⟨k, fs, _, page, _, _, skipped⟩ :=
    o.skipFullPages_spec layout time
      (i := 0) (by simp [Log.stored]) 2 (by simp [Log.lastPageId, PagedLog.empty])
  have first : k = 0 ∧ fs = [] := by
    cases k with
    | zero => simpa [Log.stored, PagedLog.empty, eq_comm] using page
    | succ k => simp [Log.stored, PagedLog.empty] at page
  obtain ⟨rfl, rfl⟩ := first
  have run := o.skipFrames_spec layout time [] page (findPageSize o.location + 1) (by simp)
  simp only [seekToTime, bind_apply, get_apply]
  simp only [make, Journal.make] at found opened ⊢
  rw [found]
  simp only [opened]
  simp only [Nat.zero_add] at skipped run
  rw [show (JournalFiles.fresh.addPage 1 (findPageSize o.location)).ids.length + 1 =
    2 from rfl, skipped]
  simpa [Log.due] using run

/-- A lazy reader does not stretch the file it creates, so it finds no page in it. -/
theorem seekToTime_fresh_lazy (location : JLocation) (destId : UInt32) (time : Int64) :
    ∃ s, seekToTime time (make ⟨location, destId, false, true⟩, JournalFiles.fresh) =
      .error .beyondFile s := by
  have search : PageUnit.findPageId location destId time JournalFiles.fresh =
      .ok 1 JournalFiles.fresh := by
    simp [PageUnit.findPageId, PageUnit.listPageId, JournalFiles.fresh]
  have found := onSnd_ok (s := Opening.make ⟨location, destId, false, true⟩) search
  have failed : ∃ files, PageUnit.load location destId 1 false true JournalFiles.fresh =
      .error .beyondFile files := by
    refine ⟨JournalFiles.fresh.create 1, ?_⟩
    simp [PageUnit.load, loadMmapBuffer, JournalFiles.fresh, JournalFiles.create, master]
  obtain ⟨files, failed⟩ := failed
  have failed' := onSnd_error (s := Opening.make ⟨location, destId, false, true⟩) failed
  refine ⟨(make ⟨location, destId, false, true⟩, files), ?_⟩
  simp only [seekToTime, bind_apply, get_apply]
  simp only [make, Journal.make] at found failed' ⊢
  rw [found]
  simp [Journal.loadPage, failed']

end Opening
end BTrader
