import BTrader.Journal.PageWalk

/-! Constructing a writer on a journal that earlier writers left. The write position is
where the seek to the current time ends. -/
namespace BTrader
open ByteMemory Infra Procedure

namespace Log

/-- Seeking to `time` goes through to the end of the journal: every frame of the last page
is due, and each page from the one the search begins at is passed. -/
structure ReachesEnd (size : Nat) (log : Log) (time : Int64) : Prop where
  last : ∀ f ∈ log.current, Due time f
  earlier : ∀ start, Found log time start → ∀ j fs, start ≤ j → j < log.closed.length →
    log.stored[j]? = some fs → Passed size time fs

theorem Found.unique {log : Log} {time : Int64} (found : Found log time i)
    (found' : Found log time j) :
    i = j := by
  have notBefore {i j : Nat} (found : Found log time i) (found' : Found log time j) : ¬ i < j := by
    intro before
    rcases found'.earlier with first | ⟨positive, begins⟩
    · omega
    · have page := List.getElem?_eq_getElem found'.bound
      rcases found.later j _ before page with zero | late
      · exact positive zero
      · exact late (begins _ page)
  have := notBefore found found'
  have := notBefore found' found
  omega

theorem due_eq_self (all : ∀ f ∈ fs, Due time f) : due time fs = fs :=
  List.takeWhile_eq_self_iff.mpr fun f member => decide_eq_true (all f member)

theorem Landing.atEnd {size k : Nat} {log : Log} {time : Int64} {fs : List Frame}
    (landing : Landing size log time k fs) (reaches : ReachesEnd size log time) :
    k = log.closed.length ∧ fs = log.current ∧ due time fs = fs := by
  obtain ⟨start, found, le, _⟩ := landing.found
  have bound := (List.getElem?_eq_some_iff.mp landing.page).1
  rw [stored_length, lastPageId] at bound
  have last : k = log.closed.length := by
    by_contra other
    exact landing.stops (reaches.earlier start found k fs le (by omega) landing.page)
  subst last
  obtain rfl : log.current = fs := by simpa [stored] using landing.page
  exact ⟨rfl, rfl, due_eq_self reaches.last⟩

end Log

/-- Every frame of the journal before stays where it is, and the page walk finds the new
ones after them. -/
structure AppendOnly (location : JLocation) (log : Log) (files : JournalFiles)
    (new : List Frame) : Prop where
  unchanged : ∀ i fs a f, log.pages[i]? = some fs → (a, f) ∈ place 24 fs →
    Holds (files.bytes (i + 1)) a f
  appended : Walks location files (log.contents ++ new)

/-- Constructing a writer and writing is append-only, whatever it writes. -/
def ReopensAppending (location : JLocation) (destId : UInt32) (isLazy : Bool) (started now : Int64)
    (log : Log) (files : JournalFiles) : Prop :=
  ∀ ops : List WriteOp, (∀ op ∈ ops, op.Admissible location) →
    ∃ w files', Writer.session location destId isLazy started now ops files = .ok w files' ∧
      AppendOnly location log files' (ops.map (WriteOp.frame location.uid destId))

/-- What earlier writers left: the first of them began without pages, each later one found
the end of the journal. -/
inductive Left (location : JLocation) (destId : UInt32) : JournalFiles → Log → Prop
  | first (isLazy : Bool) (started now : Int64) (ops : List WriteOp) (w : Writer)
      (files : JournalFiles) (adm : ∀ op ∈ ops, op.Admissible location)
      (ran :
        Writer.session location destId isLazy started now ops JournalFiles.fresh = .ok w files) :
      Left location destId files (WriteOp.appendAll location destId PagedLog.empty ops)
  | again (isLazy : Bool) (started now : Int64) (ops : List WriteOp) (w : Writer)
      (files files' : JournalFiles) (log : Log) (left : Left location destId files log)
      (reaches : log.ReachesEnd (findPageSize location) now)
      (adm : ∀ op ∈ ops, op.Admissible location)
      (ran : Writer.session location destId isLazy started now ops files = .ok w files') :
      Left location destId files' (WriteOp.appendAll location destId log ops)

section Appending
variable {location : JLocation} {files : JournalFiles} {log : Log}

theorem Layout.unchanged {i : Nat} {fs more : List Frame} (layout : Layout location files log)
    (page : log.pages[i]? = some (fs ++ more))
    (member : (a, f) ∈ place 24 fs) : Holds (files.bytes (i + 1)) a f := by
  have bound := (List.getElem?_eq_some_iff.mp page).1
  simp only [PagedLog.pages, List.length_append, List.length_map, List.length_singleton] at bound
  by_cases last : i = log.closed.length
  · subst last
    obtain same : log.current = fs ++ more := by simpa [PagedLog.pages] using page
    have chain := layout.current.chain
    rw [same, chain_append] at chain
    exact chain.1.placed member
  · rw [PagedLog.pages, List.getElem?_append_left (by simp; omega), List.getElem?_map] at page
    obtain ⟨⟨gs, mark⟩, closed, rfl⟩ := Option.map_eq_some_iff.mp page
    have chain := (layout.closed closed).chain
    rw [List.append_assoc, chain_append] at chain
    exact chain.1.placed member

/-- A writer that finds the end of the journal goes on behind its last frame. -/
theorem Writer.session_reachesEnd (layout : Layout location files log) (destId : UInt32)
    (isLazy : Bool) (started now : Int64) (reaches : log.ReachesEnd (findPageSize location) now)
    {ops : List WriteOp} (adm : ∀ op ∈ ops, op.Admissible location) :
    ∃ w files', session location destId isLazy started now ops files = .ok w files' ∧
      Layout location files' (WriteOp.appendAll location destId log ops) := by
  obtain ⟨k, fs, landing, sought⟩ :=
    (⟨location, destId, true, isLazy⟩ : Opening).seekToTime_spec layout now
  obtain ⟨rfl, rfl, due⟩ := landing.atEnd reaches
  simp only [Opening.make, due] at sought
  have made : make location destId isLazy 0 started now files =
      .ok ((handleAt location destId isLazy started).atEnd log) files := by
    rw [make, sought]
    rfl
  obtain ⟨files', ran, layout'⟩ :=
    WriteOp.runAll_appendAll (handleAt location destId isLazy started) layout adm
  exact ⟨_, files', session_ok made ran, layout'⟩

theorem WriteOp.pages_appendAll {i : Nat} {fs : List Frame} (location : JLocation) (destId : UInt32)
    (page : log.pages[i]? = some fs) (ops : List WriteOp) :
    ∃ more, (WriteOp.appendAll location destId log ops).pages[i]? = some (fs ++ more) := by
  rw [WriteOp.appendAll_eq]
  exact PagedLog.pages_appendAll page _

theorem reopens_of_reachesEnd (layout : Layout location files log)
    (types : ∀ f ∈ log.contents, f.msgType ≠ pageEndTag) (destId : UInt32) (isLazy : Bool)
    (started now : Int64) (reaches : log.ReachesEnd (findPageSize location) now) :
    ReopensAppending location destId isLazy started now log files := by
  intro ops adm
  obtain ⟨w, files', ran, layout'⟩ :=
    Writer.session_reachesEnd layout destId isLazy started now reaches adm
  have contents := WriteOp.contents_appendAll location destId log ops
  refine ⟨w, files', ran, ?_, ?_⟩
  · intro i fs a f page member
    obtain ⟨more, page'⟩ := WriteOp.pages_appendAll location destId page ops
    exact layout'.unchanged page' member
  · rw [← contents]
    apply (layout'.laidOut _).walks
    rw [contents]
    intro f member
    rcases List.mem_append.mp member with old | new
    · exact types f old
    · obtain ⟨op, present, rfl⟩ := List.mem_map.mp new
      exact (adm op present).msgType _ _

end Appending

theorem Holds.unique {m : Memory} (holds : Holds m a f) (holds' : Holds m a g) : f = g :=
  holds.read.symm.trans holds'.read

/-- A mark that tells apart what it overwrites. -/
def probe (triggerTime : Int64) : WriteOp := .mark triggerTime 101 0 0

theorem probe_admissible (location : JLocation) (t : Int64) : (probe t).Admissible location := by
  have bounds := findPageSize_bounds location
  have mib : mebibyte = 1048576 := rfl
  refine ⟨by simp [probe, WriteOp.frame, WriteOp.content, pageEndTag], ?_⟩
  change 0 + 104 < findPageSize location
  omega

theorem probe_frame_ne (s d : UInt32) : (probe 0).frame s d ≠ (probe 1).frame s d := by
  intro same
  exact absurd (congrArg Frame.triggerTime same) (by decide : (0 : Int64) ≠ 1)

theorem place_mem (a : Nat) (before : List Frame) (f : Frame) (after : List Frame) :
    (a + span before, f) ∈ place a (before ++ f :: after) := by
  rw [place_append]
  simp [place]

namespace Log

theorem due_split (more : ¬ ∀ f ∈ fs, Due time f) : ∃ g rest, fs = due time fs ++ g :: rest := by
  have split : due time fs ++ fs.dropWhile (fun f => decide (Due time f)) = fs :=
    List.takeWhile_append_dropWhile
  cases tail : fs.dropWhile (fun f => decide (Due time f)) with
  | nil =>
    rw [tail, List.append_nil] at split
    have all := List.takeWhile_eq_self_iff.mp split
    exact absurd (fun f member => of_decide_eq_true (all f member)) more
  | cons g rest => exact ⟨g, rest, by rw [← tail, split]⟩

/-- The seek never passes the marker of a page. -/
theorem due_sealed (time : Int64) (fs : List Frame) (mark : PageEnd) :
    due time (fs ++ [mark.frame]) = due time fs := by
  have stops : ¬ Due time mark.frame := by
    intro due
    have positive := due.1
    rw [mark.isPageEnd] at positive
    exact absurd positive (by decide)
  induction fs with
  | nil => simp [due, stops]
  | cons f fs ih =>
    by_cases here : Due time f
    · simpa [due, here] using ih
    · simp [due, here]

end Log

section Necessity
variable {location : JLocation} {destId : UInt32} {isLazy : Bool} {started now : Int64}
  {files : JournalFiles} {log : Log}

/-- A frame that every probe is put over has changed. -/
theorem ReopensAppending.not_over
    (reopens : ReopensAppending location destId isLazy started now log files)
    {i : Nat} (page : log.pages[i]? = some fs) (member : (a, g) ∈ place 24 fs)
    (replaced : ∀ t, ∃ v files', Writer.session location destId isLazy started now [probe t] files =
        .ok v files' ∧ Holds (files'.bytes (i + 1)) a ((probe t).frame location.uid destId)) :
    False := by
  have same (t : Int64) : g = (probe t).frame location.uid destId := by
    obtain ⟨v, files', ran, holds⟩ := replaced t
    obtain ⟨v', files'', ran', appends⟩ :=
      reopens [probe t] (by simpa using probe_admissible location t)
    rw [ran, EStateM.Result.ok.injEq] at ran'
    obtain ⟨rfl, rfl⟩ := ran'
    exact (appends.unchanged i fs a g page member).unique holds
  exact probe_frame_ne location.uid destId ((same 0).symm.trans (same 1))

/-- A session of one operation. -/
theorem session_single (w : Writer.Handle) (op : WriteOp)
    (made :
      Writer.make location destId isLazy 0 started now files = .ok (w.placed k a nb 0 false) files)
    (ran : op.run (w.placed k a nb 0 false, files) = .ok () (v, files')) :
    Writer.session location destId isLazy started now [op] files = .ok v files' :=
  Writer.session_ok made ((bind_ok ran _).trans rfl)

/-- Where the probe fits at the cursor it is stored there. -/
theorem over_of_fits (layout : Layout location files log)
    (made : Writer.make location destId isLazy 0 started now files =
      .ok ((Writer.handleAt location destId isLazy started).placed (k + 1) a nb 0 false) files)
    (page : log.stored[k]? = some fs) (first : 24 ≤ a) (fits : a + 40 + 40 < findPageSize location)
    (t : Int64) :
    ∃ v, Writer.session location destId isLazy started now [probe t] files =
      .ok v (files.store (k + 1) ((probe t).stores location.uid destId a)) := by
  have ran := WriteOp.run_fits (Writer.handleAt location destId isLazy started) nb
    (layout.page k fs page).header ((probe_admissible location t).msgType _ _) first fits
  exact ⟨_, session_single _ _ made ran⟩

theorem overwrites (layout : Layout location files log)
    (made : Writer.make location destId isLazy 0 started now files =
      .ok ((Writer.handleAt location destId isLazy started).placed (k + 1) a nb 0 false) files)
    (page : log.stored[k]? = some fs) (first : 24 ≤ a) (fits : a + 40 + 40 < findPageSize location)
    (t : Int64) :
    ∃ v files', Writer.session location destId isLazy started now [probe t] files = .ok v files' ∧
      Holds (files'.bytes (k + 1)) a ((probe t).frame location.uid destId) := by
  obtain ⟨v, ran⟩ := over_of_fits layout made page first fits t
  refine ⟨v, _, ran, ?_⟩
  rw [JournalFiles.store_bytes_same]
  exact ((probe_admissible location t).places location.uid destId).holds _ a first

/-- A write at a slot of a closed page that has no room for it goes over the first frame of
the page after it. -/
theorem overwrites_next (layout : Layout location files log)
    (made : Writer.make location destId isLazy 0 started now files =
      .ok ((Writer.handleAt location destId isLazy started).placed (k + 1) a nb 0 false) files)
    (inner : k < log.closed.length) (full : ¬ a + 40 + 40 < findPageSize location) (t : Int64) :
    ∃ v files', Writer.session location destId isLazy started now [probe t] files = .ok v files' ∧
      Holds (files'.bytes (k + 1 + 1)) 24 ((probe t).frame location.uid destId) := by
  let w := Writer.handleAt location destId isLazy started
  have bounds := findPageSize_bounds location
  have mib : mebibyte = 1048576 := rfl
  have stored (i : Nat) (bound : i ≤ log.closed.length) :
      ∃ fs, log.stored[i]? = some fs ∧
        PageUnit.Stored (findPageSize location) (files.bytes (i + 1)) fs := by
    have inside : i < log.stored.length := by
      rw [Log.stored_length, Log.lastPageId]
      omega
    exact ⟨_, List.getElem?_eq_getElem inside, layout.page i _ (List.getElem?_eq_getElem inside)⟩
  obtain ⟨fs, page, here⟩ := stored k (by omega)
  obtain ⟨_, _, next⟩ := stored (k + 1) (by omega)
  have inside := layout.page_inside page
  have loaded : Journal.loadPage (k + 1 + 1) (w.opening.placed (k + 1) a nb, files) =
      .ok () (w.opening.placed (k + 1 + 1) 24 0, files) :=
    Opening.loadPage_placed layout (by omega) (by rw [Log.lastPageId]; omega)
  have changed := w.closePage_loaded 0 (probe t).pageEndTimes.1 (probe t).pageEndTimes.2 true
    (by omega) loaded (here.last_moveToNext (by omega))
  have header := next.header
  rw [← JournalFiles.store_bytes_other (p := k + 1) files (by omega)] at header
  have opened := w.openFrame_change 101 0 here.header header
    (by omega : 0 + 104 < findPageSize location) full changed
  have adm := probe_admissible location t
  have ran := WriteOp.run_fits w 0 header (adm.msgType _ _) (a := 24) (by omega) (by
    change 24 + 40 + 40 < findPageSize location
    omega)
  have moved : (probe t).run (w.placed (k + 1) a nb 0 false, files) = _ :=
    (bind_same opened _).trans ran
  refine ⟨_, _, session_single w _ made moved, ?_⟩
  rw [JournalFiles.store_bytes_same]
  exact (adm.places _ _).holds _ 24 (by omega)

/-- A frame in the place of the marker of a closed page is what that page shows. -/
theorem marker_walks (layout : Layout location files log)
    (types : ∀ f ∈ log.contents, f.msgType ≠ pageEndTag)
    (closed : log.closed[k]? = some (gs, mark))
    (fits : 24 + span gs + 40 + 40 < findPageSize location) (t : Int64) :
    ∀ i fs, (log.pages.set k (gs ++ [(probe t).frame location.uid destId]))[i]? = some fs →
      PageUnit.walkPage (findPageSize location) ((files.store (k + 1)
        ((probe t).stores location.uid destId (24 + span gs))).bytes (i + 1)) =
          some (place 24 fs, 24 + span fs) := by
  have adm := probe_admissible location t
  have page := PagedLog.pages_closed closed
  have inside : k < log.pages.length := (List.getElem?_eq_some_iff.mp page).1
  obtain ⟨header, chain, slot⟩ :=
    (layout.closed closed).overwrite gs [mark.frame] (adm.places location.uid destId)
  intro i fs here
  by_cases same : i = k
  · subst same
    rw [List.getElem?_set_self inside] at here
    obtain rfl : gs ++ [(probe t).frame location.uid destId] = fs := Option.some.inj here
    rw [JournalFiles.store_bytes_same]
    have size : ((probe t).frame location.uid destId).size = 40 := rfl
    apply PageUnit.walkPage_chain header chain
    · intro h member
      rcases List.mem_append.mp member with old | new
      · apply types h
        rw [← log.contents_pages]
        exact List.mem_flatten.mpr ⟨gs, List.mem_of_getElem? page, old⟩
      · rw [List.mem_singleton.mp new]
        exact adm.msgType _ _
    · rw [span_append, span_cons, span_nil, Nat.add_zero, ← Nat.add_assoc]
      simp [PageUnit.atPageEnd, slot]
    · rw [span_append, span_cons, span_nil, size]
      omega
  · rw [List.getElem?_set_ne (Ne.symm same)] at here
    rw [JournalFiles.store_bytes_other _ (by omega)]
    exact (layout.walkOk types here).visits

/-- A frame in the place of a marker stands before the frames of the later pages. -/
theorem marker_over (layout : Layout location files log) (filled : PagedLog.Filled log)
    (types : ∀ f ∈ log.contents, f.msgType ≠ pageEndTag)
    (reopens : ReopensAppending location destId isLazy started now log files)
    (made : Writer.make location destId isLazy 0 started now files =
      .ok ((Writer.handleAt location destId isLazy started).placed (k + 1)
        (24 + span gs) nb 0 false) files)
    (closed : log.closed[k]? = some (gs, mark))
    (fits : 24 + span gs + 40 + 40 < findPageSize location) : False := by
  have bound := (List.getElem?_eq_some_iff.mp closed).1
  have page := PagedLog.pages_closed closed
  have count := PagedLog.pages_length log
  have split : log.pages = log.pages.take k ++ gs :: log.pages.drop (k + 1) := by
    rw [← (List.getElem?_eq_some_iff.mp page).2, List.cons_getElem_drop_succ, List.take_append_drop]
  obtain ⟨g, rest, next⟩ := filled.next bound
  have later :
      (log.pages.drop (k + 1)).flatten = g :: (rest ++ (log.pages.drop (k + 2)).flatten) := by
    rw [List.drop_eq_getElem_cons (by omega), List.flatten_cons,
      (List.getElem?_eq_some_iff.mp next).2, List.cons_append]
  have first (t : Int64) : g = (probe t).frame location.uid destId := by
    have adm := probe_admissible location t
    obtain ⟨v, ran⟩ := over_of_fits layout made (Log.stored_closed closed) (by omega) fits t
    obtain ⟨v', files', ran', appends⟩ := reopens [probe t] (by simpa using adm)
    rw [ran, EStateM.Result.ok.injEq] at ran'
    obtain ⟨rfl, rfl⟩ := ran'
    have flat : (log.pages.set k (gs ++ [(probe t).frame location.uid destId])).flatten =
        log.contents ++ [(probe t).frame location.uid destId] := by
      refine appends.appended.unique ?_ (marker_walks layout types closed fits t)
      rw [JournalFiles.store_ids, layout.ids, List.length_set, count, Log.lastPageId]
    rw [List.set_eq_take_append_cons_drop, if_pos (by omega), ← log.contents_pages] at flat
    nth_rewrite 3 [split] at flat
    simp only [List.flatten_append, List.flatten_cons, later, List.append_assoc,
      List.append_cancel_left_eq, List.cons_append, List.nil_append, List.cons.injEq] at flat
    exact flat.1.symm
  exact probe_frame_ne location.uid destId ((first 0).symm.trans (first 1))

theorem reachesEnd_of_reopens (layout : Layout location files log) (filled : PagedLog.Filled log)
    (types : ∀ f ∈ log.contents, f.msgType ≠ pageEndTag)
    (reopens : ReopensAppending location destId isLazy started now log files) :
    log.ReachesEnd (findPageSize location) now := by
  have room := pageRoom_bounds location
  obtain ⟨k, fs, landing, sought⟩ :=
    (⟨location, destId, true, isLazy⟩ : Opening).seekToTime_spec layout now
  have made : Writer.make location destId isLazy 0 started now files =
      .ok ((Writer.handleAt location destId isLazy started).placed (k + 1)
        (24 + span (Log.due now fs)) (Log.due now fs).length 0 false) files := by
    rw [Writer.make, show Journal.make location destId true isLazy 0 =
      Opening.make ⟨location, destId, true, isLazy⟩ from rfl, sought]
    rfl
  have bound := (List.getElem?_eq_some_iff.mp landing.page).1
  rw [Log.stored_length, Log.lastPageId] at bound
  -- a frame the seek stopped at is written over
  have stopped {gs : List Frame} (page : log.pages[k]? = some gs)
      (due : Log.due now fs = Log.due now gs)
      (inside : 24 + span gs + 40 < findPageSize location) : ∀ f ∈ gs, Log.Due now f := by
    by_contra more
    obtain ⟨g, rest, split⟩ := Log.due_split more
    have member := place_mem 24 (Log.due now gs) g rest
    have size := g.size_eq
    have total := congrArg span split
    rw [span_append, span_cons] at total
    rw [← split, ← due] at member
    exact reopens.not_over page member
      (overwrites layout made landing.page (by omega) (by rw [due]; omega))
  by_cases last : k = log.closed.length
  · subst last
    obtain rfl : log.current = fs := by simpa [Log.stored] using landing.page
    refine ⟨stopped (by simp [PagedLog.pages]) rfl layout.current_inside, ?_⟩
    intro start found j gs lower upper page
    obtain ⟨start', found', _, between⟩ := landing.found
    exact between j gs (found'.unique found ▸ lower) upper page
  · have inner : k < log.closed.length := by omega
    obtain ⟨⟨gs, mark⟩, closed⟩ : ∃ page, log.closed[k]? = some page :=
      ⟨_, List.getElem?_eq_getElem inner⟩
    obtain rfl : fs = gs ++ [mark.frame] :=
      Option.some.inj (landing.page.symm.trans (Log.stored_closed closed))
    have due := Log.due_sealed now gs mark
    have inside := layout.bounded.closed _ (List.mem_of_getElem? closed)
    simp only [used_eq_span] at inside
    have all := Log.due_eq_self (stopped (PagedLog.pages_closed closed) due (by omega))
    rw [due, all] at made
    by_cases fits : 24 + span gs + 40 + 40 < findPageSize location
    · exact (marker_over layout filled types reopens made closed fits).elim
    · obtain ⟨g, rest, next⟩ := filled.next inner
      have member : (24, g) ∈ place 24 (g :: rest) := List.mem_cons_self
      exact (reopens.not_over next member (overwrites_next layout made inner fits)).elim

end Necessity

namespace Left
variable {location : JLocation} {destId : UInt32} {files : JournalFiles} {log : Log}

theorem filled_appendAll (filled : PagedLog.Filled log) {ops : List WriteOp}
    (adm : ∀ op ∈ ops, op.Admissible location) :
    PagedLog.Filled (WriteOp.appendAll location destId log ops) := by
  rw [WriteOp.appendAll_eq]
  have small :
      ∀ entry ∈ ops.map (fun op => (op.frame location.uid destId, op.marker location.uid destId)),
      Frame.size entry.1 < pageRoom (findPageSize location) := by
    intro entry member
    obtain ⟨op, present, rfl⟩ := List.mem_map.mp member
    have room := pageRoom_bounds location
    have small := (adm op present).size_lt location.uid destId
    change (op.frame location.uid destId).size < _
    omega
  exact filled.appendAll small

theorem types_appendAll (types : ∀ f ∈ log.contents, f.msgType ≠ pageEndTag) {ops : List WriteOp}
    (adm : ∀ op ∈ ops, op.Admissible location) :
    ∀ f ∈ (WriteOp.appendAll location destId log ops).contents, f.msgType ≠ pageEndTag := by
  rw [WriteOp.contents_appendAll]
  intro f member
  rcases List.mem_append.mp member with old | new
  · exact types f old
  · obtain ⟨op, present, rfl⟩ := List.mem_map.mp new
    exact (adm op present).msgType _ _

theorem holds (left : Left location destId files log) :
    Layout location files log ∧ PagedLog.Filled log ∧
      ∀ f ∈ log.contents, f.msgType ≠ pageEndTag := by
  induction left with
  | first isLazy started now ops w files adm ran =>
    obtain ⟨files', ran', layout⟩ := Writer.session_fresh location destId isLazy started now adm
    rw [ran, EStateM.Result.ok.injEq] at ran'
    obtain ⟨_, rfl⟩ := ran'
    exact ⟨layout, filled_appendAll .empty adm, types_appendAll (by simp) adm⟩
  | again isLazy started now ops w files files' log left reaches adm ran ih =>
    obtain ⟨layout, filled, types⟩ := ih
    obtain ⟨w', files'', ran', layout'⟩ :=
      Writer.session_reachesEnd layout destId isLazy started now reaches adm
    rw [ran, EStateM.Result.ok.injEq] at ran'
    obtain ⟨_, rfl⟩ := ran'
    exact ⟨layout', filled_appendAll filled adm, types_appendAll types adm⟩

end Left

/-- Reopening appends exactly when the seek to the current time goes through to the end. -/
theorem reopensAppending_iff {location : JLocation} {destId : UInt32}
    {files : JournalFiles} {log : Log}
    (left : Left location destId files log) (isLazy : Bool) (started now : Int64) :
    ReopensAppending location destId isLazy started now log files ↔
      log.ReachesEnd (findPageSize location) now := by
  obtain ⟨layout, filled, types⟩ := left.holds
  exact ⟨reachesEnd_of_reopens layout filled types,
    reopens_of_reachesEnd layout types destId isLazy started now⟩

/-- Marks whose times are given by the caller. -/
def markedAt (times : List Int64) : List WriteOp := times.map fun genTime => .markAt genTime 3 101 4

theorem markedAt_admissible (times : List Int64) :
    ∀ op ∈ markedAt times, op.Admissible Writer.simAccount := by
  intro op member
  obtain ⟨genTime, _, rfl⟩ := List.mem_map.mp member
  exact ⟨by simp [WriteOp.frame, WriteOp.content, pageEndTag], by
    simp [WriteOp.frame, WriteOp.content, findPageSize, Writer.simAccount,
      JLocation.make, mebibyte]⟩

/-- The frame of such a mark. -/
def markFrame (genTime : Int64) : Frame :=
  (WriteOp.markAt genTime 3 101 4).frame Writer.simAccount.uid 7

theorem markedAt_log (times : List Int64) (few : times.length ≤ 100) :
    WriteOp.appendAll Writer.simAccount 7 PagedLog.empty (markedAt times) =
      ⟨[], times.map markFrame⟩ := by
  induction times using List.reverseRecOn with
  | nil => rfl
  | append_singleton times genTime ih =>
    rw [List.length_append, List.length_singleton] at few
    have earlier : List.foldl (WriteOp.append Writer.simAccount 7) PagedLog.empty (markedAt times) =
        ⟨[], times.map markFrame⟩ := ih (by omega)
    have sizes : (times.map markFrame).map Frame.size = List.replicate times.length 40 := by
      rw [List.map_map, List.eq_replicate_iff]
      exact ⟨List.length_map _, by simp [markFrame, Frame.size_eq, WriteOp.frame, WriteOp.content]⟩
    have fits : Log.roomFor Writer.simAccount ⟨[], times.map markFrame⟩ (markFrame genTime) := by
      change span (times.map markFrame) + 40 < pageRoom (findPageSize Writer.simAccount)
      rw [span, sizes, List.sum_replicate]
      simp only [findPageSize, Writer.simAccount, JLocation.make, mebibyte, pageRoom,
        sizeofPageHeader, sizeofFrameHeader]
      simp
      omega
    rw [WriteOp.appendAll, markedAt, List.map_append, List.foldl_append, ← markedAt, earlier]
    refine (PagedLog.append_of_fits fits _).trans ?_
    simp

theorem left_markedAt (times : List Int64) : ∃ files, Left Writer.simAccount 7 files
    (WriteOp.appendAll Writer.simAccount 7 PagedLog.empty (markedAt times)) := by
  obtain ⟨files, ran, _⟩ :=
    Writer.session_fresh Writer.simAccount 7 false 1 2 (markedAt_admissible times)
  exact ⟨files, .first false 1 2 _ _ _ (markedAt_admissible times) ran⟩

/-- A writer opened at time 200 behind two marks appends. -/
theorem reopensAppending_iff_marks : ∃ files log, Left Writer.simAccount 7 files log ∧
    log.contents = [markFrame 100, markFrame 150] ∧
      ReopensAppending Writer.simAccount 7 false 8 200 log files := by
  obtain ⟨files, left⟩ := left_markedAt [100, 150]
  refine ⟨files, _, left, ?_, (reopensAppending_iff left false 8 200).mpr ?_⟩
  · rw [markedAt_log _ (by decide)]
    rfl
  · rw [markedAt_log _ (by decide)]
    exact ⟨by decide, fun _ _ j _ _ bound => absurd bound (Nat.not_lt_zero j)⟩

/-- A writer opened at time 10 writes over a frame marked with time 100. -/
theorem reopened_before_mark : ∃ files, Left Writer.simAccount 7 files
      (WriteOp.appendAll Writer.simAccount 7 PagedLog.empty (markedAt [100])) ∧
    ¬ ReopensAppending Writer.simAccount 7 false 8 10
      (WriteOp.appendAll Writer.simAccount 7 PagedLog.empty (markedAt [100])) files := by
  obtain ⟨files, left⟩ := left_markedAt [100]
  refine ⟨files, left, ?_⟩
  intro reopens
  obtain ⟨layout, filled, types⟩ := left.holds
  have reaches := reachesEnd_of_reopens layout filled types reopens
  rw [markedAt_log _ (by decide)] at reaches
  have due := reaches.last _ (List.mem_singleton.mpr rfl)
  exact absurd due.2 (by decide : ¬ (100 : Int64) ≤ 10)

end BTrader
