import BTrader.Journal.PageWalk

/-! Several writers of one journal. Each has its own cursor and its own lock; all they
share is the page files. Their operations are complete ones, in any order. -/
namespace BTrader
open ByteMemory Infra Procedure

namespace WriteOp

/-- A write of a writer on the last page, behind the last frame or where its frame does
not fit: the frame becomes the last one of the journal. -/
theorem run_current (w : Writer.Handle) {op : WriteOp} {files : JournalFiles} {log : Log}
    (layout : Layout w.location files log) (adm : op.Admissible w.location) (a nb : Nat)
    (place : a = 24 + span log.current ∨
      ¬ a + (op.frame w.location.uid w.destId).size + 40 < findPageSize w.location) :
    ∃ (log' : Log) (files' : JournalFiles) (nb' : Nat),
      op.run (w.placed log.lastPageId a nb 0 false, files) =
        .ok () (w.placed log'.lastPageId (24 + span log'.current) nb' 0 false, files') ∧
      Layout w.location files' log' ∧
      log'.contents = log.contents ++ [op.frame w.location.uid w.destId] := by
  have room := pageRoom_bounds w.location
  by_cases full : ¬ a + (op.frame w.location.uid w.destId).size + 40 < findPageSize w.location
  · have layout' := w.sealedFiles_layout op.pageEndTimes.1 op.pageEndTimes.2 layout
    have small := adm.size_lt w.location.uid w.destId
    have fits : Log.roomFor w.location ⟨log.closed ++ [(log.current,
        op.marker w.location.uid w.destId)], []⟩ (op.frame w.location.uid w.destId) := by
      change 0 + (op.frame w.location.uid w.destId).size < pageRoom (findPageSize w.location)
      omega
    obtain ⟨ran, layout''⟩ := run_append_fits w layout' adm fits
    have changed := run_change w nb layout adm full
    have opened : w.atEnd ⟨log.closed ++ [(log.current, op.marker w.location.uid w.destId)], []⟩ =
        w.placed (log.lastPageId + 1) 24 0 0 false := by
      simp [Writer.Handle.atEnd, Log.lastPageId]
    have contents : (op.append w.location w.destId ⟨log.closed ++ [(log.current,
        op.marker w.location.uid w.destId)], []⟩).contents =
          log.contents ++ [op.frame w.location.uid w.destId] := by
      rw [append, PagedLog.contents_append]
      simp [PagedLog.contents]
    change op.run (w.atEnd ⟨log.closed ++ [(log.current, op.marker w.location.uid w.destId)], []⟩,
      w.sealedFiles log op.pageEndTimes.1 op.pageEndTimes.2 files) = _ at ran
    rw [opened, ← changed] at ran
    exact ⟨_, _, _, ran, layout'', contents⟩
  · obtain rfl := place.resolve_right full
    rw [not_not] at full
    have fits : Log.roomFor w.location log (op.frame w.location.uid w.destId) := by
      change span log.current + (op.frame w.location.uid w.destId).size <
        pageRoom (findPageSize w.location)
      omega
    obtain ⟨_, layout'⟩ := run_append_fits w layout adm fits
    have ran := run_fits (a := 24 + span log.current) w nb layout.current.header
      (adm.msgType w.location.uid w.destId) (by omega) full
    refine ⟨_, _, nb + 1, ?_, layout', PagedLog.contents_append _ _ _⟩
    rw [ran, append, PagedLog.append_of_fits fits]
    simp [Log.lastPageId, Nat.add_assoc]

end WriteOp

theorem Layout.getLast_ids {location : JLocation} {files : JournalFiles} {log : Log}
    (layout : Layout location files log) : files.ids.getLast? = some log.lastPageId := by
  rw [layout.ids, Log.lastPageId, List.range'_concat, List.getLast?_concat,
    Nat.one_mul, Nat.add_comm]

namespace SharedJournal

variable {ι : Type}

/-- The writers that are open, the page files and the frames in the order of their
writes. -/
structure System (ι : Type) where
  writers : ι → Option Writer
  files : JournalFiles
  written : List Frame

def System.start : System ι := ⟨fun _ => none, JournalFiles.fresh, []⟩

inductive Event (ι : Type) where
  | opened (i : ι) (isLazy : Bool) (started now : Int64)
  | wrote (i : ι) (op : WriteOp)

section
variable [DecidableEq ι] (location : JLocation) (destId : UInt32)

/-- Constructing a writer, or one complete write operation of a writer. -/
inductive Step : System ι → Event ι → System ι → Prop
  | opened (s : System ι) (i : ι) (isLazy : Bool) (started now : Int64) (w : Writer)
      (files : JournalFiles) (absent : s.writers i = none)
      (made : Writer.make location destId isLazy 0 started now s.files = .ok w files) :
      Step s (.opened i isLazy started now)
        ⟨Function.update s.writers i (some w), files, s.written⟩
  | wrote (s : System ι) (i : ι) (op : WriteOp) (w w' : Writer) (files : JournalFiles)
      (present : s.writers i = some w) (ran : op.run (w, s.files) = .ok () (w', files)) :
      Step s (.wrote i op)
        ⟨Function.update s.writers i (some w'), files, s.written ++ [op.frame location.uid destId]⟩

/-- The states reached by runs that start without pages and writers and whose steps all
are allowed. -/
inductive Run (allowed : System ι → Event ι → Prop) : System ι → Prop
  | start : Run allowed .start
  | step (s s' : System ι) (event : Event ι) (run : Run allowed s) (meets : allowed s event)
      (stepped : Step location destId s event s') : Run allowed s'

/-- A frame of another type than the page end tag that fits a page. -/
def Admissible (_ : System ι) : Event ι → Prop
  | .opened _ _ _ _ => True
  | .wrote _ op => op.Admissible location

/-- The writer is on the journal's last page, and its cursor is behind the page's last
frame or the frame does not fit at the cursor, so that the page is changed. -/
def Current (w : Writer) (files : JournalFiles) (f : Frame) : Prop :=
  ∃ page, w.journal.page = some page ∧ files.ids.getLast? = some page.pageId ∧
    let m := files.bytes page.pageId
    w.journal.frame = FrameUnit.moveToNext m (PageUnit.lastFrameAddress m) ∨
      PageUnit.addressBorder m ≤ w.journal.frame + f.size

/-- Every write is admissible and its writer is current. -/
def InTurn (s : System ι) : Event ι → Prop
  | .opened _ _ _ _ => True
  | .wrote i op => op.Admissible location ∧
      ∀ w, s.writers i = some w → Current w s.files (op.frame location.uid destId)

end

/-- The files are those of a journal that holds the written frames, and every writer is
between two writes. -/
structure Inv (location : JLocation) (destId : UInt32) (s : System ι) : Prop where
  content : (s.files = JournalFiles.fresh ∧ s.written = [] ∧ ∀ i, s.writers i = none) ∨
    ∃ log, Layout location s.files log ∧ log.contents = s.written
  types : ∀ f ∈ s.written, f.msgType ≠ pageEndTag
  writers : ∀ i w, s.writers i = some w → ∃ isLazy start k a nb,
    w = (⟨location, destId, isLazy, start⟩ : Writer.Handle).placed k a nb 0 false

section Runs
variable {location : JLocation} {destId : UInt32} {s s' : System ι}

theorem Inv.start : Inv location destId (System.start : System ι) :=
  ⟨Or.inl ⟨rfl, rfl, fun _ => rfl⟩, by simp [System.start], by simp [System.start]⟩

theorem Inv.laidOut (inv : Inv location destId s) : LaidOut location s.files s.written := by
  rcases inv.content with ⟨fresh, empty, _⟩ | ⟨log, layout, contents⟩
  · rw [fresh, empty]
    exact ⟨[], rfl, rfl, by simp⟩
  · rw [← contents]
    exact layout.laidOut (by rw [contents]; exact inv.types)

variable [DecidableEq ι]

theorem writers_update {writers : ι → Option Writer} {P : Writer → Prop}
    (old : ∀ i w, writers i = some w → P w) (new : P w) (i : ι) :
    ∀ j v, Function.update writers i (some w) j = some v → P v := by
  intro j v here
  by_cases same : j = i
  · subst same
    rw [Function.update_self, Option.some.injEq] at here
    exact here ▸ new
  · rw [Function.update_of_ne same] at here
    exact old j v here

/-- Constructing a writer only reads, but for the first page. -/
theorem Inv.opened (inv : Inv location destId s)
    (made : Writer.make location destId isLazy 0 started now s.files = .ok w files) (i : ι) :
    Inv location destId ⟨Function.update s.writers i (some w), files, s.written⟩ := by
  rcases inv.content with ⟨fresh, empty, _⟩ | ⟨log, layout, contents⟩
  · rw [fresh, Writer.make_fresh, EStateM.Result.ok.injEq] at made
    obtain ⟨rfl, rfl⟩ := made
    refine ⟨Or.inr ⟨_, Layout.start location, ?_⟩, inv.types, ?_⟩
    · exact empty.symm
    · exact writers_update inv.writers ⟨isLazy, _, _, _, _, rfl⟩ i
  · obtain ⟨k, fs, _, sought⟩ :=
      (⟨location, destId, true, isLazy⟩ : Opening).seekToTime_spec layout now
    simp only [Opening.make] at sought
    rw [Writer.make, sought, EStateM.Result.ok.injEq] at made
    obtain ⟨rfl, rfl⟩ := made
    exact ⟨Or.inr ⟨log, layout, contents⟩, inv.types,
      writers_update inv.writers ⟨isLazy, timeHashed started, _, _, _, rfl⟩ i⟩

/-- A writer that is current writes behind all frames. -/
theorem Inv.writes {op : WriteOp} (inv : Inv location destId s) (present : s.writers i = some w)
    (adm : op.Admissible location)
    (current : Current w s.files (op.frame location.uid destId)) :
    ∃ w' files, op.run (w, s.files) = .ok () (w', files) ∧
      Inv location destId ⟨Function.update s.writers i (some w'), files,
        s.written ++ [op.frame location.uid destId]⟩ := by
  obtain ⟨isLazy, start, k, a, nb, rfl⟩ := inv.writers i w present
  let handle : Writer.Handle := ⟨location, destId, isLazy, start⟩
  rcases inv.content with ⟨_, _, none⟩ | ⟨log, layout, contents⟩
  · rw [none i] at present
    contradiction
  obtain ⟨page, here, last, place⟩ := current
  obtain rfl : ⟨k, findPageSize location⟩ = page := Option.some.inj here
  obtain rfl : k = log.lastPageId := Option.some.inj (last.symm.trans layout.getLast_ids)
  have bounds := findPageSize_bounds location
  have mib : mebibyte = 1048576 := rfl
  have inside := layout.current_inside
  have behind : FrameUnit.moveToNext (s.files.bytes log.lastPageId)
      (PageUnit.lastFrameAddress (s.files.bytes log.lastPageId)) = 24 + span log.current :=
    layout.current.last_moveToNext (by omega)
  obtain ⟨border, _⟩ := Writer.addressBorder_eq location layout.current.header
  have place' : a = 24 + span log.current ∨
      ¬ a + (op.frame location.uid destId).size + 40 < findPageSize location := by
    rcases place with behindLast | full
    · exact Or.inl (behindLast.trans behind)
    · right
      rw [border] at full
      change findPageSize location - 40 ≤ a + (op.frame location.uid destId).size at full
      omega
  obtain ⟨log', files', nb', ran, layout', contents'⟩ :=
    WriteOp.run_current handle layout adm a nb place'
  refine ⟨_, files', ran, ⟨Or.inr ⟨log', layout', ?_⟩, ?_, ?_⟩⟩
  · rw [contents', contents]
  · intro f member
    rcases List.mem_append.mp member with old | new
    · exact inv.types f old
    · rw [List.mem_singleton.mp new]
      exact adm.msgType _ _
  · exact writers_update inv.writers ⟨isLazy, start, _, _, _, rfl⟩ i

theorem Inv.step (inv : Inv location destId s) (inTurn : InTurn location destId s event)
    (step : Step location destId s event s') : Inv location destId s' := by
  cases step with
  | opened i isLazy started now w files absent made => exact inv.opened made i
  | wrote i op w w' files present ran =>
    obtain ⟨v, files', ran', inv'⟩ := inv.writes present inTurn.1 (inTurn.2 w present)
    rw [ran', EStateM.Result.ok.injEq, Prod.mk.injEq] at ran
    obtain ⟨_, rfl, rfl⟩ := ran
    exact inv'

theorem Run.inv (run : Run location destId (InTurn location destId) s) :
    Inv location destId s := by
  induction run with
  | start => exact .start
  | step s s' event _ meets stepped ih => exact ih.step meets stepped

end Runs

/-- No update is lost while every write is in turn: in every state the pages hold exactly
the written frames, and the next write in turn completes. -/
theorem laidOut_of_inTurn [DecidableEq ι] (location : JLocation) (destId : UInt32) {s : System ι}
    (run : Run location destId (InTurn location destId) s) :
    LaidOut location s.files s.written ∧
    ∀ i w op, s.writers i = some w → InTurn location destId s (.wrote i op) →
      ∃ w' files, op.run (w, s.files) = .ok () (w', files) := by
  refine ⟨run.inv.laidOut, ?_⟩
  intro i w op present inTurn
  obtain ⟨w', files, ran, _⟩ := run.inv.writes present inTurn.1 (inTurn.2 w present)
  exact ⟨w', files, ran⟩

/-- A writer behind the last frame is current. -/
theorem current_atEnd (w : Writer.Handle) {files : JournalFiles} {log : Log}
    (layout : Layout w.location files log) (f : Frame) : Current (w.atEnd log) files f := by
  have bounds := findPageSize_bounds w.location
  have mib : mebibyte = 1048576 := rfl
  have inside := layout.current_inside
  exact ⟨_, rfl, layout.getLast_ids, Or.inl (layout.current.last_moveToNext (by omega)).symm⟩

/-- A writer that is constructed before the first write. -/
def idleWriter (started : Int64) : Writer :=
  (Writer.handleAt Writer.simAccount 7 false started).atEnd PagedLog.empty

def openedFirst : System Bool :=
  ⟨Function.update (fun _ => none) false (some (idleWriter 1)),
    JournalFiles.fresh.addPage 1 (findPageSize Writer.simAccount), []⟩

def openedBoth : System Bool :=
  ⟨Function.update openedFirst.writers true (some (idleWriter 3)), openedFirst.files, []⟩

theorem run_openedBoth {allowed : System Bool → Event Bool → Prop}
    (opens : ∀ s i isLazy started now, allowed s (.opened i isLazy started now)) :
    Run Writer.simAccount 7 allowed openedBoth := by
  have layout := Layout.start Writer.simAccount
  have first : Step Writer.simAccount 7 System.start (.opened false false 1 2) openedFirst :=
    .opened _ _ _ _ _ _ _ rfl (Writer.make_fresh Writer.simAccount 7 false 1 2)
  have second : Step Writer.simAccount 7 openedFirst (.opened true false 3 4) openedBoth :=
    .opened _ _ _ _ _ _ _ rfl (Writer.make_empty layout rfl rfl 7 false 3 4)
  exact .step _ _ _ (.step _ _ _ .start (opens _ _ _ _ _) first) (opens _ _ _ _ _) second

theorem marks_admissible (op : WriteOp) (mark : op = .mark 3 101 4 5 ∨ op = .mark 6 102 7 8) :
    op.Admissible Writer.simAccount := by
  rcases mark with rfl | rfl <;>
    exact ⟨by simp [WriteOp.frame, WriteOp.content, pageEndTag], by
      simp [WriteOp.frame, WriteOp.content, findPageSize, Writer.simAccount,
        JLocation.make, mebibyte]⟩

theorem marks_fit : Log.roomFor Writer.simAccount PagedLog.empty
    ((WriteOp.mark 3 101 4 5).frame Writer.simAccount.uid 7) := by
  change 0 + 40 < pageRoom (findPageSize Writer.simAccount)
  simp [pageRoom, findPageSize, Writer.simAccount, JLocation.make, mebibyte, sizeofFrameHeader,
    sizeofPageHeader]

/-- The first writer makes its mark. -/
theorem step_first_mark :
    let f := (WriteOp.mark 3 101 4 5).frame Writer.simAccount.uid 7
    ∃ s, Step Writer.simAccount 7 openedBoth (.wrote false (.mark 3 101 4 5)) s ∧
      s.writers true = some (idleWriter 3) ∧ s.written = [f] ∧
      Layout Writer.simAccount s.files ⟨[], [f]⟩ := by
  intro f
  have layout := Layout.start Writer.simAccount
  let w := Writer.handleAt Writer.simAccount 7 false 1
  obtain ⟨ran, layout₁⟩ :=
    WriteOp.run_append_fits w layout (marks_admissible _ (Or.inl rfl)) marks_fit
  have log₁ : (WriteOp.mark 3 101 4 5).append w.location w.destId PagedLog.empty = ⟨[], [f]⟩ :=
    PagedLog.append_of_fits marks_fit _
  rw [log₁] at ran layout₁
  exact ⟨_, .wrote _ _ _ _ _ _ rfl ran, rfl, rfl, layout₁⟩

/-- The first writer makes its mark, the second one is constructed behind it and makes another
one. -/
theorem run_inTurn_two : ∃ s : System Bool, Run Writer.simAccount 7 (InTurn Writer.simAccount 7) s ∧
    s.written = [(WriteOp.mark 3 101 4 5).frame Writer.simAccount.uid 7,
      (WriteOp.mark 6 102 7 8).frame Writer.simAccount.uid 7] := by
  let f := (WriteOp.mark 3 101 4 5).frame Writer.simAccount.uid 7
  let g := (WriteOp.mark 6 102 7 8).frame Writer.simAccount.uid 7
  let v := Writer.handleAt Writer.simAccount 7 false 1
  let w := Writer.handleAt Writer.simAccount 7 false 3
  have layout := Layout.start Writer.simAccount
  have first : Step Writer.simAccount 7 System.start (.opened false false 1 2) openedFirst :=
    .opened _ _ _ _ _ _ _ rfl (Writer.make_fresh Writer.simAccount 7 false 1 2)
  have opened : Run Writer.simAccount 7 (InTurn Writer.simAccount 7) openedFirst :=
    .step _ _ (.opened false false 1 2) .start trivial first
  obtain ⟨ran, layout₁⟩ :=
    WriteOp.run_append_fits v layout (marks_admissible _ (Or.inl rfl)) marks_fit
  have log₁ : (WriteOp.mark 3 101 4 5).append v.location v.destId PagedLog.empty = ⟨[], [f]⟩ :=
    PagedLog.append_of_fits marks_fit _
  rw [log₁] at ran layout₁
  have inTurn : InTurn Writer.simAccount 7 openedFirst (.wrote false (.mark 3 101 4 5)) := by
    refine ⟨marks_admissible _ (Or.inl rfl), fun u present => ?_⟩
    obtain rfl : idleWriter 1 = u := Option.some.inj present
    exact current_atEnd v layout _
  have marked := opened.step _ _ _ inTurn (.wrote _ _ _ _ _ _ rfl ran)
  have made :=
    Writer.make_due layout₁ rfl 7 false 3 10 (by decide +kernel : ∀ h ∈ [f], Log.Due 10 h)
  have joined := marked.step _ _ (.opened true false 3 10) trivial (.opened _ _ _ _ _ _ _ rfl made)
  have fits : Log.roomFor Writer.simAccount ⟨[], [f]⟩ g := by
    change 40 + 0 + 40 < pageRoom (findPageSize Writer.simAccount)
    simp [pageRoom, findPageSize, Writer.simAccount, JLocation.make, mebibyte, sizeofFrameHeader,
      sizeofPageHeader]
  obtain ⟨ran₂, _⟩ := WriteOp.run_append_fits w layout₁ (marks_admissible _ (Or.inr rfl)) fits
  have present :
      Function.update (Function.update openedFirst.writers false (some (v.atEnd ⟨[], [f]⟩))) true
      (some (w.atEnd ⟨[], [f]⟩)) true = some (w.atEnd ⟨[], [f]⟩) := Function.update_self ..
  have next :=
    joined.step _ _ (.wrote true (.mark 6 102 7 8)) ⟨marks_admissible _ (Or.inr rfl),
      fun u here => by
    obtain rfl := Option.some.inj (present.symm.trans here)
    exact current_atEnd w layout₁ _⟩ (.wrote _ _ _ _ _ _ present ran₂)
  exact ⟨_, next, rfl⟩

theorem laidOut_of_inTurn_two : ∃ s : System Bool,
    s.written = [(WriteOp.mark 3 101 4 5).frame Writer.simAccount.uid 7,
      (WriteOp.mark 6 102 7 8).frame Writer.simAccount.uid 7] ∧
        LaidOut Writer.simAccount s.files s.written := by
  obtain ⟨s, run, written⟩ := run_inTurn_two
  exact ⟨s, written, (laidOut_of_inTurn Writer.simAccount 7 run).1⟩

/-- The second writer's mark goes over the first one's. -/
theorem second_writer_overwrites :
    ∃ s : System Bool, Run Writer.simAccount 7 (Admissible Writer.simAccount) s ∧
      ¬ LaidOut Writer.simAccount s.files s.written := by
  have first := marks_admissible _ (Or.inl rfl)
  have second := marks_admissible _ (Or.inr rfl)
  obtain ⟨s, step₁, present, written, layout⟩ := step_first_mark
  let v := Writer.handleAt Writer.simAccount 7 false 3
  have size : findPageSize Writer.simAccount = 16777216 := by
    simp [findPageSize, Writer.simAccount, JLocation.make, mebibyte]
  have fits : 24 + ((WriteOp.mark 6 102 7 8).frame v.location.uid v.destId).size + 40 <
      findPageSize v.location := by
    change 24 + 40 + 40 < findPageSize Writer.simAccount
    omega
  have ran := WriteOp.run_fits v 0 layout.current.header (second.msgType _ _) (le_refl 24) fits
  have run₁ : Run Writer.simAccount 7 (Admissible Writer.simAccount) s :=
    .step _ _ (.wrote false (.mark 3 101 4 5)) (run_openedBoth fun _ _ _ _ _ => trivial) first step₁
  refine ⟨_, .step _ _ (.wrote true (.mark 6 102 7 8)) run₁ second
    (.wrote s true _ _ _ _ present ran), ?_⟩
  rintro ⟨pages, flat, ids, walks⟩
  have count : pages.length = 1 := by
    have := congrArg List.length ids
    simpa [layout.ids, Log.lastPageId] using this.symm
  obtain ⟨fs, rfl⟩ := List.length_eq_one_iff.mp count
  obtain ⟨header, chain, slot⟩ := PageUnit.Stored.overwrite [] _ layout.current
    (second.places v.location.uid v.destId)
  have walked := PageUnit.walkPage_chain header chain
    (by
      intro f member
      rw [List.mem_singleton.mp member]
      exact second.msgType _ _)
    (by simpa [PageUnit.atPageEnd] using Or.inl slot)
    (by
      change 24 + 40 ≤ findPageSize Writer.simAccount
      omega)
  have visits : PageUnit.walkPage (findPageSize Writer.simAccount)
      ((s.files.store 1 _).bytes 1) = some (place 24 fs, 24 + span fs) := (walks 0 fs rfl).visits
  rw [JournalFiles.store_bytes_same] at visits
  have only := PageUnit.place_inj (Option.some.inj (walked.symm.trans visits))
  rw [written, ← only] at flat
  simp at flat

end SharedJournal
end BTrader
