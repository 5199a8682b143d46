import BTrader.Journal.ReaderSpec

/-! A writer and a polling reader on one journal. The writer makes its operations in
order; the reader runs `while data_available(): read current_frame(); next()` and
starts the loop again when it returned. Every statement of the loop may come between
any two operations. -/
namespace BTrader.Delivery
open ByteMemory Infra Procedure

/-- The statement the reader is at. -/
inductive Pc where
  | poll | read | next
  deriving DecidableEq, Repr

structure System where
  writer : Writer
  reader : Reader
  store : FileStore
  pc : Pc
  pending : List WriteOp
  written : List Frame
  read : List Frame

section
variable (location : JLocation) (destId : UInt32)

def key : UInt64 := Reader.journalKey location.uid destId

/-- The clock is not behind the stamps written so far. -/
def ClockAt (s : System) (now : Int64) : Prop := ∀ f ∈ s.written, f.genTime ≤ now

inductive Step : System → System → Prop
  | write (s : System) (op : WriteOp) (rest : List WriteOp) (w : Writer) (files : JournalFiles)
      (pending : s.pending = op :: rest)
      (ran : op.run (s.writer, s.store (key location destId)) = .ok () (w, files)) :
      Step s { s with
        writer := w
        store := Function.update s.store (key location destId) files
        pending := rest
        written := s.written ++ [op.frame location.uid destId] }
  | poll (s : System) (now : Int64) (available : Bool) (r : Reader) (store : FileStore)
      (pc : s.pc = .poll) (clock : ClockAt s now)
      (ran : Reader.dataAvailable now (s.reader, s.store) = .ok available (r, store)) :
      Step s { s with
        reader := r
        store := store
        pc := if available then .read else .poll }
  | read (s : System) (m : Memory) (frame : Nat) (r : Reader) (store : FileStore)
      (pc : s.pc = .read)
      (ran : Reader.currentFrame (s.reader, s.store) = .ok (m, frame) (r, store)) :
      Step s { s with
        reader := r
        store := store
        pc := .next
        read := s.read ++ [FrameUnit.read m frame] }
  | next (s : System) (now : Int64) (r : Reader) (store : FileStore)
      (pc : s.pc = .next) (clock : ClockAt s now)
      (ran : Reader.next now (s.reader, s.store) = .ok () (r, store)) :
      Step s { s with
        reader := r
        store := store
        pc := .poll }

/-- The writer is constructed and the reader joins, in either order, before the first
write. -/
inductive Start (ops : List WriteOp) : System → Prop
  | writerFirst (isLazy readerLazy : Bool) (started now fromTime clock : Int64)
      (order : List (UInt64 × Journal) → List (UInt64 × Journal)) (store₀ store : FileStore)
      (w : Writer) (files : JournalFiles) (r : Reader)
      (perm : ∀ entries, (order entries).Perm entries)
      (fresh : store₀ (key location destId) = JournalFiles.fresh)
      (made : Writer.make location destId isLazy 0 started now (store₀ (key location destId)) =
        .ok w files)
      (joined : Reader.join location destId fromTime 0 order clock (Reader.make readerLazy,
        Function.update store₀ (key location destId) files) = .ok () (r, store)) :
      Start ops ⟨w, r, store, .poll, ops, [], []⟩
  | readerFirst (isLazy readerLazy : Bool) (started now fromTime clock : Int64)
      (order : List (UInt64 × Journal) → List (UInt64 × Journal)) (store₀ store : FileStore)
      (w : Writer) (files : JournalFiles) (r : Reader)
      (perm : ∀ entries, (order entries).Perm entries)
      (fresh : store₀ (key location destId) = JournalFiles.fresh)
      (joined :
        Reader.join location destId fromTime 0 order clock (Reader.make readerLazy, store₀) =
        .ok () (r, store))
      (made : Writer.make location destId isLazy 0 started now (store (key location destId)) =
        .ok w files) :
      Start ops ⟨w, r, Function.update store (key location destId) files, .poll, ops, [], []⟩

def Reachable (ops : List WriteOp) (s : System) : Prop :=
  ∃ s₀, Start location destId ops s₀ ∧ Relation.ReflTransGen (Step location destId) s₀ s

/-- Exactly-once delivery in order: what was read is a prefix of what was written, no
statement of the loop faults, and when the writer is done a loop that returns has
read everything. -/
structure Delivers (ops : List WriteOp) : Prop where
  inOrder : ∀ s, Reachable location destId ops s → s.read <+: s.written
  runs : ∀ s now, Reachable location destId ops s → s.pc = .poll → ClockAt s now →
    ∃ available r store, Reader.dataAvailable now (s.reader, s.store) = .ok available (r, store)
  complete : ∀ s now r store, Reachable location destId ops s → s.pc = .poll → s.pending = [] →
    ClockAt s now → Reader.dataAvailable now (s.reader, s.store) = .ok false (r, store) →
    s.read = ops.map (WriteOp.frame location.uid destId)

end

variable {location : JLocation} {destId : UInt32}

def firstPage (log : Log) : List Frame := log.pages.headD []

/-- The reader's only journal is on page 1, between the frames it has passed and the
rest of the page; the writer is behind the last frame of the journal. -/
structure Inv (location : JLocation) (destId : UInt32) (ops : List WriteOp) (log : Log)
    (passed rest : List Frame) (s : System) : Prop where
  layout : Layout location (s.store (key location destId)) log
  typed : log.Typed
  writer : ∃ isLazy start,
    s.writer = (⟨location, destId, isLazy, start⟩ : Writer.Handle).atEnd log
  written : s.written = log.contents
  pending : WriteOp.appendAll location destId log s.pending =
    WriteOp.appendAll location destId PagedLog.empty ops
  remaining : s.pending <:+ ops
  firstPage : firstPage log = passed ++ rest
  journal : ∃ j, s.reader.journals = [(key location destId, j)] ∧
    j.page = some ⟨1, findPageSize location⟩ ∧ j.frame = 24 + span passed
  current : ∀ k, s.reader.current = some k → k = key location destId
  statement : match s.pc with
    | .poll => s.read = passed
    | .read => s.read = passed ∧ s.reader.current = some (key location destId) ∧ rest ≠ []
    | .next => s.reader.current = some (key location destId) ∧
        ∃ f fs, rest = f :: fs ∧ s.read = passed ++ [f]

theorem firstPage_shows {files : JournalFiles} {log : Log} (layout : Layout location files log) :
    PageUnit.Shows (findPageSize location) (files.bytes 1) (firstPage log) := by
  obtain ⟨closed, current⟩ := log
  cases closed with
  | nil => exact layout.current.shows
  | cons page rest =>
    obtain ⟨fs, mark⟩ := page
    exact (layout.closed (i := 0) rfl).shows_sealed mark.isPageEnd

theorem firstPage_initial (log : Log) : firstPage log <+: log.contents := by
  obtain ⟨closed, current⟩ := log
  cases closed with
  | nil => exact List.prefix_refl _
  | cons page rest =>
    exact ⟨rest.flatMap Prod.fst ++ current, by simp [firstPage, PagedLog.pages, PagedLog.contents]⟩

/-- Appending a frame extends the first page or leaves it alone. -/
theorem firstPage_append (location : JLocation) (destId : UInt32) (log : Log) (op : WriteOp) :
    firstPage log <+: firstPage (op.append location destId log) := by
  unfold WriteOp.append
  by_cases fits : PagedLog.Fits Frame.size (pageRoom (findPageSize location)) log
      (op.frame location.uid destId)
  · rw [PagedLog.append_of_fits fits]
    obtain ⟨closed, current⟩ := log
    cases closed with
    | nil => exact List.prefix_append _ _
    | cons page rest => exact List.prefix_refl _
  · rw [PagedLog.append_of_not_fits fits]
    obtain ⟨closed, current⟩ := log
    cases closed <;> exact List.prefix_refl _

theorem Inv.facing {ops : List WriteOp} {log : Log} {passed rest : List Frame} {s : System}
    (inv : Inv location destId ops log passed rest s)
    (page : j.page = some ⟨1, findPageSize location⟩) (frame : j.frame = 24 + span passed) :
    Journal.Facing (s.store (key location destId)) j passed rest := by
  have shown := firstPage_shows inv.layout
  rw [inv.firstPage] at shown
  refine ⟨⟨_, page, shown⟩, frame, ?_⟩
  intro f member
  rw [← inv.firstPage] at member
  exact inv.typed f ((firstPage_initial log).subset member)

theorem Inv.tracks {ops : List WriteOp} {log : Log} {passed rest : List Frame} {s : System}
    (inv : Inv location destId ops log passed rest s) :
    Reader.Tracks s.reader s.store (fun _ => rest) := by
  obtain ⟨j, journals, page, frame⟩ := inv.journal
  refine ⟨by simp [journals], ?_, ?_⟩
  · intro entry member
    rw [journals, List.mem_singleton] at member
    subst member
    exact ⟨passed, inv.facing page frame⟩
  · intro k current
    simp [journals, inv.current k current]

theorem Inv.clock {ops : List WriteOp} {log : Log} {passed rest : List Frame} {s : System}
    (inv : Inv location destId ops log passed rest s) (clock : ClockAt s now) :
    ∀ k ∈ s.reader.journals.map Prod.fst, ∀ f ∈ (fun _ : UInt64 => rest) k, f.genTime ≤ now := by
  intro k _ f member
  apply clock f
  rw [inv.written]
  apply (firstPage_initial log).subset
  rw [inv.firstPage]
  exact List.mem_append_right _ member

section Steps
variable {ops : List WriteOp} {log : Log} {passed rest : List Frame} {s s' : System}

theorem Inv.write (inv : Inv location destId ops log passed rest s)
    (adm : ∀ op ∈ ops, op.Admissible location)
    (typed : ∀ op ∈ ops, 0 < (op.frame location.uid destId).msgType)
    (pending : s.pending = op :: later)
    (ran : op.run (s.writer, s.store (key location destId)) = .ok () (w, files)) :
    ∃ more, Inv location destId ops (op.append location destId log) passed (rest ++ more)
      { s with
        writer := w
        store := Function.update s.store (key location destId) files
        pending := later
        written := s.written ++ [op.frame location.uid destId] } := by
  have member : op ∈ ops := inv.remaining.subset (by rw [pending]; exact List.mem_cons_self)
  obtain ⟨isLazy, start, writer⟩ := inv.writer
  let handle : Writer.Handle := ⟨location, destId, isLazy, start⟩
  obtain ⟨files', ran', layout'⟩ := WriteOp.run_append handle inv.layout (adm op member)
  rw [writer, ran', EStateM.Result.ok.injEq, Prod.mk.injEq] at ran
  obtain ⟨_, rfl, rfl⟩ := ran
  obtain ⟨more, extended⟩ := firstPage_append location destId log op
  have contents : (op.append location destId log).contents =
      log.contents ++ [op.frame location.uid destId] := PagedLog.contents_append _ _ _
  refine ⟨more, ⟨?_, ?_, ⟨isLazy, start, rfl⟩, ?_, ?_, ?_, ?_, ?_, inv.current, ?_⟩⟩
  · simpa using layout'
  · intro f present
    rw [contents] at present
    rcases List.mem_append.mp present with old | new
    · exact inv.typed f old
    · exact List.mem_singleton.mp new ▸ typed op member
  · change s.written ++ _ = _
    rw [inv.written, contents]
  · rw [← inv.pending, pending]
    rfl
  · have suffix := inv.remaining
    rw [pending] at suffix
    exact (List.suffix_cons op later).trans suffix
  · rw [← extended, inv.firstPage, List.append_assoc]
  · exact inv.journal
  · have statement := inv.statement
    change match s.pc with
      | .poll => s.read = passed
      | .read => s.read = passed ∧ s.reader.current = some (key location destId) ∧ rest ++ more ≠ []
      | .next => s.reader.current = some (key location destId) ∧
          ∃ f fs, rest ++ more = f :: fs ∧ s.read = passed ++ [f]
    cases pc : s.pc with
    | poll => simpa [pc] using statement
    | read =>
      simp only [pc] at statement ⊢
      exact ⟨statement.1, statement.2.1, by simp [statement.2.2]⟩
    | next =>
      simp only [pc] at statement ⊢
      obtain ⟨current, f, fs, rfl, read⟩ := statement
      exact ⟨current, f, fs ++ more, rfl, read⟩

/-- What `dataAvailable` returns and leaves behind. -/
theorem Inv.poll (inv : Inv location destId ops log passed rest s) (pc : s.pc = .poll)
    (clock : ClockAt s now) :
    ∃ r, Reader.dataAvailable now (s.reader, s.store) = .ok (!rest.isEmpty) (r, s.store) ∧
      Inv location destId ops log passed rest
        { s with
          reader := r
          pc := if !rest.isEmpty then .read else .poll } := by
  obtain ⟨b, r, ran, same, tracks, result⟩ := Reader.dataAvailable_spec inv.tracks (inv.clock clock)
  obtain ⟨j, journals, page, frame⟩ := inv.journal
  have read : s.read = passed := by simpa [pc] using inv.statement
  have keys : r.journals.map Prod.fst = [key location destId] := by rw [same, journals]; rfl
  rcases result with ⟨rfl, k, f, chosen⟩ | ⟨rfl, rfl, empty⟩
  · have nonempty : rest ≠ [] := by
      intro nil
      have head := chosen.head
      simp [nil] at head
    have isKey : k = key location destId := by
      have joined := chosen.joined
      rw [keys] at joined
      exact List.mem_singleton.mp joined
    have test : (!rest.isEmpty) = true := by simpa using nonempty
    rw [test]
    refine ⟨r, ran, ⟨inv.layout, inv.typed, inv.writer, inv.written, inv.pending, inv.remaining,
      inv.firstPage, ⟨j, same.trans journals, page, frame⟩, ?_, ?_⟩⟩
    · intro k' current
      have joined := tracks.current k' current
      rw [keys] at joined
      exact List.mem_singleton.mp joined
    · exact ⟨read, isKey ▸ chosen.current, nonempty⟩
  · have nil : rest = [] :=
      empty (key location destId) (by rw [keys]; exact List.mem_singleton_self _)
    subst nil
    exact ⟨s.reader, ran, ⟨inv.layout, inv.typed, inv.writer, inv.written, inv.pending,
      inv.remaining, inv.firstPage, ⟨j, journals, page, frame⟩, inv.current, read⟩⟩

theorem Inv.read (inv : Inv location destId ops log passed rest s) (pc : s.pc = .read) :
    ∃ m a, Reader.currentFrame (s.reader, s.store) = .ok (m, a) (s.reader, s.store) ∧
      Inv location destId ops log passed rest
        { s with
          pc := .next
          read := s.read ++ [FrameUnit.read m a] } := by
  have statement : s.read = passed ∧ s.reader.current = some (key location destId) ∧ rest ≠ [] := by
    simpa [pc] using inv.statement
  obtain ⟨read, current, nonempty⟩ := statement
  obtain ⟨f, fs, rfl⟩ := List.exists_cons_of_ne_nil nonempty
  obtain ⟨m, a, ran, frame⟩ := Reader.read_spec (f := f) inv.tracks current rfl
  refine ⟨m, a, ran, ⟨inv.layout, inv.typed, inv.writer, inv.written, inv.pending, inv.remaining,
    inv.firstPage, inv.journal, inv.current, ?_⟩⟩
  exact ⟨current, f, fs, rfl, by rw [frame, read]⟩

theorem Inv.next (inv : Inv location destId ops log passed rest s) (pc : s.pc = .next)
    (clock : ClockAt s now) :
    ∃ r f fs, Reader.next now (s.reader, s.store) = .ok () (r, s.store) ∧ rest = f :: fs ∧
      Inv location destId ops log (passed ++ [f]) fs
        { s with
          reader := r
          pc := .poll } := by
  have statement : s.reader.current = some (key location destId) ∧
      ∃ f fs, rest = f :: fs ∧ s.read = passed ++ [f] := by simpa [pc] using inv.statement
  obtain ⟨current, f, fs, rfl, read⟩ := statement
  obtain ⟨j, journals, page, frame⟩ := inv.journal
  have found : s.reader.find (key location destId) = some j := by simp [Reader.find, journals]
  obtain ⟨r, j', ran, replaced, samePage, facing, keys, tracks⟩ :=
    Reader.next_spec inv.tracks current found (inv.facing page frame) rfl (inv.clock clock)
  refine ⟨r, f, fs, ran, rfl, ⟨inv.layout, inv.typed, inv.writer, inv.written, inv.pending,
    inv.remaining, ?_, ⟨j', ?_, samePage.trans page, facing.frame⟩, ?_, read⟩⟩
  · rw [inv.firstPage, List.append_assoc, List.singleton_append]
  · rw [replaced]
    simp [Reader.replace, journals]
  · intro k current'
    have joined := tracks.current k current'
    rw [keys, journals] at joined
    exact List.mem_singleton.mp joined

/-- Every step keeps the invariant. -/
theorem Inv.step (inv : Inv location destId ops log passed rest s)
    (adm : ∀ op ∈ ops, op.Admissible location)
    (typed : ∀ op ∈ ops, 0 < (op.frame location.uid destId).msgType)
    (step : Step location destId s s') :
    ∃ log passed rest, Inv location destId ops log passed rest s' := by
  cases step with
  | write op later w files pending ran =>
    obtain ⟨more, inv'⟩ := inv.write adm typed pending ran
    exact ⟨_, _, _, inv'⟩
  | poll now b r store pc clock ran =>
    obtain ⟨r', ran', inv'⟩ := inv.poll pc clock
    rw [ran'] at ran
    injection ran with same result
    obtain ⟨rfl, rfl⟩ : r' = r ∧ s.store = store := by simpa using result
    rw [same] at inv'
    exact ⟨_, _, _, inv'⟩
  | read m a r store pc ran =>
    obtain ⟨m', a', ran', inv'⟩ := inv.read pc
    rw [ran'] at ran
    injection ran with same result
    obtain ⟨rfl, rfl⟩ : m' = m ∧ a' = a := by simpa using same
    obtain ⟨rfl, rfl⟩ : s.reader = r ∧ s.store = store := by simpa using result
    exact ⟨_, _, _, inv'⟩
  | next now r store pc clock ran =>
    obtain ⟨r', f, fs, ran', _, inv'⟩ := inv.next pc clock
    rw [ran'] at ran
    injection ran with _ result
    obtain ⟨rfl, rfl⟩ : r' = r ∧ s.store = store := by simpa using result
    exact ⟨_, _, _, inv'⟩

end Steps

section Begin
variable {ops : List WriteOp} {files : JournalFiles} {store₀ store : FileStore} {r : Reader}
  {readerLazy : Bool} {fromTime clock : Int64}
  {order : List (UInt64 × Journal) → List (UInt64 × Journal)}

/-- A join that seeks to the first slot of an empty page 1. -/
theorem inv_of_joined (ops : List WriteOp) (isLazy : Bool) (start : UInt32)
    (layout : Layout location files PagedLog.empty) (perm : ∀ entries, (order entries).Perm entries)
    (sought : Journal.seekToTime fromTime (Opening.make ⟨location, destId, false, readerLazy⟩,
        store₀ (key location destId)) =
      .ok () (Opening.placed ⟨location, destId, false, readerLazy⟩ 1 24 0, files))
    (joined : Reader.join location destId fromTime 0 order clock (Reader.make readerLazy, store₀) =
      .ok () (r, store)) :
    store = Function.update store₀ (key location destId) files ∧
    Inv location destId ops PagedLog.empty [] []
      ⟨Writer.Handle.atEnd ⟨location, destId, isLazy, start⟩ PagedLog.empty, r, store, .poll, ops,
        [], []⟩ := by
  have tracks₀ : Reader.Tracks (Reader.make readerLazy) store₀ (fun _ => []) :=
    ⟨by simp [Reader.make], by simp [Reader.make], by simp [Reader.make]⟩
  have facing :
      Journal.Facing files (Opening.placed ⟨location, destId, false, readerLazy⟩ 1 24 0) [] [] :=
    ⟨⟨_, rfl, layout.current.shows⟩, rfl, by simp⟩
  obtain ⟨r', ran, keys, member, _, tracks⟩ := Reader.join_spec tracks₀ perm (by simp [Reader.make])
    sought facing (by simp) (by simp)
  rw [ran] at joined
  injection joined with _ result
  obtain ⟨rfl, rfl⟩ : r' = r ∧ Function.update store₀ (key location destId) files = store := by
    simpa [key] using result
  have keys' : r'.journals.map Prod.fst = [key location destId] := List.perm_singleton.mp keys
  have journals : r'.journals =
      [(key location destId, Opening.placed ⟨location, destId, false, readerLazy⟩ 1 24 0)] := by
    match list : r'.journals with
    | [] => simp [list] at member
    | [entry] =>
      rw [list, List.mem_singleton] at member
      rw [← member]
      rfl
    | _ :: _ :: _ => simp [list] at keys'
  refine ⟨rfl, ⟨by simpa using layout, by simp [Log.Typed], ⟨isLazy, start, rfl⟩, rfl, rfl,
    List.suffix_refl _, rfl, ⟨_, journals, rfl, rfl⟩, ?_, rfl⟩⟩
  intro k current
  have joined := tracks.current k current
  rw [keys'] at joined
  exact List.mem_singleton.mp joined

theorem Start.inv {s : System} (start : Start location destId ops s) :
    Inv location destId ops PagedLog.empty [] [] s := by
  have layout := Layout.start location
  cases start with
  | writerFirst isLazy _ started now _ _ _ _ _ w files r perm fresh made joined =>
    rw [fresh, Writer.make_fresh] at made
    injection made with madeWriter madeFiles
    subst madeWriter madeFiles
    rename_i readerLazy fromTime clock order store₀ store
    obtain ⟨k, fs, landing, sought⟩ :=
      Opening.seekToTime_spec ⟨location, destId, false, readerLazy⟩ layout fromTime
    obtain ⟨rfl, rfl⟩ := landing.onlyPage rfl
    exact (inv_of_joined ops isLazy (timeHashed started) layout perm
      (by rw [Function.update_self]; exact sought) joined).2
  | readerFirst isLazy readerLazy started now fromTime clock order store₀ store w files r perm fresh
      joined made =>
    cases readerLazy with
    | true =>
      obtain ⟨s, failed⟩ := Opening.seekToTime_fresh_lazy location destId fromTime
      simp only [← fresh, Opening.make] at failed
      have only := List.perm_singleton.mp
        (perm [(key location destId, Journal.make location destId false true 0)])
      cases entered : Reader.onJournal (key location destId) (Journal.seekToTime fromTime)
          (⟨true, none, order [(key location destId, Journal.make location destId false true 0)]⟩,
            store₀) with
      | ok a state =>
        simp only [Reader.onJournal, Reader.find, only, List.lookup_cons, beq_self_eq_true,
          failed] at entered
        contradiction
      | error e state =>
        rw [key] at entered
        simp [Reader.join, Reader.make, Reader.find, entered] at joined
    | false =>
      have sought := Opening.seekToTime_fresh ⟨location, destId, false, false⟩ rfl fromTime
      obtain ⟨rfl, inv⟩ := inv_of_joined ops isLazy (timeHashed started) layout perm
        (by rw [fresh]; exact sought) joined
      rw [Function.update_self, Writer.make_empty layout rfl rfl, EStateM.Result.ok.injEq] at made
      obtain ⟨rfl, rfl⟩ := made
      rw [Function.update_idem]
      exact inv

end Begin

section Runs
variable {ops : List WriteOp} {log : Log} {passed rest : List Frame} {s : System}

theorem reachable_inv (adm : ∀ op ∈ ops, op.Admissible location)
    (typed : ∀ op ∈ ops, 0 < (op.frame location.uid destId).msgType)
    (reachable : Reachable location destId ops s) :
    ∃ log passed rest, Inv location destId ops log passed rest s := by
  obtain ⟨s₀, start, steps⟩ := reachable
  induction steps with
  | refl => exact ⟨_, _, _, start.inv⟩
  | tail _ step ih =>
    obtain ⟨log, passed, rest, inv⟩ := ih
    exact inv.step adm typed step

theorem Inv.read_initial (inv : Inv location destId ops log passed rest s) :
    s.read <+: s.written := by
  have page : passed ++ rest <+: s.written := by
    rw [← inv.firstPage, inv.written]
    exact firstPage_initial log
  have statement := inv.statement
  cases pc : s.pc with
  | poll =>
    simp only [pc] at statement
    rw [statement]
    exact (List.prefix_append _ _).trans page
  | read =>
    simp only [pc] at statement
    rw [statement.1]
    exact (List.prefix_append _ _).trans page
  | next =>
    simp only [pc] at statement
    obtain ⟨_, f, fs, rfl, read⟩ := statement
    rw [read]
    have extended : passed ++ [f] <+: passed ++ f :: fs := ⟨fs, by simp⟩
    exact extended.trans page

/-- The writer can make the rest of its operations from any state. -/
theorem Inv.writes (inv : Inv location destId ops log passed rest s)
    (adm : ∀ op ∈ ops, op.Admissible location)
    (typed : ∀ op ∈ ops, 0 < (op.frame location.uid destId).msgType) :
    ∃ s' log' rest', Relation.ReflTransGen (Step location destId) s s' ∧ s'.pending = [] ∧
      s'.pc = s.pc ∧ Inv location destId ops log' passed rest' s' := by
  obtain ⟨pending, same⟩ : ∃ pending, s.pending = pending := ⟨_, rfl⟩
  induction pending generalizing s log rest with
  | nil => exact ⟨s, log, rest, .refl, same, rfl, inv⟩
  | cons op later ih =>
    have member : op ∈ ops := inv.remaining.subset (by rw [same]; exact List.mem_cons_self)
    obtain ⟨isLazy, start, writer⟩ := inv.writer
    obtain ⟨files, ran, _⟩ := WriteOp.run_append ⟨location, destId, isLazy, start⟩ inv.layout
      (adm op member)
    rw [← writer] at ran
    obtain ⟨more, inv'⟩ := inv.write adm typed same ran
    obtain ⟨s', log', rest', steps, done, pc, final⟩ := ih inv' rfl
    exact ⟨s', log', rest', .head (.write s op later _ files same ran) steps, done, pc, final⟩

theorem clock_exists (s : System) : ClockAt s Int64.maxValue := by
  intro f _
  rw [Int64.le_iff_toInt_le]
  exact f.genTime.toInt_le

/-- The loop can pass everything in front of the cursor. -/
theorem Inv.drain (inv : Inv location destId ops log passed rest s) (pc : s.pc = .poll) :
    ∃ s', Relation.ReflTransGen (Step location destId) s s' ∧ s'.pending = s.pending ∧
      s'.pc = .poll ∧ Inv location destId ops log (passed ++ rest) [] s' := by
  induction rest generalizing s passed with
  | nil => exact ⟨s, .refl, rfl, pc, by rwa [List.append_nil]⟩
  | cons f fs ih =>
    obtain ⟨r₁, polled, inv₁⟩ := inv.poll pc (clock_exists s)
    have first : Step location destId s _ := .poll s _ _ _ _ pc (clock_exists s) polled
    obtain ⟨m, a, seen, inv₂⟩ := inv₁.read rfl
    have second : Step location destId _ _ := .read _ _ _ _ _ rfl seen
    obtain ⟨r₃, g, gs, moved, same, inv₃⟩ := inv₂.next rfl (clock_exists _)
    have third : Step location destId _ _ := .next _ _ _ _ rfl (clock_exists _) moved
    obtain ⟨rfl, rfl⟩ : f = g ∧ fs = gs := by simpa using same
    obtain ⟨s', steps, pending, pc', final⟩ := ih inv₃ rfl
    refine ⟨s', .head first (.head second (.head third steps)), pending, pc', ?_⟩
    simpa using final

end Runs

/-- The frames of the operations fit one page together. -/
def OnePage (location : JLocation) (destId : UInt32) (ops : List WriteOp) : Prop :=
  span (ops.map (WriteOp.frame location.uid destId)) < pageRoom (findPageSize location)

theorem onePage_iff {ops : List WriteOp} :
    OnePage location destId ops ↔
      (WriteOp.appendAll location destId PagedLog.empty ops).closed = [] := by
  have room := pageRoom_bounds location
  have bounds := findPageSize_bounds location
  have mib : mebibyte = 1048576 := rfl
  rw [WriteOp.appendAll_eq, PagedLog.appendAll_one_page rfl (by
    change 0 < _
    omega)]
  simp [OnePage, PagedLog.empty, used_eq_span, Function.comp_def]

theorem delivers_of_onePage {ops : List WriteOp} (adm : ∀ op ∈ ops, op.Admissible location)
    (typed : ∀ op ∈ ops, 0 < (op.frame location.uid destId).msgType)
    (onePage : OnePage location destId ops) : Delivers location destId ops := by
  refine ⟨?_, ?_, ?_⟩
  · intro s reachable
    obtain ⟨log, passed, rest, inv⟩ := reachable_inv adm typed reachable
    exact inv.read_initial
  · intro s now reachable pc clock
    obtain ⟨log, passed, rest, inv⟩ := reachable_inv adm typed reachable
    obtain ⟨r, ran, _⟩ := inv.poll pc clock
    exact ⟨_, _, _, ran⟩
  · intro s now r store reachable pc pending clock ran
    obtain ⟨log, passed, rest, inv⟩ := reachable_inv adm typed reachable
    obtain ⟨r', ran', _⟩ := inv.poll pc clock
    rw [ran'] at ran
    injection ran with drained
    have nil : rest = [] := by simpa using drained
    have whole : log = WriteOp.appendAll location destId PagedLog.empty ops := by
      rw [← inv.pending, pending]
      rfl
    have only : log.closed = [] := by rw [whole]; exact onePage_iff.mp onePage
    have read : s.read = passed := by simpa [pc] using inv.statement
    have page := inv.firstPage
    rw [nil, List.append_nil] at page
    have contents := WriteOp.contents_appendAll location destId PagedLog.empty ops
    rw [← whole, PagedLog.contents_empty, List.nil_append] at contents
    rw [read, ← page]
    simpa [firstPage, PagedLog.pages, PagedLog.contents, only] using contents

theorem start_exists (location : JLocation) (destId : UInt32) (ops : List WriteOp) :
    ∃ s, Start location destId ops s ∧ s.pc = .poll := by
  have layout := Layout.start location
  obtain ⟨k, fs, landing, sought⟩ :=
    Opening.seekToTime_spec ⟨location, destId, false, true⟩ layout 0
  obtain ⟨rfl, rfl⟩ := landing.onlyPage rfl
  let files := JournalFiles.fresh.addPage 1 (findPageSize location)
  let store : FileStore := Function.update (fun _ => JournalFiles.fresh) (key location destId) files
  have tracks : Reader.Tracks (Reader.make true) store (fun _ => []) :=
    ⟨by simp [Reader.make], by simp [Reader.make], by simp [Reader.make]⟩
  have facing :
      Journal.Facing files (Opening.placed ⟨location, destId, false, true⟩ 1 24 0) [] [] :=
    ⟨⟨_, rfl, layout.current.shows⟩, rfl, by simp⟩
  have here : store (Reader.journalKey location.uid destId) = files := Function.update_self _ _ _
  have sought' :
      Journal.seekToTime 0 (Journal.make location destId false (Reader.make true).isLazy 0,
      store (Reader.journalKey location.uid destId)) =
      .ok () (Opening.placed ⟨location, destId, false, true⟩ 1 24 0, files) := by
    rw [here]
    exact sought
  obtain ⟨r, joined, _⟩ := Reader.join_spec tracks (fun entries => List.Perm.refl (id entries))
    (by simp [Reader.make]) sought' facing (by simp) (by simp)
  exact ⟨_, .writerFirst true true 0 0 0 0 id _ _ _ _ r (fun _ => .refl _) rfl
    (Writer.make_fresh location destId true 0 0) joined, rfl⟩

/-- The loop returned although frames were written that it has not read. -/
structure Stuck (location : JLocation) (destId : UInt32) (ops : List WriteOp)
    (s : System) : Prop where
  reachable : Reachable location destId ops s
  done : s.pending = []
  pc : s.pc = .poll
  returned : ∃ now r store, ClockAt s now ∧
    Reader.dataAvailable now (s.reader, s.store) = .ok false (r, store)
  unread : s.read ≠ ops.map (WriteOp.frame location.uid destId)

/-- A page change stops the reader: it stays on the page end marker of page 1. -/
theorem stuck_of_pageChange {ops : List WriteOp} (adm : ∀ op ∈ ops, op.Admissible location)
    (typed : ∀ op ∈ ops, 0 < (op.frame location.uid destId).msgType)
    (change : ¬ OnePage location destId ops) : ∃ s, Stuck location destId ops s := by
  obtain ⟨s₀, start, pc₀⟩ := start_exists location destId ops
  obtain ⟨s₁, log, rest, written, done, pc₁, inv₁⟩ := start.inv.writes adm typed
  obtain ⟨s₂, drained, pending, pc₂, inv₂⟩ := inv₁.drain (pc₁.trans pc₀)
  obtain ⟨r, ran, _⟩ := inv₂.poll pc₂ (clock_exists s₂)
  refine ⟨s₂, ⟨⟨s₀, start, written.trans drained⟩, pending.trans done, pc₂,
    ⟨_, r, _, clock_exists s₂, ran⟩, ?_⟩⟩
  intro read
  have passed : s₂.read = firstPage log := by
    have statement := inv₂.statement
    simp only [pc₂] at statement
    rw [statement, inv₂.firstPage, List.append_nil]
  have whole : log = WriteOp.appendAll location destId PagedLog.empty ops := by
    rw [← inv₂.pending, pending, done]
    rfl
  have contents := WriteOp.contents_appendAll location destId PagedLog.empty ops
  rw [← whole, PagedLog.contents_empty, List.nil_append, ← read, passed] at contents
  rw [onePage_iff, ← whole] at change
  obtain ⟨page, pages, split⟩ := List.exists_cons_of_ne_nil change
  have some : ops ≠ [] := by
    rintro rfl
    rw [whole] at change
    exact change rfl
  have last : log.current ≠ [] := by
    rw [whole, WriteOp.appendAll_eq]
    exact PagedLog.current_appendAll_ne_nil _ (by simpa using some)
  simp [firstPage, PagedLog.pages, PagedLog.contents, split, last] at contents

/-- Delivery works exactly as long as the page is never changed. -/
theorem delivers_iff_onePage (location : JLocation) (destId : UInt32) {ops : List WriteOp}
    (adm : ∀ op ∈ ops, op.Admissible location)
    (typed : ∀ op ∈ ops, 0 < (op.frame location.uid destId).msgType) :
    Delivers location destId ops ↔ OnePage location destId ops := by
  refine ⟨fun delivers => ?_, delivers_of_onePage adm typed⟩
  by_contra change
  obtain ⟨s, stuck⟩ := stuck_of_pageChange adm typed change
  obtain ⟨now, r, store, clock, ran⟩ := stuck.returned
  exact stuck.unread (delivers.complete s now r store stuck.reachable stuck.pc stuck.done clock ran)

def marks : List WriteOp := [.mark 3 101 4 5, .mark 6 102 7 8]

theorem marks_admissible : (∀ op ∈ marks, op.Admissible Writer.simAccount) ∧
    ∀ op ∈ marks, 0 < (op.frame Writer.simAccount.uid 7).msgType := by
  refine ⟨?_, by decide⟩
  intro op member
  simp only [marks, List.mem_cons, List.not_mem_nil, or_false] at member
  rcases member with rfl | rfl <;>
    exact ⟨by simp [WriteOp.frame, WriteOp.content, pageEndTag], by
      simp [WriteOp.frame, WriteOp.content, findPageSize, Writer.simAccount,
        JLocation.make, mebibyte]⟩

theorem delivers_marks : Delivers Writer.simAccount 7 marks ↔ OnePage Writer.simAccount 7 marks :=
  delivers_iff_onePage Writer.simAccount 7 marks_admissible.1 marks_admissible.2

/-- Two frames with the same payload. -/
def twice (data : List UInt8) : List WriteOp := [.writeRaw 3 101 data 4 5, .writeRaw 6 101 data 7 8]

theorem twice_admissible {data : List UInt8} (length : data.length = 9000000) :
    ∀ op ∈ twice data, op.Admissible Writer.simAccount := by
  intro op member
  simp only [twice, List.mem_cons, List.not_mem_nil, or_false] at member
  rcases member with rfl | rfl <;>
    exact ⟨by simp [WriteOp.frame, WriteOp.content, pageEndTag], by
      simp [WriteOp.frame, WriteOp.content, findPageSize, Writer.simAccount,
        JLocation.make, mebibyte, length]⟩

theorem twice_typed (data : List UInt8) :
    ∀ op ∈ twice data, 0 < (op.frame Writer.simAccount.uid 7).msgType := by
  intro op member
  simp only [twice, List.mem_cons, List.not_mem_nil, or_false] at member
  rcases member with rfl | rfl <;> exact (by decide : (0 : Int32) < 101)

theorem twice_pageChange {data : List UInt8} (length : data.length = 9000000) :
    ¬ OnePage Writer.simAccount 7 (twice data) := by
  simp [OnePage, twice, span, WriteOp.frame, WriteOp.content, Frame.size_eq, pageRoom, findPageSize,
    Writer.simAccount, JLocation.make, mebibyte, length,
    sizeofPageHeader, sizeofFrameHeader]

theorem twice_stuck_of_length {data : List UInt8} (length : data.length = 9000000) :
    (∀ op ∈ twice data, op.Admissible Writer.simAccount) ∧
    (∀ op ∈ twice data, 0 < (op.frame Writer.simAccount.uid 7).msgType) ∧
    ∃ s, Stuck Writer.simAccount 7 (twice data) s :=
  ⟨twice_admissible length, twice_typed data,
    stuck_of_pageChange (twice_admissible length) (twice_typed data) (twice_pageChange length)⟩

/-- Two payloads of nine million bytes: the second frame goes to page 2. -/
theorem twice_stuck :
    (∀ op ∈ twice (List.replicate 9000000 1), op.Admissible Writer.simAccount) ∧
    (∀ op ∈ twice (List.replicate 9000000 1), 0 < (op.frame Writer.simAccount.uid 7).msgType) ∧
    ∃ s, Stuck Writer.simAccount 7 (twice (List.replicate 9000000 1)) s :=
  twice_stuck_of_length List.length_replicate

end BTrader.Delivery
