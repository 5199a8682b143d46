import BTrader.Journal.Reopen
import BTrader.Journal.Delivery

/-! The contract of `seekToTime`: the first frame later than the time, in write order, or
the free slot behind the last frame. When the seek meets it on a journal whose times do not
go back. -/
namespace BTrader
open ByteMemory Infra Procedure

namespace Log

/-- Where the seek should rest: the index of a page and the frames before the cursor in it. -/
inductive Target (log : Log) (time : Int64) : Nat → List Frame → Prop
  | frame (page : log.pages[i]? = some (before ++ f :: rest)) (later : time < f.genTime)
      (earlier : ∀ g ∈ (log.pages.take i).flatten ++ before, g.genTime ≤ time) :
        Target log time i before
  | slot (none : ∀ g ∈ log.contents, g.genTime ≤ time) :
      Target log time log.closed.length log.current

/-- The seek comes through to that place: of the pages before, those that the search for
the page does not leave behind are passed as full, the page itself is not, and the frames
before the cursor have data. -/
structure Seekable (size : Nat) (log : Log) (time : Int64) (i : Nat)
    (before : List Frame) : Prop where
  passed : ∀ k fs next, k < i → log.stored[k]? = some fs → log.pages[k + 1]? = some next →
    time = 0 ∨ ¬ beginTime next < time → Passed size time fs
  stops : ∀ fs, log.stored[i]? = some fs → ¬ Passed size time fs
  typed : ∀ g ∈ before, 0 < g.msgType

variable {log : Log} {time : Int64} {size i k : Nat}

theorem first_later (pages : List (List Frame)) (some' : ∃ g ∈ pages.flatten, time < g.genTime) :
    ∃ i before f rest, pages[i]? = some (before ++ f :: rest) ∧ time < f.genTime ∧
      ∀ g ∈ (pages.take i).flatten ++ before, g.genTime ≤ time := by
  induction pages with
  | nil => simp at some'
  | cons page pages ih =>
    by_cases all : ∀ g ∈ page, g.genTime ≤ time
    · obtain ⟨g, member, late⟩ := some'
      have later : g ∈ pages.flatten := by
        rcases List.mem_append.mp (List.flatten_cons ▸ member) with here | later
        · exact absurd (all g here) (by simpa using late)
        · exact later
      obtain ⟨i, before, f, rest, found, late, earlier⟩ := ih ⟨g, later, late⟩
      refine ⟨i + 1, before, f, rest, by simpa using found, late, ?_⟩
      intro h present
      simp only [List.take_succ_cons, List.flatten_cons, List.append_assoc] at present
      rcases List.mem_append.mp present with first | second
      · exact all h first
      · exact earlier h second
    · have split : page.takeWhile (fun g => decide (g.genTime ≤ time)) ++
          page.dropWhile (fun g => decide (g.genTime ≤ time)) = page :=
            List.takeWhile_append_dropWhile
      cases tail : page.dropWhile (fun g => decide (g.genTime ≤ time)) with
      | nil =>
        rw [tail, List.append_nil] at split
        have through := List.takeWhile_eq_self_iff.mp split
        exact absurd (fun g member => of_decide_eq_true (through g member)) all
      | cons f rest =>
        refine ⟨0, _, f, rest, by rw [← tail, split]; rfl, ?_, ?_⟩
        · have stops := List.head_dropWhile_not (fun g : Frame => decide (g.genTime ≤ time))
            (l := page) (by simp [tail])
          simpa [tail] using stops
        · intro g present
          have taken : g ∈ page.takeWhile (fun g => decide (g.genTime ≤ time)) := by
            simpa using present
          have test : decide (g.genTime ≤ time) = true :=
            List.mem_takeWhile_imp (p := fun g : Frame => decide (g.genTime ≤ time)) taken
          exact of_decide_eq_true test

theorem Target.exists (log : Log) (time : Int64) : ∃ i before, Target log time i before := by
  by_cases none : ∀ g ∈ log.contents, g.genTime ≤ time
  · exact ⟨_, _, .slot none⟩
  · have some' : ∃ g ∈ log.pages.flatten, time < g.genTime := by
      rw [log.contents_pages]
      simpa using none
    obtain ⟨i, before, f, rest, page, later, earlier⟩ := first_later log.pages some'
    exact ⟨i, before, .frame page later earlier⟩

/-- What a page stores begins with its frames. -/
theorem stored_of_page (page : log.pages[i]? = some fs) :
    ∃ tail, log.stored[i]? = some (fs ++ tail) := by
  have bound := (List.getElem?_eq_some_iff.mp page).1
  rw [PagedLog.pages_length] at bound
  by_cases last : i = log.closed.length
  · subst last
    obtain rfl : log.current = fs := by simpa [PagedLog.pages] using page
    exact ⟨[], by simp [stored]⟩
  · have inner : i < log.closed.length := by omega
    have closed := List.getElem?_eq_getElem inner
    generalize log.closed[i] = entry at closed
    obtain ⟨gs, mark⟩ := entry
    obtain rfl : gs = fs := Option.some.inj ((PagedLog.pages_closed closed).symm.trans page)
    exact ⟨[mark.frame], stored_closed closed⟩

theorem Target.page (target : Target log time i before) :
    ∃ tail, log.stored[i]? = some (before ++ tail) ∧ (∀ g ∈ before, g.genTime ≤ time) ∧
      ∀ f ∈ tail.head?, ¬ Due time f := by
  cases target with
  | frame page later earlier =>
    obtain ⟨tail, stored⟩ := stored_of_page page
    rw [List.append_assoc] at stored
    refine ⟨_, stored, fun g member => earlier g (List.mem_append_right _ member), ?_⟩
    intro f head due
    simp only [List.cons_append, List.head?_cons, Option.mem_def, Option.some.injEq] at head
    subst head
    exact absurd due.2 (by simpa using later)
  | slot none =>
    refine ⟨[], by simp [stored], ?_, by simp⟩
    intro g member
    exact none g (List.mem_append_right _ member)

theorem due_append (all : ∀ g ∈ fs, Due time g) (stops : ∀ f ∈ tail.head?, ¬ Due time f) :
    due time (fs ++ tail) = fs := by
  induction fs with
  | nil =>
    cases tail with
    | nil => rfl
    | cons f tail =>
      have not := stops f (by simp)
      simp [due, not]
  | cons f fs ih =>
    have here := all f List.mem_cons_self
    have rest := ih fun g member => all g (List.mem_cons_of_mem _ member)
    simpa [due, here] using rest

section Ordered
variable (sorted : log.contents.Pairwise fun f g => f.genTime ≤ g.genTime)
    (filled : PagedLog.Filled log)
include sorted

theorem pages_ordered (before : i < k) (page : log.pages[i]? = some fs)
    (page' : log.pages[k]? = some gs) :
    ∀ f ∈ fs, ∀ g ∈ gs, f.genTime ≤ g.genTime := by
  rw [← log.contents_pages, List.pairwise_flatten] at sorted
  obtain ⟨bound, rfl⟩ := List.getElem?_eq_some_iff.mp page
  obtain ⟨bound', rfl⟩ := List.getElem?_eq_some_iff.mp page'
  exact List.pairwise_iff_getElem.mp sorted.2 i k bound bound' before

include filled

omit sorted in
/-- A page behind the first begins with a frame, and with its time. -/
theorem beginTime_page (page : log.pages[k + 1]? = some next) :
    ∃ f rest, next = f :: rest ∧ beginTime next = f.genTime ∧
      ∀ fs, log.stored[k + 1]? = some fs → beginTime fs = f.genTime := by
  have bound := (List.getElem?_eq_some_iff.mp page).1
  rw [PagedLog.pages_length] at bound
  have more : log.closed ≠ [] := List.ne_nil_of_length_pos (by omega)
  obtain ⟨f, rest, rfl⟩ := List.exists_cons_of_ne_nil (filled.page more (List.mem_of_getElem? page))
  refine ⟨f, rest, rfl, rfl, ?_⟩
  intro fs stored
  obtain ⟨tail, stored'⟩ := stored_of_page page
  obtain rfl := Option.some.inj (stored.symm.trans stored')
  rfl

theorem Found.le_target (found : Found log time start) (target : Target log time i before) :
    start ≤ i := by
  by_contra after
  have bound := found.bound
  rw [stored_length, lastPageId] at bound
  obtain ⟨k, rfl⟩ : ∃ k, start = k + 1 := ⟨start - 1, by omega⟩
  cases target with
  | slot none => omega
  | @frame i before f rest page later earlier =>
    have bound' : k + 1 < log.pages.length := by
      rw [PagedLog.pages_length]
      exact bound
    have page' := List.getElem?_eq_getElem bound'
    obtain ⟨g, rest', split, _, begins⟩ := beginTime_page filled page'
    have early : g.genTime < time := by
      rcases found.earlier with first | ⟨_, begin'⟩
      · omega
      · have stored := List.getElem?_eq_getElem found.bound
        rw [← begins _ stored]
        exact begin' _ stored
    rw [split] at page'
    have order := pages_ordered sorted (by omega) page page' f (by simp) g (by simp)
    exact absurd (Int64.lt_of_lt_of_le later order) (by simpa using Int64.le_of_lt early)

/-- A page the search leaves behind is followed by one that begins before the time. -/
theorem Found.begins (found : Found log time start) (behind : k < start)
    (page : log.pages[k + 1]? = some next) : ¬ (time = 0 ∨ ¬ beginTime next < time) := by
  have bound := found.bound
  rw [stored_length, lastPageId] at bound
  obtain ⟨n, rfl⟩ : ∃ n, start = n + 1 := ⟨start - 1, by omega⟩
  obtain ⟨f, rest, rfl, begins, _⟩ := beginTime_page filled page
  have bound' : n + 1 < log.pages.length := by
    rw [PagedLog.pages_length]
    exact bound
  have page' := List.getElem?_eq_getElem bound'
  obtain ⟨g, rest', split, _, begins'⟩ := beginTime_page filled page'
  rcases found.earlier with first | ⟨positive, early⟩
  · omega
  · have stored := List.getElem?_eq_getElem found.bound
    have before : g.genTime < time := by
      rw [← begins' _ stored]
      exact early _ stored
    have order : f.genTime ≤ g.genTime := by
      by_cases same : k = n
      · subst same
        rw [page', Option.some.injEq] at page
        obtain ⟨rfl, _⟩ := List.cons.inj (split.symm.trans page)
        exact Int64.le_refl _
      · rw [split] at page'
        exact pages_ordered sorted (by omega) page page' f (by simp) g (by simp)
    rw [not_or, not_not, begins]
    exact ⟨positive, Int64.lt_of_le_of_lt order before⟩

/-- The seek lands on the target exactly when it comes through to it. -/
theorem landing_iff (landing : Landing size log time k fs) (target : Target log time i before) :
    k = i ∧ due time fs = before ↔ Seekable size log time i before := by
  obtain ⟨start, found, le, between⟩ := landing.found
  obtain ⟨tail, stored, reached, stops⟩ := target.page
  have le' := found.le_target sorted filled target
  constructor
  · rintro ⟨rfl, rfl⟩
    refine ⟨?_, ?_, ?_⟩
    · intro n gs next before page page' begins
      by_cases inside : start ≤ n
      · exact between n gs inside before page
      · exact absurd begins (found.begins sorted filled (by omega) page')
    · intro gs page
      obtain rfl := Option.some.inj (landing.page.symm.trans page)
      exact landing.stops
    · intro g member
      exact (of_decide_eq_true
        (List.mem_takeWhile_imp (p := fun f => decide (Due time f)) member)).1
  · intro seekable
    have same : k = i := by
      rcases Nat.lt_trichotomy k i with early | same | late
      · have bound := (List.getElem?_eq_some_iff.mp stored).1
        rw [stored_length, lastPageId] at bound
        have bound' : k + 1 < log.pages.length := by
          rw [PagedLog.pages_length]
          omega
        have page' := List.getElem?_eq_getElem bound'
        obtain ⟨f, rest, _, begins, begins'⟩ := beginTime_page filled page'
        have bound'' : k + 1 < log.stored.length := by
          rw [stored_length, lastPageId]
          omega
        have later := found.later (k + 1) _ (by omega) (List.getElem?_eq_getElem bound'')
        rw [begins' _ (List.getElem?_eq_getElem bound''), ← begins] at later
        exact absurd (seekable.passed k fs _ early landing.page page' later) landing.stops
      · exact same
      · exact absurd (between i _ le' late stored) (seekable.stops _ stored)
    subst same
    obtain rfl := Option.some.inj (landing.page.symm.trans stored)
    exact ⟨rfl, due_append (fun g member => ⟨seekable.typed g member, reached g member⟩) stops⟩

end Ordered
end Log

namespace Opening

variable {o : Opening} {files : JournalFiles} {log : Log}

/-- A journal object before its first seek, or with its cursor anywhere on a page. -/
def Opened (o : Opening) (log : Log) (j : Journal) : Prop :=
  j = o.make ∨ ∃ k a nb, 1 ≤ k ∧ k ≤ log.lastPageId ∧ j = o.placed k a nb

/-- The seek does not depend on where the cursor was. -/
theorem seekToTime_opened {j : Journal} (layout : Layout o.location files log)
    (opened : Opened o log j) (time : Int64) :
      Journal.seekToTime time (j, files) = Journal.seekToTime time (o.make, files) := by
  rcases opened with rfl | ⟨k, a, nb, lower, upper, rfl⟩
  · rfl
  · obtain ⟨i, found, search⟩ := PageUnit.findPageId_spec layout o.destId time
    have inside : i + 1 ≤ log.lastPageId := by
      have := found.bound
      rw [Log.stored_length] at this
      omega
    have found₁ := onSnd_ok (s := o.make) search
    have found₂ := onSnd_ok (s := o.placed k a nb) search
    have loaded₁ := o.loadPage_make layout (by omega : 1 ≤ i + 1) inside
    have loaded₂ : Journal.loadPage (i + 1) (o.placed k a nb, files) = _ :=
      loadPage_placed layout (by omega : 1 ≤ i + 1) inside
    simp only [make, Journal.make, placed] at found₁ found₂ loaded₁ loaded₂
    simp only [Journal.seekToTime, bind_apply, get_apply, make, Journal.make, placed,
      found₁, found₂, loaded₁, loaded₂]

theorem placed_inj (same : o.placed (i + 1) (24 + a) n = o.placed (k + 1) (24 + b) m) :
    i = k ∧ n = m := by
  have page := congrArg Journal.page same
  have count := congrArg Journal.pageFrameNb same
  simp only [placed, Option.some.injEq, PageUnit.mk.injEq] at page
  exact ⟨by omega, count⟩

/-- `seekToTime` meets its contract exactly when it comes through to the target. -/
theorem seeks_iff {j : Journal} (left : Left o.location o.destId files log)
    (sorted : log.contents.Pairwise fun f g => f.genTime ≤ g.genTime) (opened : Opened o log j)
    (time : Int64) :
    ∃ i before, Log.Target log time i before ∧
      (Journal.seekToTime time (j, files) =
          .ok () (o.placed (i + 1) (24 + span before) before.length, files) ↔
        Log.Seekable (findPageSize o.location) log time i before) := by
  obtain ⟨layout, filled, _⟩ := left.holds
  obtain ⟨i, before, target⟩ := Log.Target.exists log time
  obtain ⟨k, fs, landing, ran⟩ := o.seekToTime_spec layout time
  refine ⟨i, before, target, ?_⟩
  rw [seekToTime_opened layout opened, ran, ← Log.landing_iff sorted filled landing target]
  constructor
  · intro same
    obtain ⟨_, same⟩ := EStateM.Result.ok.inj same
    obtain ⟨rfl, count⟩ := placed_inj (congrArg Prod.fst same)
    obtain ⟨tail, stored, _⟩ := target.page
    obtain rfl := Option.some.inj (landing.page.symm.trans stored)
    have due : Log.due time (before ++ tail) <+: before ++ tail := List.takeWhile_prefix _
    have whole := List.prefix_of_prefix_length_le due (List.prefix_append before tail) (by omega)
    exact ⟨rfl, whole.eq_of_length count⟩
  · rintro ⟨rfl, rfl⟩
    rfl

/-- The seek to time 150 over marks of 100, 150 and 200. -/
theorem seeks_iff_marks : ∃ files log, Left Writer.simAccount 7 files log ∧
    log.contents = [markFrame 100, markFrame 150, markFrame 200] ∧
      ∃ i before, Log.Target log 150 i before ∧
      Journal.seekToTime 150 (make ⟨Writer.simAccount, 7, false, true⟩, files) =
        .ok () (placed ⟨Writer.simAccount, 7, false, true⟩ (i + 1) (24 + span before) before.length,
          files) := by
  obtain ⟨files, left⟩ := left_markedAt [100, 150, 200]
  rw [markedAt_log _ (by decide)] at left
  let frames := [100, 150, 200].map markFrame
  have sorted : (⟨[], frames⟩ : Log).contents.Pairwise fun f g => f.genTime ≤ g.genTime := by decide
  obtain ⟨i, before, target, sought⟩ :=
    seeks_iff (o := ⟨Writer.simAccount, 7, false, true⟩) left sorted (Or.inl rfl) 150
  refine ⟨files, _, left, rfl, i, before, target, sought.mpr ?_⟩
  obtain ⟨tail, stored, _⟩ := target.page
  have only : [frames][i]? = some (before ++ tail) := stored
  obtain ⟨bound, split⟩ := List.getElem?_eq_some_iff.mp only
  obtain rfl : i = 0 := by simpa using bound
  have split : frames = before ++ tail := split
  refine ⟨fun k _ _ early => absurd early (Nat.not_lt_zero k), fun fs here passed => ?_,
    fun g member => ?_⟩
  · obtain rfl : frames = fs := Option.some.inj here
    have total : findPageSize Writer.simAccount = 16777216 := by
      simp [findPageSize, Writer.simAccount, JLocation.make, mebibyte]
    have few : span frames = 120 := by decide
    have full : findPageSize Writer.simAccount - 40 < 24 + span frames := passed.1
    omega
  · have typed : ∀ f ∈ frames, 0 < f.msgType := by decide
    exact typed g (split ▸ List.mem_append_left _ member)

section TwoPages
open Delivery (twice twice_admissible)

/-- The log of two frames that do not fit one page. -/
theorem twice_log {data : List UInt8} (length : data.length = 9000000) :
    ∃ f mark g, WriteOp.appendAll Writer.simAccount 7 PagedLog.empty (twice data) =
      ⟨[([f], mark)], [g]⟩ ∧
      f.genTime = 5 ∧ g.genTime = 8 ∧ f.size = 9000040 := by
  let f := (WriteOp.writeRaw 3 101 data 4 5).frame Writer.simAccount.uid 7
  let g := (WriteOp.writeRaw 6 101 data 7 8).frame Writer.simAccount.uid 7
  have size : f.size = 9000040 := by
    change 40 + data.length = _
    rw [length]
  have room : pageRoom (findPageSize Writer.simAccount) = 16777152 := by
    simp [pageRoom, findPageSize, Writer.simAccount, JLocation.make, mebibyte, sizeofFrameHeader,
      sizeofPageHeader]
  have first : Log.roomFor Writer.simAccount PagedLog.empty f := by
    change 0 + f.size < pageRoom (findPageSize Writer.simAccount)
    omega
  have second : ¬ Log.roomFor Writer.simAccount ⟨[], [f]⟩ g := by
    change ¬ (span [f] + g.size < pageRoom (findPageSize Writer.simAccount))
    have : g.size = f.size := rfl
    rw [span_cons, span_nil]
    omega
  refine ⟨f, (WriteOp.writeRaw 6 101 data 7 8).marker Writer.simAccount.uid 7, g, ?_,
    rfl, rfl, size⟩
  have one :
      (WriteOp.writeRaw 3 101 data 4 5).append Writer.simAccount 7 PagedLog.empty = ⟨[], [f]⟩ :=
    PagedLog.append_of_fits first _
  have two : (WriteOp.writeRaw 6 101 data 7 8).append Writer.simAccount 7 ⟨[], [f]⟩ = _ :=
    PagedLog.append_of_not_fits second _
  rw [WriteOp.appendAll, twice, List.foldl_cons, one, List.foldl_cons, two]
  rfl

theorem seek_stops_at_pageEnd_of_length {data : List UInt8} (length : data.length = 9000000) :
    ∃ files log f g, Left Writer.simAccount 7 files log ∧ log.contents = [f, g] ∧
      f.genTime = 5 ∧ g.genTime = 8 ∧ Log.Target log 5 1 [] ∧
      Journal.seekToTime 5 (make ⟨Writer.simAccount, 7, false, true⟩, files) ≠
        .ok () (placed ⟨Writer.simAccount, 7, false, true⟩ 2 24 0, files) := by
  have adm := twice_admissible length
  obtain ⟨files, ran, layout⟩ := Writer.session_fresh Writer.simAccount 7 false 1 2 adm
  have left : Left Writer.simAccount 7 files _ := .first false 1 2 _ _ files adm ran
  obtain ⟨f, mark, g, log, fTime, gTime, size⟩ := twice_log length
  have filled := left.holds.2.1
  rw [log] at left layout filled
  have sorted : (PagedLog.contents (⟨[([f], mark)], [g]⟩ : Log)).Pairwise
      fun f g => f.genTime ≤ g.genTime := by
    have order : f.genTime ≤ g.genTime := by
      rw [fTime, gTime]
      decide
    simpa [PagedLog.contents] using order
  have target : Log.Target (⟨[([f], mark)], [g]⟩ : Log) 5 1 [] := by
    have page : (PagedLog.pages (⟨[([f], mark)], [g]⟩ : Log))[1]? = some ([] ++ g :: []) := rfl
    refine .frame page (by rw [gTime]; decide) ?_
    intro h member
    obtain rfl : h = f := by simpa [PagedLog.pages] using member
    exact Int64.le_of_eq fTime
  refine ⟨files, _, f, g, left, rfl, fTime, gTime, target, ?_⟩
  let o : Opening := ⟨Writer.simAccount, 7, false, true⟩
  obtain ⟨k, fs, landing, sought⟩ := o.seekToTime_spec layout 5
  rw [sought]
  intro same
  obtain ⟨_, same⟩ := EStateM.Result.ok.inj same
  have placed := congrArg Prod.fst same
  obtain ⟨rfl, count⟩ := placed_inj (i := k) (k := 1) (b := 0) placed
  have seekable := (Log.landing_iff sorted filled landing target).mp
    ⟨rfl, List.eq_nil_of_length_eq_zero count⟩
  have full := (seekable.passed 0 _ _ (by omega) rfl rfl (Or.inr ?_)).1
  · have total : findPageSize Writer.simAccount = 16777216 := by
      simp [findPageSize, Writer.simAccount, JLocation.make, mebibyte]
    rw [span_append, span_cons, span_nil, span_cons, span_nil, mark.size_eq, size] at full
    change findPageSize Writer.simAccount - 40 < _ at full
    omega
  · rw [Log.beginTime, List.head?_cons, Option.map_some, Option.getD_some, gTime]
    decide

/-- The seek to time 5 does not reach the frame of time 8, the first one on page 2. -/
theorem seek_stops_at_pageEnd :
    ∃ files log f g, Left Writer.simAccount 7 files log ∧ log.contents = [f, g] ∧
      f.genTime = 5 ∧ g.genTime = 8 ∧ Log.Target log 5 1 [] ∧
      Journal.seekToTime 5 (make ⟨Writer.simAccount, 7, false, true⟩, files) ≠
        .ok () (placed ⟨Writer.simAccount, 7, false, true⟩ 2 24 0, files) :=
  seek_stops_at_pageEnd_of_length
    (List.length_replicate : (List.replicate 9000000 (1 : UInt8)).length = _)

end TwoPages

end Opening
end BTrader
