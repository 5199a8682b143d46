import BTrader.Engines.EventEngine

/-! An engine that is blocked in its wait has delivered every frame behind its join positions. -/
namespace BTrader
open ByteMemory Infra

namespace Wiring

variable {ι : Type} {w : Wiring ι} {key : UInt64} {op : WriteOp} {frames : List Frame} {m : Memory}

theorem Fits.draft (fits : w.Fits key op frames) :
    ∃ draft : Writer.Draft, w.frame key op = draft.frame ∧
      w.stores key op frames = draft.stores (24 + span frames) ∧
        draft.data.length + 40 < 2 ^ 32 := by
  obtain ⟨draft, frame, stores⟩ := fits.inPlace.stores_eq (w.location key).uid (w.destId key)
  have bounds := findPageSize_bounds (w.location key)
  have mib : mebibyte = 1048576 := rfl
  have small := fits.admissible.size_lt (w.location key).uid (w.destId key)
  rw [frame, Frame.size_eq, Writer.Draft.frame_data] at small
  exact ⟨draft, frame, congrFun stores _, by omega⟩

theorem Fits.shows (fits : w.Fits key op frames)
    (stored : PageUnit.Stored (findPageSize (w.location key)) m frames) (n : Nat) :
      PageUnit.Shows (findPageSize (w.location key)) (m.execAll ((w.stores key op frames).take n))
      (w.shown key op frames n) := by
  obtain ⟨draft, frame, stores, small⟩ := fits.draft
  rw [shown, stores, frame]
  exact (draft.stores_shows stored small n).1

theorem Fits.stored (fits : w.Fits key op frames)
    (stored : PageUnit.Stored (findPageSize (w.location key)) m frames) :
    PageUnit.Stored (findPageSize (w.location key)) (m.execAll (w.stores key op frames))
      (frames ++ [w.frame key op]) :=
  WriteOp.stores_stored fits.admissible _ _ stored

theorem Fits.two_le (fits : w.Fits key op frames) : 2 ≤ (w.stores key op frames).length := by
  obtain ⟨draft, _, stores, _⟩ := fits.draft
  rw [stores, Writer.Draft.stores_split]
  simp

/-- One more store shows the frame or nothing. -/
theorem shown_step {done : Nat} (inside : done < (w.stores key op frames).length) :
    w.shown key op frames (done + 1) = w.shown key op frames done ∨
      done + 2 = (w.stores key op frames).length ∧
        w.shown key op frames (done + 1) = w.shown key op frames done ++ [w.frame key op] := by
  unfold shown
  split <;> split
  · exact .inl rfl
  · omega
  · exact .inr ⟨by omega, rfl⟩
  · exact .inl rfl

theorem post_kept {signalled : Nat → Bool} {fd : Nat} (signal : signalled fd = true) :
    w.post key signalled fd = true := by
  cases watched : w.fds key with
  | none => simpa [post, watched] using signal
  | some other => simp [post, watched, Function.update_apply, signal]

theorem post_own {signalled : Nat → Bool} {fd : Nat} (watched : w.fds key = some fd) :
    w.post key signalled fd = true := by
  simp [post, watched]

/-- A writer that has stored the length of its frame and not posted yet. -/
def Unposted (w : Wiring ι) (key : UInt64) : WriterAt → Prop
  | .outside => False
  | .storing op frames done => (w.stores key op frames).length ≤ done + 1
  | .posting => True

/-- What a page holds: its frames, and what one writer has stored of another one. -/
inductive PageAt (w : Wiring ι) (key : UInt64) (writers : ι → WriterAt) (m : Memory)
    (published : List Frame) : Prop where
  | still (stored : PageUnit.Stored (findPageSize (w.location key)) m published)
      (free : ∀ i, w.home i = key → ∀ op frames done, writers i ≠ .storing op frames done)
  | written {i : ι} {op : WriteOp} {frames : List Frame} {done : Nat} {m₀ : Memory}
      (home : w.home i = key)
      (writing : writers i = .storing op frames done)
      (alone : ∀ j, w.home j = key → ∀ op frames done, writers j = .storing op frames done → j = i)
      (fits : w.Fits key op frames)
      (stored : PageUnit.Stored (findPageSize (w.location key)) m₀ frames)
      (inside : done ≤ (w.stores key op frames).length)
      (bytes : m = m₀.execAll ((w.stores key op frames).take done))
      (shown : published = w.shown key op frames done)

theorem PageAt.shows {writers : ι → WriterAt} {published : List Frame}
    (page : w.PageAt key writers m published) :
    PageUnit.Shows (findPageSize (w.location key)) m published := by
  cases page with
  | still stored free => exact stored.shows
  | written home writing alone fits stored inside bytes shown =>
    rw [bytes, shown]
    exact fits.shows stored _

theorem PageAt.congr {writers writers' : ι → WriterAt} {published : List Frame}
    (page : w.PageAt key writers m published)
    (same : ∀ j, w.home j = key → ∀ op frames done,
      writers' j = .storing op frames done ↔ writers j = .storing op frames done) :
    w.PageAt key writers' m published := by
  cases page with
  | still stored free =>
    exact .still stored fun j home op frames done writing =>
      free j home op frames done ((same j home _ _ _).mp writing)
  | @written i op frames done m₀ home writing alone fits stored inside bytes shown =>
    exact .written home ((same i home _ _ _).mpr writing)
      (fun j home op frames done writing =>
        alone j home op frames done ((same j home _ _ _).mp writing))
      fits stored inside bytes shown

/-- The only writer that stores on its page. -/
theorem PageAt.writer {writers : ι → WriterAt} {published : List Frame} {i : ι} {done : Nat}
    (page : w.PageAt (w.home i) writers m published)
    (writing : writers i = .storing op frames done) :
    (∀ j, w.home j = w.home i → ∀ op frames done, writers j = .storing op frames done → j = i) ∧
      w.Fits (w.home i) op frames ∧
        ∃ m₀, PageUnit.Stored (findPageSize (w.location (w.home i))) m₀ frames ∧
        m = m₀.execAll ((w.stores (w.home i) op frames).take done) ∧
        published = w.shown (w.home i) op frames done := by
  cases page with
  | still stored free => exact absurd writing (free i rfl op frames done)
  | written home writing' alone fits stored inside bytes shown =>
    obtain rfl := alone i rfl op frames done writing
    cases writing.symm.trans writing'
    exact ⟨alone, fits, _, stored, bytes, shown⟩

end Wiring

/-- The event on which `on_next` has been called while the cursor is still before it. -/
def Stage.inFlight (current : Option UInt64) (key : UInt64) : Stage → List Frame
  | .passing event => if current = some key then [event] else []
  | _ => []

namespace EventEngine

variable {ι : Type} {w : Wiring ι} {s s' : EventEngine ι} {known : UInt64 → Nat}

/-- The current journal has a frame in front of its cursor. -/
def Found (s : EventEngine ι) : Prop :=
  ∃ key, s.reader.current = some key ∧ (s.passed key).length < (s.published key).length

/-- The cursors have passed the frames that were there when the wait returned last. -/
def Caught (s : EventEngine ι) (known : UInt64 → Nat) (keys : List UInt64) : Prop :=
  ∀ key ∈ keys, known key ≤ (s.passed key).length

/-- What is known in a stage, `known` frames having been there when the wait returned last. -/
def StageInv (s : EventEngine ι) (known : UInt64 → Nat) : Stage → Prop
  | .joining => ∀ key, known key = 0
  | .waiting => s.Caught known (s.reader.journals.map Prod.fst)
  | .sorting _ rest minTime => ∃ before, s.reader.journals = before ++ rest ∧
      (s.Found ∨ s.Caught known (before.map Prod.fst) ∧
        ∀ key, ∀ f ∈ (s.published key).take (known key), f.genTime ≤ minTime)
  | .checking => s.Found ∨ s.Caught known (s.reader.journals.map Prod.fst)
  | .handling => s.Found
  | .passing event => ∃ key rest, s.reader.current = some key ∧
      s.published key = s.passed key ++ event :: rest
  | .testing | .calling _ | .ended => True

structure Inv (w : Wiring ι) (s : EventEngine ι) (known : UInt64 → Nat) : Prop where
  pages : ∀ key, w.PageAt key s.writers ((s.store key).bytes 1) (s.published key)
  due : ∀ key, ∀ f ∈ s.published key, 0 < f.msgType ∧ f.genTime ≤ s.time
  bounded : ∀ key, known key ≤ (s.published key).length
  heard : ∀ key fd, w.fds key = some fd → known key < (s.published key).length →
    s.signalled fd = true ∨ ∃ i, w.home i = key ∧ w.Unposted key (s.writers i)
  keys : (s.reader.journals.map Prod.fst).Nodup
  current : ∀ key, s.reader.current = some key → key ∈ s.reader.journals.map Prod.fst
  cursors :
    ∀ entry ∈ s.reader.journals, entry.2.page = some ⟨1, findPageSize (w.location entry.1)⟩ ∧
    entry.2.frame = 24 + span (s.passed entry.1) ∧ s.passed entry.1 <+: s.published entry.1
  told : ∀ key ∈ s.reader.journals.map Prod.fst,
    s.skipped key ++ s.delivered key = s.passed key ++ s.stage.inFlight s.reader.current key
  stage : s.StageInv known s.stage

namespace Inv

theorem start (start : Start w s) : Inv w s fun _ => 0 where
  pages key := .still (start.stored key) fun i _ op frames done => by simp [start.outside i]
  due := start.due
  bounded _ := Nat.zero_le _
  heard key fd watched some := .inl (start.posted key fd watched (List.ne_nil_of_length_pos some))
  keys := by simp [start.journals]
  current := by simp [start.current]
  cursors := by simp [start.journals]
  told := by simp [start.journals]
  stage := by
    rw [start.stage]
    exact fun _ => rfl

/-- A joined journal stands between the frames it has passed and those to come. -/
theorem facing (inv : Inv w s known) {entry : UInt64 × Journal}
    (member : entry ∈ s.reader.journals) :
    ∃ rest, s.passed entry.1 ++ rest = s.published entry.1 ∧
      Journal.Facing (s.store entry.1) entry.2 (s.passed entry.1) rest := by
  obtain ⟨page, frame, rest, split⟩ := inv.cursors entry member
  refine ⟨rest, split, ⟨_, page, ?_⟩, frame, ?_⟩
  · rw [split]
    exact (inv.pages entry.1).shows
  · rw [split]
    exact fun f member => (inv.due entry.1 f member).1

end Inv

/-- What a step of the others leaves alone. -/
structure Grows (s s' : EventEngine ι) : Prop where
  reader : s'.reader = s.reader
  stage : s'.stage = s.stage
  skipped : s'.skipped = s.skipped
  passed : s'.passed = s.passed
  delivered : s'.delivered = s.delivered
  published : ∀ key, s.published key <+: s'.published key
  time : s.time ≤ s'.time

theorem Grows.take (grows : Grows s s') (bounded : ∀ key, known key ≤ (s.published key).length)
    (key : UInt64) :
    (s'.published key).take (known key) = (s.published key).take (known key) := by
  obtain ⟨more, grown⟩ := grows.published key
  rw [← grown, List.take_append_of_le_length (bounded key)]

theorem Grows.found (grows : Grows s s') (found : s.Found) : s'.Found := by
  obtain ⟨key, current, fewer⟩ := found
  refine ⟨key, by rw [grows.reader, current], ?_⟩
  rw [grows.passed]
  exact fewer.trans_le (grows.published key).length_le

theorem Grows.caught {keys : List UInt64} (grows : Grows s s') (caught : s.Caught known keys) :
    s'.Caught known keys := by
  rw [Caught, grows.passed]
  exact caught

theorem Grows.stageInv {stage : Stage} (grows : Grows s s')
    (bounded : ∀ key, known key ≤ (s.published key).length)
    (inv : s.StageInv known stage) : s'.StageInv known stage := by
  cases stage with
  | joining => exact inv
  | waiting =>
    have caught := grows.caught inv
    rwa [← grows.reader] at caught
  | testing => trivial
  | calling call => trivial
  | sorting call rest minTime =>
    obtain ⟨before, split, reached⟩ := inv
    refine ⟨before, by rw [grows.reader, split], ?_⟩
    rcases reached with found | ⟨caught, times⟩
    · exact .inl (grows.found found)
    · refine .inr ⟨grows.caught caught, fun key => ?_⟩
      rw [grows.take bounded]
      exact times key
  | checking =>
    rcases inv with found | caught
    · exact .inl (grows.found found)
    · have caught := grows.caught caught
      rw [← grows.reader] at caught
      exact .inr caught
  | handling => exact grows.found inv
  | passing event =>
    obtain ⟨key, rest, current, front⟩ := inv
    obtain ⟨more, grown⟩ := grows.published key
    refine ⟨key, rest ++ more, by rw [grows.reader, current], ?_⟩
    rw [← grown, front, grows.passed]
    simp
  | ended => trivial

namespace Inv

/-- The journal that is current. -/
theorem here (inv : Inv w s known) {key : UInt64} (current : s.reader.current = some key) :
    ∃ j rest, (key, j) ∈ s.reader.journals ∧ s.reader.find key = some j ∧
      s.passed key ++ rest = s.published key ∧ Journal.Facing (s.store key) j (s.passed key) rest ∧
      j.page = some ⟨1, findPageSize (w.location key)⟩ ∧
      Reader.currentFrame (s.reader, s.store) =
        .ok ((s.store key).bytes 1, j.frame) (s.reader, s.store) := by
  obtain ⟨⟨k, j⟩, member, rfl⟩ := List.mem_map.mp (inv.current key current)
  obtain ⟨rest, split, facing⟩ := inv.facing member
  have found := Reader.find_of_mem inv.keys member
  have page := (inv.cursors _ member).1
  refine ⟨j, rest, member, found, split, facing, page, ?_⟩
  have page : j.page = some ⟨1, findPageSize (w.location k)⟩ := page
  simp [Reader.currentFrame, current, found, page]

/-- The current journal has data just when frames are in front of its cursor. -/
theorem found_iff (inv : Inv w s known) {m : Memory} {frame : Nat}
    (ran : Reader.currentFrame (s.reader, s.store) = .ok (m, frame) (s.reader, s.store)) :
    s.Found ↔ FrameUnit.hasData m frame = true := by
  cases current : s.reader.current with
  | none =>
    simp [Reader.currentFrame, current] at ran
  | some key =>
    obtain ⟨j, rest, member, found, split, facing, page, ran'⟩ := inv.here current
    cases ran.symm.trans ran'
    have data := facing.hasData page
    rw [data]
    constructor
    · rintro ⟨k, same, fewer⟩
      obtain rfl : key = k := Option.some.inj (current.symm.trans same)
      rw [← split, List.length_append] at fewer
      cases rest with
      | nil => simp at fewer
      | cons f rest => rfl
    · intro some
      refine ⟨key, current, ?_⟩
      rw [← split, List.length_append]
      cases rest with
      | nil => simp at some
      | cons f rest => simp

/-- One journal more has been looked at. -/
theorem inspects (inv : Inv w s known) {call : SortCall} {entry : UInt64 × Journal}
    {rest : List (UInt64 × Journal)} {minTime : Int64} {found : Int64 × Option UInt64}
    (stage : s.stage = .sorting call (entry :: rest) minTime)
    (ran : Reader.inspect s.store entry minTime s.reader.current = .ok found) :
    Inv w
      { s with
        reader := { s.reader with current := found.2 }
        stage := .sorting call rest found.1 }
      known := by
  obtain ⟨key, j⟩ := entry
  have here := inv.stage
  rw [stage] at here
  obtain ⟨before, split, reached⟩ := here
  have member : (key, j) ∈ s.reader.journals := by
    rw [split]
    exact List.mem_append_right _ List.mem_cons_self
  have joined : key ∈ s.reader.journals.map Prod.fst := List.mem_map_of_mem member
  obtain ⟨front, frames, facing⟩ := inv.facing member
  have page : j.page = some ⟨1, findPageSize (w.location key)⟩ := (inv.cursors _ member).1
  have data := facing.hasData page
  have split' : s.reader.journals = (before ++ [(key, j)]) ++ rest := by simpa using split
  have told := inv.told
  rw [stage] at told
  have step {found : Int64 × Option UInt64}
      (current : ∀ k, found.2 = some k → k ∈ s.reader.journals.map Prod.fst)
      (after : (∃ k, found.2 = some k ∧ (s.passed k).length < (s.published k).length) ∨
        s.Caught known ((before ++ [(key, j)]).map Prod.fst) ∧
          ∀ key, ∀ f ∈ (s.published key).take (known key), f.genTime ≤ found.1) :
      Inv w
        { s with
          reader := { s.reader with current := found.2 }
          stage := .sorting call rest found.1 }
        known :=
    { pages := inv.pages, due := inv.due, bounded := inv.bounded
      heard := inv.heard, keys := inv.keys
      current := current, cursors := inv.cursors, told := told
      stage := ⟨before ++ [(key, j)], split', after⟩ }
  simp only [Reader.inspect, page] at ran
  by_cases ready : FrameUnit.hasData ((s.store key).bytes 1) j.frame = true ∧
      FrameUnit.genTime ((s.store key).bytes 1) j.frame ≤ minTime
  · rw [if_pos ready] at ran
    obtain rfl := Except.ok.inj ran
    refine step (fun k same => ?_) (.inl ⟨key, rfl, ?_⟩)
    · rwa [← Option.some.inj same]
    · rw [data] at ready
      rw [← frames, List.length_append]
      cases front with
      | nil => simp at ready
      | cons f fs => simp
  · rw [if_neg ready] at ran
    obtain rfl := Except.ok.inj ran
    refine step inv.current ?_
    rcases reached with found | ⟨caught, times⟩
    · exact .inl found
    · refine .inr ⟨fun k here => ?_, times⟩
      rw [List.map_append, List.mem_append] at here
      rcases here with earlier | last
      · exact caught k earlier
      · obtain rfl : k = key := by simpa using last
        -- A known frame in front of the cursor would have been found.
        by_contra behind
        cases front with
        | nil =>
          have bounded := inv.bounded k
          rw [← frames, List.append_nil] at bounded
          exact behind bounded
        | cons f fs =>
          have known : f ∈ (s.published k).take (known k) := by
            rw [← frames, List.take_append]
            have more : 0 < known k - (s.passed k).length := by omega
            obtain ⟨n, count⟩ := Nat.exists_eq_succ_of_ne_zero more.ne'
            simp [count]
          have time := (facing.holds page).genTime
          exact ready ⟨data, time.symm ▸ times k f known⟩

theorem joins (inv : Inv w s known) {key : UInt64} {j : Journal} {before : List Frame}
    {current : Option UInt64} {journals : List (UInt64 × Journal)} (stage : s.stage = .joining)
    (new : key ∉ s.reader.journals.map Prod.fst)
    (order : journals.Perm ((key, j) :: s.reader.journals))
    (page : j.page = some ⟨1, findPageSize (w.location key)⟩) (frame : j.frame = 24 + span before)
    (lands : before <+: s.published key)
    (sorted : ∀ k, current = some k → k ∈ journals.map Prod.fst) :
    Inv w { s with
      reader := { s.reader with journals := journals, current := current }
      skipped := Function.update s.skipped key before
      passed := Function.update s.passed key before
      delivered := Function.update s.delivered key [] } known where
  pages := inv.pages
  due := inv.due
  bounded := inv.bounded
  heard := inv.heard
  keys := by
    have keys := (order.map Prod.fst).nodup_iff.mpr (List.nodup_cons.mpr ⟨new, inv.keys⟩)
    exact keys
  current := sorted
  cursors entry member := by
    rcases List.mem_cons.mp (order.mem_iff.mp member) with rfl | old
    · exact ⟨page, by simpa using frame, by simpa using lands⟩
    · have other : entry.1 ≠ key := by
        rintro rfl
        exact new (List.mem_map_of_mem old)
      simp only [Function.update_of_ne other]
      exact inv.cursors entry old
  told k here := by
    by_cases same : k = key
    · subst same
      simp [Stage.inFlight, stage]
    · simp only [Function.update_of_ne same]
      have old : k ∈ s.reader.journals.map Prod.fst := by
        rcases List.mem_cons.mp ((order.map Prod.fst).mem_iff.mp here) with rfl | old
        · exact absurd rfl same
        · exact old
      have told := inv.told k old
      rw [stage] at told
      simpa [Stage.inFlight, stage] using told
  stage := by
    have start := inv.stage
    rw [stage] at start
    change StageInv _ known s.stage
    rw [stage]
    exact start

/-- The wait has returned, and what is published from now on will be posted. -/
theorem wakes (inv : Inv w s known) {left : Nat → Bool} (stage : s.stage = .waiting) :
    Inv w { s with signalled := left, stage := .calling .observed } fun key =>
      (s.published key).length where
  pages := inv.pages
  due := inv.due
  bounded _ := le_refl _
  heard _ _ _ fewer := absurd fewer (lt_irrefl _)
  keys := inv.keys
  current := inv.current
  cursors := inv.cursors
  told := by
    have told := inv.told
    rwa [stage] at told
  stage := trivial

theorem handles (inv : Inv w s known) {key : UInt64} {m : Memory} {frame : Nat}
    (stage : s.stage = .handling) (current : s.reader.current = some key)
    (ran : Reader.currentFrame (s.reader, s.store) = .ok (m, frame) (s.reader, s.store)) :
    Inv w { s with
      stage := .passing (FrameUnit.read m frame)
      delivered := Function.update s.delivered key (s.delivered key ++ [FrameUnit.read m frame]) }
        known := by
  have found := inv.stage
  rw [stage] at found
  have told := inv.told
  rw [stage] at told
  have data := (inv.found_iff ran).mp found
  obtain ⟨j, rest, member, _, split, facing, page, ran'⟩ := inv.here current
  cases ran.symm.trans ran'
  have some := facing.hasData page
  rw [data] at some
  cases rest with
  | nil => simp at some
  | cons f fs =>
    have read := (facing.holds page).read
    refine ⟨inv.pages, inv.due, inv.bounded, inv.heard, inv.keys, inv.current, inv.cursors,
      fun k here => ?_, ?_⟩
    · have old := told k here
      by_cases same : k = key
      · subst same
        simp only [Stage.inFlight, List.append_nil] at old
        simp [Stage.inFlight, current, ← old]
      · have other : ¬ key = k := fun here => same here.symm
        simpa [Stage.inFlight, current, other, Function.update_of_ne same] using old
    · exact ⟨key, fs, current, by rw [← split, read]⟩

/-- The cursor passes the frame of the event. -/
theorem passes (inv : Inv w s known) {key : UInt64} {event : Frame} {r : Reader} {store : FileStore}
    (stage : s.stage = .passing event) (current : s.reader.current = some key)
    (ran : Reader.onJournal key Journal.next (s.reader, s.store) = .ok () (r, store)) :
    Inv w { s with
      reader := r
      store := store
      passed := Function.update s.passed key (s.passed key ++ [event])
      stage := .calling .passed } known := by
  have front := inv.stage
  rw [stage] at front
  obtain ⟨k, more, same, front⟩ := front
  obtain rfl : key = k := Option.some.inj (current.symm.trans same)
  have told := inv.told
  rw [stage] at told
  obtain ⟨j, rest, member, found, split, facing, page, _⟩ := inv.here current
  obtain rfl : rest = event :: more := List.append_cancel_left (split.trans front)
  obtain ⟨j', moved, page', facing'⟩ := facing.next
  have advanced : Reader.onJournal key Journal.next (s.reader, s.store) =
      .ok () (s.reader.replace key j', s.store) := by
    simp [Reader.onJournal, found, moved]
  cases ran.symm.trans advanced
  have keys := Reader.replace_keys s.reader key j'
  refine ⟨inv.pages, inv.due, inv.bounded, inv.heard, by rw [keys]; exact inv.keys, ?_,
    ?_, ?_, trivial⟩
  · intro k here
    rw [keys]
    exact inv.current k here
  · intro entry present
    rcases Reader.mem_replace present with rfl | ⟨other, old⟩
    · simp only [Function.update_self]
      refine ⟨page'.trans page, facing'.frame, ?_⟩
      rw [front]
      exact ⟨more, by simp⟩
    · simp only [Function.update_of_ne other]
      exact inv.cursors _ old
  · intro k here
    rw [keys] at here
    have old := told k here
    by_cases same : k = key
    · subst same
      simpa [Stage.inFlight, current] using old
    · have other : ¬ key = k := fun here => same here.symm
      simpa [Stage.inFlight, current, other, Function.update_of_ne same] using old

/-- A step to another stage that changes nothing else. -/
theorem moves (inv : Inv w s known) {stage : Stage} {live : Bool}
    (told : ∀ key ∈ s.reader.journals.map Prod.fst,
      s.skipped key ++ s.delivered key = s.passed key ++ stage.inFlight s.reader.current key)
    (reached : s.StageInv known stage) : Inv w { s with live := live, stage := stage } known where
  pages := inv.pages
  due := inv.due
  bounded := inv.bounded
  heard := inv.heard
  keys := inv.keys
  current := inv.current
  cursors := inv.cursors
  told := told
  stage := by
    change StageInv _ known stage
    cases stage <;> exact reached

theorem engine (inv : Inv w s known) (step : EngineStep w s s') : ∃ known', Inv w s' known' := by
  have told := inv.told
  have reached := inv.stage
  cases step with
  | joins stage new order page frame lands sorted =>
    exact ⟨known, inv.joins stage new order page frame lands sorted⟩
  | observes stage =>
    rw [stage] at told reached
    exact ⟨known, inv.moves told fun key _ => (reached key).trans_le (Nat.zero_le _)⟩
  | wakes stage joined watched signal fewer => exact ⟨_, inv.wakes stage⟩
  | calls stage =>
    rw [stage] at told
    refine ⟨known, inv.moves told ⟨[], rfl, .inr ⟨nofun, fun key f member => ?_⟩⟩⟩
    exact (inv.due key f (List.mem_of_mem_take member)).2
  | inspects stage ran => exact ⟨known, inv.inspects stage ran⟩
  | @sorts call minTime stage =>
    rw [stage] at told reached
    obtain ⟨before, split, found⟩ := reached
    rw [List.append_nil] at split
    refine ⟨known, inv.moves (by cases call <;> exact told) ?_⟩
    cases call with
    | observed => trivial
    | passed => trivial
    | available =>
      rw [← split] at found
      exact found.imp_right And.left
  | tests stage =>
    rw [stage] at told
    refine ⟨known, inv.moves ?_ ?_⟩ <;> split
    · exact told
    · exact told
    · trivial
    · trivial
  | finds stage ran data =>
    rw [stage] at told
    exact ⟨known, inv.moves told ((inv.found_iff ran).mpr data)⟩
  | misses stage none =>
    rw [stage] at told reached
    have caught : s.Caught known (s.reader.journals.map Prod.fst) := by
      refine reached.resolve_left fun found => ?_
      rcases none with absent | ⟨m, frame, ran, nothing⟩
      · obtain ⟨key, current, _⟩ := found
        rw [absent] at current
        contradiction
      · rw [(inv.found_iff ran).mp found] at nothing
        contradiction
    refine ⟨known, inv.moves ?_ ?_⟩ <;> unfold idle <;> split
    · exact told
    · exact told
    · exact caught
    · trivial
  | handles stage current ran inTime => exact ⟨known, inv.handles stage current ran⟩
  | ends stage ran late =>
    rw [stage] at told
    exact ⟨known, inv.moves told trivial⟩
  | passes stage current ran => exact ⟨known, inv.passes stage current ran⟩

end Inv

variable [DecidableEq ι]

theorem writerStep_grows
    (pages : ∀ key, w.PageAt key s.writers ((s.store key).bytes 1) (s.published key))
    (step : WriterStep w s s') : Grows s s' := by
  have same {s' : EventEngine ι} (reader : s'.reader = s.reader) (stage : s'.stage = s.stage)
      (skipped : s'.skipped = s.skipped) (passed : s'.passed = s.passed)
      (delivered : s'.delivered = s.delivered)
      (published : s'.published = s.published) (time : s.time ≤ s'.time) : Grows s s' :=
    ⟨reader, stage, skipped, passed, delivered, fun key => by rw [published], time⟩
  cases step with
  | opens => exact same rfl rfl rfl rfl rfl rfl (Int64.le_refl _)
  | closes => exact same rfl rfl rfl rfl rfl rfl (Int64.le_refl _)
  | posts => exact same rfl rfl rfl rfl rfl rfl (Int64.le_refl _)
  | stops => exact same rfl rfl rfl rfl rfl rfl (Int64.le_refl _)
  | ticks later => exact same rfl rfl rfl rfl rfl rfl later
  | @stores i op frames done x writing next due =>
    refine ⟨rfl, rfl, rfl, rfl, rfl, fun key => ?_, Int64.le_refl _⟩
    by_cases here : key = w.home i
    · subst here
      obtain ⟨_, _, _, _, _, shown⟩ := (pages (w.home i)).writer writing
      have inside : done < (w.stores (w.home i) op frames).length :=
        (List.getElem?_eq_some_iff.mp next).1
      have grown :
          w.shown (w.home i) op frames done <+: w.shown (w.home i) op frames (done + 1) := by
        rcases Wiring.shown_step inside with same | ⟨_, added⟩
        · rw [same]
        · rw [added]
          exact List.prefix_append _ _
      rwa [← shown, ← Function.update_self (w.home i)
        (w.shown (w.home i) op frames (done + 1)) s.published] at grown
    · exact (Function.update_of_ne here _ s.published).symm ▸ List.prefix_refl _

theorem update_storing {writers : ι → WriterAt} {i : ι} {at' : WriterAt}
    (before : ∀ op frames done, writers i ≠ .storing op frames done)
    (after : ∀ op frames done, at' ≠ .storing op frames done) (j : ι) (op : WriteOp)
    (frames : List Frame) (done : Nat) :
    Function.update writers i at' j = .storing op frames done ↔
      writers j = .storing op frames done := by
  by_cases here : j = i
  · subst here
    rw [Function.update_self]
    exact ⟨fun writing => absurd writing (after op frames done),
      fun writing => absurd writing (before op frames done)⟩
  · rw [Function.update_of_ne here]

theorem update_other {writers : ι → WriterAt} {i : ι} {at' : WriterAt} {key : UInt64}
    (other : key ≠ w.home i) (j : ι)
    (home : w.home j = key) (op : WriteOp) (frames : List Frame) (done : Nat) :
    Function.update writers i at' j = .storing op frames done ↔
      writers j = .storing op frames done := by
  have apart : j ≠ i := by
    rintro rfl
    exact other home.symm
  rw [Function.update_of_ne apart]

theorem writerStep_pages
    (pages : ∀ key, w.PageAt key s.writers ((s.store key).bytes 1) (s.published key))
    (step : WriterStep w s s') (key : UInt64) :
      w.PageAt key s'.writers ((s'.store key).bytes 1) (s'.published key) := by
  cases step with
  | stops => exact pages key
  | ticks later => exact pages key
  | @opens i op outside fits free =>
    by_cases here : key = w.home i
    · subst here
      cases pages (w.home i) with
      | written home writing => exact absurd writing (free _ home _ _ _)
      | still stored _ =>
        have two := fits.two_le
        refine .written rfl (Function.update_self ..) (fun j home op frames done writing =>
          ?_) fits stored
          (Nat.zero_le _) rfl (if_pos (by omega : 0 + 1 < _)).symm
        by_contra apart
        exact free j home op frames done ((Function.update_of_ne apart _ _).symm.trans writing)
    · exact (pages key).congr (update_other here)
  | @stores i op frames done x writing next due =>
    by_cases here : key = w.home i
    · subst here
      obtain ⟨alone, fits, m₀, stored, bytes, shown⟩ := (pages (w.home i)).writer writing
      have inside : done < (w.stores (w.home i) op frames).length :=
        (List.getElem?_eq_some_iff.mp next).1
      refine .written rfl (Function.update_self ..) (fun j home op frames done writing =>
        ?_) fits stored inside ?_ ?_
      · by_contra apart
        exact apart (alone j home op frames done
          ((Function.update_of_ne apart _ _).symm.trans writing))
      · change ((Function.update s.store (w.home i) ((s.store (w.home i)).store 1 [x]))
          (w.home i)).bytes 1 = _
        rw [Function.update_self, JournalFiles.store_bytes_same, bytes, ← execAll_append,
          List.take_add_one, next]
        rfl
      · exact Function.update_self ..
    · have page :
        w.PageAt key (Function.update s.writers i (.storing op frames (done + 1)))
          ((s.store key).bytes 1)
          (s.published key) := (pages key).congr (update_other here)
      rwa [← Function.update_of_ne here ((s.store (w.home i)).store 1 [x]) s.store,
        ← Function.update_of_ne here (w.shown (w.home i) op frames (done + 1)) s.published] at page
  | @closes i op frames written =>
    by_cases here : key = w.home i
    · subst here
      obtain ⟨alone, fits, m₀, stored, bytes, shown⟩ := (pages (w.home i)).writer written
      rw [List.take_length] at bytes
      rw [Wiring.shown, if_neg (by omega)] at shown
      refine .still ?_ fun j home op frames done writing => ?_
      · rw [bytes, shown]
        exact fits.stored stored
      · by_cases same : j = i
        · subst same
          have posting : WriterAt.posting = .storing op frames done :=
            (Function.update_self j _ s.writers).symm.trans writing
          contradiction
        · exact same (alone j home op frames done
            ((Function.update_of_ne same _ _).symm.trans writing))
    · exact (pages key).congr (update_other here)
  | @posts i posting =>
    exact (pages key).congr fun j _ => update_storing (by simp [posting]) (by simp) j

theorem writerStep_due
    (pages : ∀ key, w.PageAt key s.writers ((s.store key).bytes 1) (s.published key))
    (due : ∀ key, ∀ f ∈ s.published key, 0 < f.msgType ∧ f.genTime ≤ s.time)
    (step : WriterStep w s s')
    (key : UInt64) : ∀ f ∈ s'.published key, 0 < f.msgType ∧ f.genTime ≤ s'.time := by
  cases step with
  | opens => exact due key
  | closes => exact due key
  | posts => exact due key
  | stops => exact due key
  | ticks later => exact fun f member =>
    ⟨(due key f member).1, Int64.le_trans (due key f member).2 later⟩
  | @stores i op frames done x writing next inTime =>
    have old := due key
    by_cases here : key = w.home i
    · subst here
      obtain ⟨_, fits, _, _, _, shown⟩ := (pages (w.home i)).writer writing
      have inside : done < (w.stores (w.home i) op frames).length :=
        (List.getElem?_eq_some_iff.mp next).1
      intro f member
      have member : f ∈ w.shown (w.home i) op frames (done + 1) := by
        rwa [← Function.update_self (w.home i)
          (w.shown (w.home i) op frames (done + 1)) s.published]
      rcases Wiring.shown_step inside with same | ⟨last, added⟩
      · rw [same, ← shown] at member
        exact old f member
      · rw [added, ← shown] at member
        rcases List.mem_append.mp member with earlier | new
        · exact old f earlier
        · rw [List.mem_singleton.mp new]
          exact ⟨fits.typed, inTime last⟩
    · rwa [← Function.update_of_ne here
        (w.shown (w.home i) op frames (done + 1)) s.published] at old

theorem unposted_update {writers : ι → WriterAt} {key : UInt64} {i : ι} {at' : WriterAt}
    (unposted : ∃ j, w.home j = key ∧ w.Unposted key (writers j))
    (keeps : w.Unposted key (writers i) → w.Unposted key at') :
    ∃ j, w.home j = key ∧ w.Unposted key (Function.update writers i at' j) := by
  obtain ⟨j, home, unposted⟩ := unposted
  refine ⟨j, home, ?_⟩
  by_cases here : j = i
  · subst here
    rw [Function.update_self]
    exact keeps unposted
  · rwa [Function.update_of_ne here]

theorem writerStep_heard
    (heard : ∀ key fd, w.fds key = some fd → known key < (s.published key).length →
      s.signalled fd = true ∨ ∃ i, w.home i = key ∧ w.Unposted key (s.writers i))
    (pages : ∀ key, w.PageAt key s.writers ((s.store key).bytes 1) (s.published key))
    (step : WriterStep w s s') (key : UInt64) (fd : Nat) (watched : w.fds key = some fd)
    (fewer : known key < (s'.published key).length) :
    s'.signalled fd = true ∨ ∃ i, w.home i = key ∧ w.Unposted key (s'.writers i) := by
  cases step with
  | stops => exact heard key fd watched fewer
  | ticks later => exact heard key fd watched fewer
  | @opens i op outside fits free =>
    refine (heard key fd watched fewer).imp_right fun unposted =>
      unposted_update unposted fun here => ?_
    rw [outside] at here
    exact here.elim
  | @closes i op frames written =>
    exact (heard key fd watched fewer).imp_right fun unposted =>
      unposted_update unposted fun _ => trivial
  | @stores i op frames done x writing next due =>
    have inside : done < (w.stores (w.home i) op frames).length :=
      (List.getElem?_eq_some_iff.mp next).1
    have keeps (here : w.Unposted key (s.writers i)) :
        w.Unposted key (.storing op frames (done + 1)) := by
      rw [writing] at here
      exact here.trans (Nat.le_succ _)
    have grown :
        s.published key = Function.update s.published (w.home i)
          (w.shown (w.home i) op frames (done + 1)) key ∨
        key = w.home i ∧ done + 2 = (w.stores (w.home i) op frames).length := by
      by_cases here : key = w.home i
      · subst here
        obtain ⟨_, _, _, _, _, shown⟩ := (pages (w.home i)).writer writing
        rw [Function.update_self, shown]
        rcases Wiring.shown_step inside with same | ⟨last, _⟩
        · exact .inl same.symm
        · exact .inr ⟨rfl, last⟩
      · exact .inl (Function.update_of_ne here _ _).symm
    rcases grown with same | ⟨rfl, last⟩
    · refine (heard key fd watched ?_).imp_right fun unposted => unposted_update unposted keeps
      rwa [same]
    · refine .inr ⟨i, rfl, ?_⟩
      have stored : w.Unposted (w.home i) (.storing op frames (done + 1)) := last.ge
      rwa [← Function.update_self i (WriterAt.storing op frames (done + 1)) s.writers] at stored
  | @posts i posting =>
    rcases heard key fd watched fewer with signalled | ⟨j, home, unposted⟩
    · exact .inl (Wiring.post_kept signalled)
    · by_cases here : j = i
      · subst here
        exact .inl (Wiring.post_own (home ▸ watched))
      · refine .inr ⟨j, home, ?_⟩
        rwa [← Function.update_of_ne here WriterAt.outside s.writers] at unposted

theorem Inv.writer (inv : Inv w s known) (step : WriterStep w s s') : Inv w s' known := by
  have grows := writerStep_grows inv.pages step
  refine ⟨writerStep_pages inv.pages step, writerStep_due inv.pages inv.due step, fun key => ?_,
    writerStep_heard inv.heard inv.pages step, ?_, ?_, ?_, ?_, ?_⟩
  · exact (inv.bounded key).trans (grows.published key).length_le
  · rw [grows.reader]
    exact inv.keys
  · rw [grows.reader]
    exact inv.current
  · rw [grows.reader, grows.passed]
    intro entry member
    obtain ⟨page, frame, behind⟩ := inv.cursors entry member
    exact ⟨page, frame, behind.trans (grows.published entry.1)⟩
  · rw [grows.reader, grows.skipped, grows.delivered, grows.passed, grows.stage]
    exact inv.told
  · rw [grows.stage]
    exact grows.stageInv inv.bounded inv.stage

theorem Reachable.inv (reached : Reachable w s) : ∃ known, Inv w s known := by
  induction reached with
  | start start => exact ⟨_, Inv.start start⟩
  | writer before step ih =>
    obtain ⟨known, inv⟩ := ih
    exact ⟨known, inv.writer step⟩
  | engine before step ih =>
    obtain ⟨known, inv⟩ := ih
    exact inv.engine step

/-- While the engine is blocked and the writers are outside their writes, the frames on the page
of each joined journal are those before the join position and those delivered, and the cursor is
behind them. -/
theorem blocked_delivered (reached : Reachable w s) (blocked : Blocked w s)
    (outside : ∀ i, s.writers i = .outside)
    (watched : ∀ key ∈ s.reader.journals.map Prod.fst, (w.fds key).isSome) :
    ∀ entry ∈ s.reader.journals,
      PageUnit.Shows (findPageSize (w.location entry.1)) ((s.store entry.1).bytes 1)
        (s.published entry.1) ∧
      s.published entry.1 = s.skipped entry.1 ++ s.delivered entry.1 ∧
      entry.2.frame = 24 + span (s.published entry.1) ∧
      FrameUnit.hasData ((s.store entry.1).bytes 1) entry.2.frame = false := by
  obtain ⟨known, inv⟩ := reached.inv
  intro entry member
  have joined : entry.1 ∈ s.reader.journals.map Prod.fst := List.mem_map_of_mem member
  obtain ⟨fd, watches⟩ := Option.isSome_iff_exists.mp (watched entry.1 joined)
  have caught := inv.stage
  have told := inv.told entry.1 joined
  rw [blocked.stage] at caught told
  simp only [Stage.inFlight, List.append_nil] at told
  -- No frame has come since the wait returned last: it would have been posted.
  have all : (s.published entry.1).length ≤ known entry.1 := by
    by_contra fewer
    rcases inv.heard entry.1 fd watches (not_le.mp fewer) with signal | ⟨i, home, unposted⟩
    · rw [blocked.silent entry.1 joined fd watches] at signal
      contradiction
    · rw [outside i] at unposted
      exact unposted
  obtain ⟨rest, split, facing⟩ := inv.facing member
  have length := congrArg List.length split
  rw [List.length_append] at length
  have reached : known entry.1 ≤ (s.passed entry.1).length := caught entry.1 joined
  obtain rfl : rest = [] := List.eq_nil_of_length_eq_zero (by omega)
  rw [List.append_nil] at split
  refine ⟨(inv.pages entry.1).shows, ?_, ?_, ?_⟩
  · rw [told, split]
  · rw [← split]
    exact facing.frame
  · have data := facing.hasData (inv.cursors entry member).1
    exact data

/-- The engine waits behind the frames of its only journal, and nothing has been posted since. -/
structure Waits (w : Wiring ι) (key : UInt64) (s : EventEngine ι) : Prop where
  reached : Reachable w s
  stage : s.stage = .waiting
  live : s.live = true
  outside : ∀ i, s.writers i = .outside
  silent : ∀ fd, s.signalled fd = false
  only : ∃ j, s.reader.journals = [(key, j)]
  behind : s.passed key = s.published key

/-- Steps of the writers, none of which stops the engine. -/
def Writes (w : Wiring ι) : EventEngine ι → EventEngine ι → Prop :=
  Relation.ReflTransGen fun s s' => WriterStep w s s' ∧ s'.live = s.live

/-- Steps of the writers, none of which begins a write. -/
def Finishes (w : Wiring ι) : EventEngine ι → EventEngine ι → Prop :=
  Relation.ReflTransGen fun s s' => WriterStep w s s' ∧ s'.live = s.live ∧
    ∀ i op frames, s'.writers i = .storing op frames 0 → s.writers i = .storing op frames 0

/-- Steps of the engine that join nothing and deliver nothing. -/
def Quiet (w : Wiring ι) : EventEngine ι → EventEngine ι → Prop :=
  Relation.ReflTransGen fun s s' => EngineStep w s s' ∧
    s'.reader.journals.map Prod.fst = s.reader.journals.map Prod.fst ∧
      ∀ event, s'.stage ≠ .passing event

theorem Reachable.run (reached : Reachable w s) (run : Writes w s s') : Reachable w s' := by
  induction run with
  | refl => exact reached
  | tail _ step ih => exact ih.writer step.1

omit [DecidableEq ι] in
theorem Quiet.next {s'' : EventEngine ι} (run : Quiet w s s') (step : EngineStep w s' s'')
    (keys : s''.reader.journals.map Prod.fst = s'.reader.journals.map Prod.fst)
    (silent : ∀ event, s''.stage ≠ .passing event) : Quiet w s s'' :=
  run.tail ⟨step, keys, silent⟩

theorem Reachable.quiet (reached : Reachable w s) (run : Quiet w s s') : Reachable w s' := by
  induction run with
  | refl => exact reached
  | tail _ step ih => exact ih.engine step.1

section

variable {i : ι} {op : WriteOp} {key : UInt64}

/-- A writer that is outside begins a write. -/
def opens (w : Wiring ι) (s : EventEngine ι) (i : ι) (op : WriteOp) : EventEngine ι :=
  { s with writers := Function.update s.writers i (.storing op (s.published (w.home i)) 0) }

/-- The stores of a write, one step each. -/
theorem storesSome (fits : w.Fits (w.home i) op (s.published (w.home i)))
    (due : (w.frame (w.home i) op).genTime ≤ s.time) (n : Nat)
    (inside : n ≤ (w.stores (w.home i) op (s.published (w.home i))).length) :
    Finishes w (s.opens w i op)
      { s with
        writers := Function.update s.writers i (.storing op (s.published (w.home i)) n)
        store := Function.update s.store (w.home i)
          ((s.store (w.home i)).store 1 ((w.stores (w.home i) op (s.published (w.home i))).take n))
        published := Function.update s.published (w.home i)
          (w.shown (w.home i) op (s.published (w.home i)) n) } := by
  induction n with
  | zero =>
    have two := fits.two_le
    have none : w.shown (w.home i) op (s.published (w.home i)) 0 = s.published (w.home i) :=
      if_pos (by omega)
    have still : (s.store (w.home i)).store 1 [] = s.store (w.home i) := by
      simp [JournalFiles.store, JournalFiles.modify, JournalFiles.bytes]
    simp only [List.take_zero, still, none, Function.update_eq_self]
    exact .refl
  | succ n ih =>
    have next := List.getElem?_eq_getElem (inside : n < _)
    have first (j : ι) (op' : WriteOp) (frames : List Frame) :
        Function.update s.writers i (.storing op (s.published (w.home i)) (n + 1)) j =
          .storing op' frames 0 →
          Function.update s.writers i (.storing op (s.published (w.home i)) n) j =
            .storing op' frames 0 := by
      by_cases here : j = i
      · subst here
        simp
      · simp [Function.update_of_ne here]
    have stored : Finishes w (s.opens w i op) _ := (ih (Nat.le_of_succ_le inside)).tail
      ⟨.stores (i := i) (Function.update_self ..) next fun _ => due, rfl, fun j op' frames => by
        simpa only [Function.update_idem] using first j op' frames⟩
    simp only [Function.update_idem, Function.update_self, ← JournalFiles.store_append] at stored
    rwa [List.take_add_one, next]

/-- The rest of a write: its frame is on the page, and its post has signalled. -/
theorem finishes (outside : ∀ i, s.writers i = .outside)
    (fits : w.Fits (w.home i) op (s.published (w.home i)))
    (due : (w.frame (w.home i) op).genTime ≤ s.time) :
    Finishes w (s.opens w i op)
      { s with
        signalled := w.post (w.home i) s.signalled
        store := Function.update s.store (w.home i)
          ((s.store (w.home i)).store 1 (w.stores (w.home i) op (s.published (w.home i))))
        published := Function.update s.published (w.home i)
          (s.published (w.home i) ++ [w.frame (w.home i) op]) } := by
  have stored := storesSome fits due _ le_rfl
  have shown : w.shown (w.home i) op (s.published (w.home i))
      (w.stores (w.home i) op (s.published (w.home i))).length = s.published (w.home i) ++
        [w.frame (w.home i) op] :=
    if_neg (by omega)
  have others (at' : WriterAt) (other : ∀ op frames, at' ≠ .storing op frames 0) (j : ι)
      (op' : WriteOp)
      (frames : List Frame) : Function.update s.writers i at' j ≠ .storing op' frames 0 := by
    by_cases here : j = i
    · subst here
      rw [Function.update_self]
      exact other op' frames
    · simp [Function.update_of_ne here, outside]
  have closed : Finishes w (s.opens w i op) _ := stored.tail
    ⟨.closes (i := i) (Function.update_self ..), rfl, fun j op' frames same => by
      simp only [Function.update_idem] at same
      exact absurd same (others .posting (by simp) j op' frames)⟩
  have posted : Finishes w (s.opens w i op) _ := closed.tail
    ⟨.posts (i := i) (Function.update_self ..), rfl, fun j op' frames same => by
      simp only [Function.update_idem] at same
      exact absurd same (others .outside (by simp) j op' frames)⟩
  have back : Function.update s.writers i .outside = s.writers := by
    rw [← outside i, Function.update_eq_self]
  simpa only [Function.update_idem, List.take_length, shown, back] using posted

/-- A whole write. -/
theorem writes (outside : ∀ i, s.writers i = .outside)
    (fits : w.Fits (w.home i) op (s.published (w.home i)))
    (due : (w.frame (w.home i) op).genTime ≤ s.time) :
    Writes w s
      { s with
        signalled := w.post (w.home i) s.signalled
        store := Function.update s.store (w.home i)
          ((s.store (w.home i)).store 1 (w.stores (w.home i) op (s.published (w.home i))))
        published := Function.update s.published (w.home i)
          (s.published (w.home i) ++ [w.frame (w.home i) op]) } := by
  have opened : Writes w s (s.opens w i op) :=
    .single ⟨.opens (outside i) fits fun j _ op frames done => by simp [outside j], rfl⟩
  exact opened.trans
    (Relation.ReflTransGen.mono (fun _ _ step => ⟨step.1, step.2.1⟩) _ _
      (finishes outside fits due))

end

section

variable {i : ι} {op : WriteOp} {key : UInt64} {j : Journal} {f : Frame} {rest : List Frame}

/-- The `sort` of an engine with one journal finds the frame in front of its cursor. -/
theorem Reachable.sortsFront (reached : Reachable w s) {call : SortCall}
    (stage : s.stage = .calling call)
    (only : s.reader.journals = [(key, j)]) (front : s.published key = s.passed key ++ f :: rest) :
    Quiet w s { s with reader := { s.reader with current := some key }, stage := call.after } := by
  obtain ⟨known, inv⟩ := reached.inv
  have member : (key, j) ∈ s.reader.journals := by simp [only]
  obtain ⟨_, split, facing⟩ := inv.facing member
  obtain rfl := List.append_cancel_left (split.trans front)
  have page : j.page = some ⟨1, findPageSize (w.location key)⟩ := (inv.cursors _ member).1
  have data := facing.hasData page
  have time := (facing.holds page).genTime
  have due : f.genTime ≤ s.time := (inv.due key f (by simp [front])).2
  have ran :
      Reader.inspect s.store (key, j) s.time s.reader.current = .ok (f.genTime, some key) := by
    simp_all [Reader.inspect]
  have called := Quiet.next .refl (EngineStep.calls (w := w) stage) rfl (by simp)
  simp only [only] at called
  have found := called.next (.inspects rfl ran) rfl (by simp)
  exact found.next (.sorts rfl) rfl (by cases call <;> simp [SortCall.after])

/-- It finds nothing behind the last frame. -/
theorem Reachable.sortsBehind (reached : Reachable w s) {call : SortCall}
    (stage : s.stage = .calling call)
    (only : s.reader.journals = [(key, j)]) (behind : s.passed key = s.published key) :
    Quiet w s { s with stage := call.after } := by
  obtain ⟨known, inv⟩ := reached.inv
  have member : (key, j) ∈ s.reader.journals := by simp [only]
  obtain ⟨_, split, facing⟩ := inv.facing member
  obtain rfl := List.append_cancel_left (split.trans (behind.symm.trans (List.append_nil _).symm))
  have page : j.page = some ⟨1, findPageSize (w.location key)⟩ := (inv.cursors _ member).1
  have data := facing.hasData page
  have ran :
      Reader.inspect s.store (key, j) s.time s.reader.current = .ok (s.time, s.reader.current) := by
    simp_all [Reader.inspect]
  have called := Quiet.next .refl (EngineStep.calls (w := w) stage) rfl (by simp)
  simp only [only] at called
  have found := called.next (.inspects rfl ran) rfl (by simp)
  exact found.next (.sorts rfl) rfl (by cases call <;> simp [SortCall.after])

/-- Behind the last frame the loop goes back to its wait. -/
theorem Reachable.rests (reached : Reachable w s) {call : SortCall}
    (stage : s.stage = .calling call)
    (after : call.after = .testing) (live : s.live = true) (only : s.reader.journals = [(key, j)])
    (behind : s.passed key = s.published key) : Quiet w s { s with stage := .waiting } := by
  have sorted := reached.sortsBehind stage only behind
  rw [after] at sorted
  have tested := Quiet.next sorted (.tests rfl) rfl (by simp [live])
  rw [if_pos live] at tested
  have missed := tested.trans ((reached.quiet tested).sortsBehind rfl only behind)
  obtain ⟨known, inv⟩ := (reached.quiet missed).inv
  have nothing : s.reader.current = none ∨ ∃ m frame,
      Reader.currentFrame (s.reader, s.store) = .ok (m, frame) (s.reader, s.store) ∧
        FrameUnit.hasData m frame = false := by
    cases current : s.reader.current with
    | none => exact .inl rfl
    | some k =>
      obtain rfl : k = key := by simpa [only] using inv.current k current
      obtain ⟨j', rest, _, _, split, facing, page, ran⟩ := inv.here current
      obtain rfl :=
        List.append_cancel_left (split.trans (behind.symm.trans (List.append_nil _).symm))
      have none := facing.hasData page
      exact .inr ⟨(s.store k).bytes 1, j'.frame, ran, none⟩
  have waiting := Quiet.next missed (.misses rfl nothing) rfl (by simp [idle, live])
  rwa [idle, if_pos live] at waiting

/-- A wait that has returned for a frame behind the cursor is entered again. -/
theorem Reachable.wakesBehind (reached : Reachable w s) (stage : s.stage = .waiting)
    (live : s.live = true) (only : s.reader.journals = [(key, j)]) (watched : w.fds key = some fd)
    (signal : s.signalled fd = true) (behind : s.passed key = s.published key) :
      Quiet w s { s with signalled := fun _ => false, stage := .waiting } := by
  have wakes : EngineStep w s { s with signalled := fun _ => false, stage := .calling .observed } :=
    .wakes stage (by simp [only] : key ∈ _) watched signal nofun
  have woken := Quiet.next .refl wakes rfl (by simp)
  exact woken.trans ((reached.quiet woken).rests rfl rfl live only behind)

/-- A wait that has returned for a posted frame delivers it and is entered again behind it. -/
theorem Waits.hears (waits : Waits w key s) {s' : EventEngine ι} (reached : Reachable w s')
    (reader : s'.reader = s.reader) (stage : s'.stage = .waiting) (live : s'.live = true)
    (outside : ∀ i, s'.writers i = .outside) (watched : w.fds key = some fd)
    (signal : s'.signalled fd = true)
    (front : s'.published key = s'.passed key ++ [f]) (inTime : f.genTime ≤ w.endTime) :
    ∃ s₁ s₂ s'', Quiet w s' s₁ ∧ EngineStep w s₁ s₂ ∧ s₂.stage = .passing f ∧ Quiet w s₂ s'' ∧
      Waits w key s'' ∧ s''.published = s'.published ∧ s''.skipped = s'.skipped ∧
        s''.time = s'.time ∧
      s''.delivered = Function.update s'.delivered key (s'.delivered key ++ [f]) := by
  obtain ⟨j, only⟩ := waits.only
  rw [← reader] at only
  have wakes :
      EngineStep w s' { s' with signalled := fun _ => false, stage := .calling .observed } :=
    .wakes stage (by simp [only] : key ∈ _) watched signal nofun
  have woken := Quiet.next .refl wakes rfl (by simp)
  have observed := woken.trans ((reached.quiet woken).sortsFront rfl only front)
  have tested := Quiet.next observed (.tests rfl) rfl (by simp [live])
  simp only [live, if_true] at tested
  have available := tested.trans ((reached.quiet tested).sortsFront rfl only front)
  obtain ⟨known, inv⟩ := (reached.quiet available).inv
  obtain ⟨j', rest, member, found, split, facing, page, ran⟩ := inv.here rfl
  obtain rfl := List.append_cancel_left (split.trans front)
  have data := facing.hasData page
  have holds := facing.holds page
  have finds := Quiet.next available (.finds rfl ran data) rfl (by simp)
  have handles := EngineStep.handles (w := w) (s := { s' with
    signalled := fun _ => false, reader := { s'.reader with current := some key },
    live := true, stage := .handling })
    rfl rfl ran (holds.genTime.symm ▸ inTime)
  have handled := (reached.quiet finds).engine handles
  obtain ⟨j₁, next, page', facing'⟩ := facing.next
  have behind : Function.update s'.passed key
      (s'.passed key ++ [FrameUnit.read ((s'.store key).bytes 1) j'.frame]) key =
        s'.published key := by
    rw [Function.update_self, front, holds.read]
  have moved : (s'.reader.replace key j₁).journals = [(key, j₁)] := by
    simp [Reader.replace, only]
  have passes := Quiet.next .refl (EngineStep.passes (w := w) (s := { s' with
    signalled := fun _ => false, reader := { s'.reader with current := some key }, live := true
    stage := .passing (FrameUnit.read ((s'.store key).bytes 1) j'.frame)
    delivered := Function.update s'.delivered key
      (s'.delivered key ++ [FrameUnit.read ((s'.store key).bytes 1) j'.frame]) }) rfl rfl (by
    simp only [Reader.onJournal, found, next]
    rfl)) (Reader.replace_keys _ _ _) (by simp)
  have waiting := passes.trans ((handled.quiet passes).rests rfl rfl rfl moved behind)
  have read : FrameUnit.read ((s'.store key).bytes 1) j'.frame = f := holds.read
  exact ⟨_, _, _, finds, handles, congrArg Stage.passing read, waiting,
    ⟨handled.quiet waiting, rfl, rfl, outside, fun _ => rfl, ⟨_, moved⟩, behind⟩, rfl, rfl, rfl, by
      rw [← read]⟩

/-- A blocked engine whose journal is written once more is blocked again, the frame delivered. -/
theorem Waits.writes (waits : Waits w key s) (home : w.home i = key) (watched : w.fds key = some fd)
    (fits : w.Fits key op (s.published key)) (due : (w.frame key op).genTime ≤ s.time)
    (inTime : (w.frame key op).genTime ≤ w.endTime) :
    ∃ s', Waits w key s' ∧ s'.published key = s.published key ++ [w.frame key op] ∧
      s'.skipped = s.skipped ∧ s'.time = s.time := by
  subst home
  have front :
      Function.update s.published (w.home i) (s.published (w.home i) ++ [w.frame (w.home i) op])
        (w.home i) =
      s.passed (w.home i) ++ [w.frame (w.home i) op] := by
    rw [Function.update_self, waits.behind]
  obtain ⟨_, _, s', _, _, _, _, again, published, skipped, time, _⟩ :=
    waits.hears (waits.reached.run (writes waits.outside fits due)) rfl
    waits.stage waits.live waits.outside watched (Wiring.post_own watched) front inTime
  exact ⟨s', again, (congrFun published _).trans (Function.update_self ..), skipped, time⟩

end

/-- One journal with one writer, whose descriptor is 3. -/
def oneJournal : Wiring Unit :=
  ⟨fun _ => Writer.simAccount, fun _ => 7, fun _ => 1, fun _ => some 3, Int64.maxValue⟩

def opened : EventEngine Unit where
  store _ := JournalFiles.fresh.addPage 1 (findPageSize Writer.simAccount)
  writers _ := .outside
  signalled _ := false
  reader := Reader.make false
  live := false
  stage := .joining
  time := 0
  published _ := []
  skipped _ := []
  passed _ := []
  delivered _ := []

theorem opened_start : Start oneJournal opened := by
  refine ⟨fun key => ?_, nofun, fun _ => rfl, fun _ _ _ some => absurd rfl some, rfl, rfl, rfl⟩
  change PageUnit.Stored _
    ((JournalFiles.fresh.addPage 1 (findPageSize Writer.simAccount)).bytes 1) []
  rw [JournalFiles.addPage_bytes_same]
  exact PageUnit.initial_stored _

/-- The engine has joined the journal on its empty page and waits. -/
def joined : EventEngine Unit where
  store := opened.store
  writers := opened.writers
  signalled := opened.signalled
  reader := ⟨false, none, [(1, { Journal.make Writer.simAccount 7 false false 0 with
    page := some ⟨1, findPageSize Writer.simAccount⟩, frame := 24 })]⟩
  live := true
  stage := .waiting
  time := 0
  published _ := []
  skipped := Function.update opened.skipped 1 []
  passed := Function.update opened.passed 1 []
  delivered := Function.update opened.delivered 1 []

theorem joined_waits : Waits oneJournal 1 joined where
  reached := by
    have joins : EngineStep oneJournal opened { joined with live := false, stage := .joining } :=
      .joins rfl (by simp [opened, Reader.make])
        (List.Perm.refl _) rfl rfl (List.prefix_refl _) nofun
    exact .engine (.engine (.start opened_start) joins) (.observes rfl)
  stage := rfl
  live := rfl
  outside _ := rfl
  silent _ := rfl
  only := ⟨_, rfl⟩
  behind := by simp [joined, opened]

/-- A mark of the time 0. -/
def markOp (msgType : Int32) : WriteOp := .mark 0 msgType 0 0

theorem markOp_fits {msgType : Int32} (typed : 0 < msgType) (frames : List Frame)
    (few : span frames ≤ 40) :
    oneJournal.Fits 1 (markOp msgType) frames where
  inPlace := trivial
  admissible := by
    have type : msgType ≠ pageEndTag := by
      rintro rfl
      exact absurd typed (by decide)
    exact ⟨by simpa [markOp, WriteOp.frame, WriteOp.content] using type, by
      simp [markOp, WriteOp.frame, WriteOp.content, findPageSize, Writer.simAccount,
        JLocation.make, mebibyte, oneJournal]⟩
  typed := typed
  room := by
    change span frames + 40 < pageRoom (findPageSize Writer.simAccount)
    simp [pageRoom, findPageSize, Writer.simAccount, JLocation.make, mebibyte, sizeofFrameHeader,
      sizeofPageHeader]
    omega

/-- Two frames, each written, posted, waited for and delivered. -/
theorem blocked_delivered_marks :
    ∃ s j, Blocked oneJournal s ∧ s.reader.journals = [(1, j)] ∧
      s.delivered 1 = [oneJournal.frame 1 (markOp 101), oneJournal.frame 1 (markOp 102)] ∧
      PageUnit.Shows (findPageSize Writer.simAccount) ((s.store 1).bytes 1) (s.delivered 1) ∧
      j.frame = 24 + span (s.delivered 1) ∧
        FrameUnit.hasData ((s.store 1).bytes 1) j.frame = false := by
  obtain ⟨s₁, waits₁, published₁, skipped₁, time₁⟩ := joined_waits.writes (i := ()) rfl rfl
    (markOp_fits (by decide : (0 : Int32) < 101) [] (by simp)) (Int64.le_refl 0)
      (Int64.le_maxValue 0)
  have fits : oneJournal.Fits 1 (markOp 102) (s₁.published 1) := by
    rw [published₁]
    exact markOp_fits (by decide) [_] (by decide)
  have due : (oneJournal.frame 1 (markOp 102)).genTime ≤ s₁.time := by
    rw [time₁]
    exact Int64.le_refl 0
  obtain ⟨s₂, waits₂, published₂, skipped₂, time₂⟩ := waits₁.writes (i := ()) rfl rfl fits due
    (Int64.le_maxValue 0)
  obtain ⟨j, only⟩ := waits₂.only
  have blocked : Blocked oneJournal s₂ := ⟨waits₂.stage, fun _ _ _ _ => waits₂.silent _⟩
  obtain ⟨shows, all, frame, data⟩ :=
    blocked_delivered waits₂.reached blocked waits₂.outside (fun _ _ => rfl)
    (1, j) (by simp [only])
  have skipped : s₂.skipped 1 = [] := by
    rw [skipped₂, skipped₁]
    simp [joined, opened]
  have delivered : s₂.published 1 = s₂.delivered 1 := by
    rw [← List.nil_append (s₂.delivered 1), ← skipped]
    exact all
  change PageUnit.Shows _ _ (s₂.published 1) at shows
  change j.frame = 24 + span (s₂.published 1) at frame
  rw [delivered] at shows frame published₂
  rw [published₁] at published₂
  exact ⟨s₂, j, blocked, only, published₂, shows, frame, data⟩

end EventEngine
end BTrader
