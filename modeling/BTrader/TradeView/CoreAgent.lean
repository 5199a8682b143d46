import BTrader.Engines.WakeUp
import BTrader.Journal.ReaderChoice

/-! The journals as the user interface reads them. One thread waits for them and emits a signal, and
the event loop then reads. Both sort one reader, and neither of them locks it. -/
namespace BTrader
open ByteMemory Infra

/-- The thread of `StartListening`: before the test of the status, in the wait, in the `sort`
behind it, and before the signal. The other thread may move a journal between any two reads of its
frame: `sort` has seen data, has found the time early enough, has taken it for `min_time`, and
then sets `current_`. -/
inductive Listening where
  | testing
  | waiting
  | calling
  | sorting (rest : List UInt64) (minTime : Int64)
  | looking (key : UInt64) (rest : List UInt64) (minTime : Int64)
  | lowering (key : UInt64) (rest : List UInt64) (minTime : Int64)
  | choosing (key : UInt64) (rest : List UInt64) (minTime : Int64)
  | emitting
  | ended

namespace Listening

/-- The journal that has been found to have data, until it is current or given up. -/
def looksAt : Listening → Option UInt64
  | looking key _ _ | lowering key _ _ | choosing key _ _ => some key
  | _ => none

/-- The journals that are still to be read. -/
def ahead : Listening → List UInt64
  | sorting rest _ => rest
  | looking key rest _ | lowering key rest _ | choosing key rest _ => key :: rest
  | _ => []

end Listening

/-- The `sort` of `data_available` and of `next`. -/
inductive ReadCall where
  | available | passed
  deriving DecidableEq, Repr

/-- The thread of the event loop: outside, in `read_msg`, and in `StopListening` before and after
the post. -/
inductive EventLoop where
  | outside
  | calling (call : ReadCall)
  | sorting (call : ReadCall) (rest : List UInt64) (minTime : Int64)
  | checking
  | testing
  | handling
  | passing (key : UInt64) (event : Frame)
  | interrupting
  | joining

/-- What comes after the `sort`. -/
def ReadCall.after : ReadCall → EventLoop
  | .available => .checking
  | .passed => .calling .available

/-- The event on which the handler has been called while `next` has not been. -/
def EventLoop.inFlight (key : UInt64) : EventLoop → List Frame
  | .passing handled event => if handled = key then [event] else []
  | _ => []

/-- The reader is that of `comm`, joined as an engine joins, and `comm.live` is a status that is not
negative. `pending` are the signals that the event loop has not seen. -/
structure CoreAgent (ι : Type) where
  comm : EventEngine ι
  listening : Listening
  reading : EventLoop
  pending : Nat

namespace CoreAgent

variable {ι : Type} [DecidableEq ι] (w : Wiring ι) (interrupt : Option Nat)

/-- A journal has been looked at. -/
def look (e : EventEngine ι) (current : Option UInt64) : EventEngine ι :=
  { e with reader := { e.reader with current := current } }

/-- The page and the address of a journal's frame. -/
def frameAt (e : EventEngine ι) (key : UInt64) : Option (Memory × Nat) :=
  (e.reader.find key).bind fun j => j.page.map fun page =>
    ((e.store key).bytes page.pageId, j.frame)

/-- `post` of `interrupt_sender`: without a descriptor, which `init` makes, it returns at once. -/
def interruptPost (signalled : Nat → Bool) : Nat → Bool :=
  match interrupt with
  | none => signalled
  | some fd => Function.update signalled fd true

/-- The steps of the thread that listens. -/
inductive ListenStep (s : CoreAgent ι) : CoreAgent ι → Prop where
  | tests (stage : s.listening = .testing) :
      ListenStep s { s with listening := if s.comm.live then .waiting else .ended }
  | wakes {fd : Nat} {left : Nat → Bool} (stage : s.listening = .waiting)
      (watched :
        interrupt = some fd ∨ ∃ key ∈ s.comm.reader.journals.map Prod.fst, w.fds key = some fd)
      (signal : s.comm.signalled fd = true)
      (fewer : ∀ fd, left fd = true → s.comm.signalled fd = true) :
      ListenStep s { s with comm := { s.comm with signalled := left }, listening := .calling }
  | calls (stage : s.listening = .calling) :
      ListenStep s
        { s with listening := .sorting (s.comm.reader.journals.map Prod.fst) s.comm.time }
  | sees {key : UInt64} {rest : List UInt64} {minTime : Int64} {m : Memory} {frame : Nat}
      (stage : s.listening = .sorting (key :: rest) minTime)
      (here : frameAt s.comm key = some (m, frame)) :
      ListenStep s
        { s with
          listening :=
            if FrameUnit.hasData m frame then .looking key rest minTime
            else .sorting rest minTime }
  | compares {key : UInt64} {rest : List UInt64} {minTime : Int64} {m : Memory} {frame : Nat}
      (stage : s.listening = .looking key rest minTime)
      (here : frameAt s.comm key = some (m, frame)) :
      ListenStep s
        { s with
          listening :=
            if FrameUnit.genTime m frame ≤ minTime then .lowering key rest minTime
            else .sorting rest minTime }
  | lowers {key : UInt64} {rest : List UInt64} {minTime : Int64} {m : Memory} {frame : Nat}
      (stage : s.listening = .lowering key rest minTime)
      (here : frameAt s.comm key = some (m, frame)) :
      ListenStep s { s with listening := .choosing key rest (FrameUnit.genTime m frame) }
  | chooses {key : UInt64} {rest : List UInt64} {minTime : Int64}
      (stage : s.listening = .choosing key rest minTime) :
      ListenStep s { s with comm := look s.comm (some key), listening := .sorting rest minTime }
  | sorts {minTime : Int64} (stage : s.listening = .sorting [] minTime) :
      ListenStep s { s with listening := .emitting }
  | emits (stage : s.listening = .emitting) :
      ListenStep s { s with listening := .testing, pending := s.pending + 1 }

/-- The steps of the event loop. Nobody else moves a journal, so that it looks at one at once. -/
inductive ReadStep (s : CoreAgent ι) : CoreAgent ι → Prop where
  | receives {pending : Nat} (stage : s.reading = .outside) (some : s.pending = pending + 1) :
      ReadStep s { s with reading := .calling .available, pending := pending }
  | calls {call : ReadCall} (stage : s.reading = .calling call) :
      ReadStep s
        { s with reading := .sorting call (s.comm.reader.journals.map Prod.fst) s.comm.time }
  | inspects {call : ReadCall} {key : UInt64} {rest : List UInt64} {minTime : Int64} {j : Journal}
      {found : Int64 × Option UInt64} (stage : s.reading = .sorting call (key :: rest) minTime)
      (here : s.comm.reader.find key = some j)
      (ran : Reader.inspect s.comm.store (key, j) minTime s.comm.reader.current = .ok found) :
      ReadStep s { s with comm := look s.comm found.2, reading := .sorting call rest found.1 }
  | sorts {call : ReadCall} {minTime : Int64} (stage : s.reading = .sorting call [] minTime) :
      ReadStep s { s with reading := call.after }
  | finds {m : Memory} {frame : Nat} (stage : s.reading = .checking)
      (ran : Reader.currentFrame (s.comm.reader, s.comm.store) =
        .ok (m, frame) (s.comm.reader, s.comm.store))
      (data : FrameUnit.hasData m frame = true) : ReadStep s { s with reading := .testing }
  | misses (stage : s.reading = .checking)
      (none : s.comm.reader.current = none ∨ ∃ m frame,
        Reader.currentFrame (s.comm.reader, s.comm.store) =
          .ok (m, frame) (s.comm.reader, s.comm.store) ∧
          FrameUnit.hasData m frame = false) :
      ReadStep s { s with reading := .outside }
  | tests (stage : s.reading = .testing) :
      ReadStep s { s with reading := if s.comm.live then .handling else .outside }
  | handles {key : UInt64} {m : Memory} {frame : Nat} (stage : s.reading = .handling)
      (current : s.comm.reader.current = some key)
      (ran : Reader.currentFrame (s.comm.reader, s.comm.store) =
        .ok (m, frame) (s.comm.reader, s.comm.store)) :
      ReadStep s
        { s with
          comm := { s.comm with
            delivered :=
              Function.update s.comm.delivered key
                (s.comm.delivered key ++ [FrameUnit.read m frame]) }
          reading := .passing key (FrameUnit.read m frame) }
  | passes {handled key : UInt64} {event : Frame} {m : Memory} {frame : Nat} {r : Reader}
      {store : FileStore}
      (stage : s.reading = .passing handled event) (current : s.comm.reader.current = some key)
      (front : Reader.currentFrame (s.comm.reader, s.comm.store) =
        .ok (m, frame) (s.comm.reader, s.comm.store))
      (ran : Reader.onJournal key Journal.next (s.comm.reader, s.comm.store) = .ok () (r, store)) :
      ReadStep s
        { s with
          comm := { s.comm with
            reader := r
            store := store
            passed :=
              Function.update s.comm.passed key (s.comm.passed key ++ [FrameUnit.read m frame]) }
          reading := .calling .passed }
  | terminates (stage : s.reading = .outside) :
      ReadStep s { s with comm := { s.comm with live := false }, reading := .interrupting }
  | interrupts (stage : s.reading = .interrupting) :
      ReadStep s
        { s with
          comm := { s.comm with signalled := interruptPost interrupt s.comm.signalled }
          reading := .joining }
  | joins (stage : s.reading = .joining) (ended : s.listening = .ended) :
      ReadStep s { s with reading := .outside }

/-- A step of the writers or of one of the threads. Only `terminate` sets the status. -/
inductive Step (s : CoreAgent ι) : CoreAgent ι → Prop where
  | writer {comm : EventEngine ι} (step : EventEngine.WriterStep w s.comm comm)
      (status : comm.live = s.comm.live) :
      Step s { s with comm := comm }
  | listen {s' : CoreAgent ι} (step : ListenStep w interrupt s s') : Step s s'
  | read {s' : CoreAgent ι} (step : ReadStep interrupt s s') : Step s s'

/-- The journals have been joined, and the thread that listens is about to run. -/
structure Start (s : CoreAgent ι) : Prop where
  joined : EventEngine.Reachable w s.comm
  stage : s.comm.stage = .joining
  live : s.comm.live = true
  listening : s.listening = .testing
  reading : s.reading = .outside

inductive Reachable : CoreAgent ι → Prop where
  | start {s} (start : Start w s) : Reachable s
  | step {s s'} (before : Reachable s) (step : Step w interrupt s s') : Reachable s'

/-- The event loop does not move the journal at which the other thread is looking. -/
def Whole (s s' : CoreAgent ι) : Prop :=
  ∀ key ∈ s.listening.looksAt, s'.comm.passed key = s.comm.passed key

def WholeStep (s s' : CoreAgent ι) : Prop := Step w interrupt s s' ∧ Whole s s'

/-- Reached with every look of the thread that listens whole. -/
inductive ReachableWhole : CoreAgent ι → Prop where
  | start {s} (start : Start w s) : ReachableWhole s
  | step {s s'} (before : ReachableWhole s) (step : WholeStep w interrupt s s') : ReachableWhole s'

/-- The thread that listens has nothing to wake for, and the event loop no signal to receive. -/
structure Quiet (s : CoreAgent ι) : Prop where
  listening : s.listening = .waiting
  silent : ∀ key ∈ s.comm.reader.journals.map Prod.fst, ∀ fd, w.fds key = some fd →
    s.comm.signalled fd = false
  reading : s.reading = .outside
  pending : s.pending = 0

/-- The reader as that of an engine which has delivered nothing since its joins. -/
def bare (e : EventEngine ι) : EventEngine ι :=
  { e with skipped := e.passed, delivered := fun _ => [], stage := .testing }

/-- What the event loop knows, `seen` frames having been there when the wait before its signal
returned. -/
def Reads (e : EventEngine ι) (seen : UInt64 → Nat) : EventLoop → Prop
  | .outside => e.live = true → e.Caught seen (e.reader.journals.map Prod.fst)
  | .calling _ => True
  | .sorting _ rest minTime => ∃ before, e.reader.journals.map Prod.fst = before ++ rest ∧
      (e.Found ∨ e.Caught seen before ∧
        ∀ key, ∀ f ∈ (e.published key).take (seen key), f.genTime ≤ minTime)
  | .checking => e.Found ∨ e.Caught seen (e.reader.journals.map Prod.fst)
  | .testing | .handling => e.Found
  | .passing key event => e.Found ∧ key ∈ e.reader.journals.map Prod.fst ∧
      ∃ rest, e.published key = e.passed key ++ event :: rest
  | .interrupting | .joining => e.live = false

end CoreAgent

/-- The signal for the last return of the wait has been emitted. -/
def Listening.Told : Listening → Prop
  | .calling | .sorting _ _ | .looking _ _ _ | .lowering _ _ _ | .choosing _ _ _
  | .emitting => False
  | _ => True

namespace CoreAgent

variable {ι : Type} {w : Wiring ι} {interrupt : Option Nat} {s s' : CoreAgent ι}
    {e e' : EventEngine ι}
  {known seen : UInt64 → Nat} {doing : EventLoop}

/-- `known` frames were there when the wait returned last, and `seen` frames when it returned
before the signal that the event loop received last. -/
structure Inv (w : Wiring ι) (s : CoreAgent ι) (known seen : UInt64 → Nat) : Prop where
  engine : EventEngine.Inv w (bare s.comm) known
  older : ∀ key, seen key ≤ known key
  latest : s.pending = 0 → s.listening.Told → ∀ key, known key ≤ seen key
  reads : Reads s.comm seen s.reading
  inside : ∀ key ∈ s.listening.ahead, key ∈ s.comm.reader.journals.map Prod.fst
  ready : ∀ key ∈ s.listening.looksAt, (s.comm.passed key).length < (s.comm.published key).length

theorem find_mem {r : Reader} (found : r.find k = some j) : (k, j) ∈ r.journals := by
  obtain ⟨before, after, split, _⟩ := List.lookup_eq_some_iff.mp found
  rw [split]
  exact List.mem_append_right _ List.mem_cons_self

/-- What `sort` finds out about one journal. -/
theorem inspect_spec (engine : EventEngine.Inv w (bare e) known) {k : UInt64} {j : Journal}
    (here : e.reader.find k = some j) {minTime : Int64} {current : Option UInt64}
    {found : Int64 × Option UInt64}
    (ran : Reader.inspect e.store (k, j) minTime current = .ok found) :
    found.2 = some k ∧ (e.passed k).length < (e.published k).length ∨
      found = (minTime, current) ∧ ∀ n ≤ (e.published k).length,
        (∀ f ∈ (e.published k).take n, f.genTime ≤ minTime) → n ≤ (e.passed k).length := by
  have member := find_mem here
  obtain ⟨front, split, facing⟩ := engine.facing member
  have split : e.passed k ++ front = e.published k := split
  have facing : Journal.Facing (e.store k) j (e.passed k) front := facing
  have page : j.page = some ⟨1, findPageSize (w.location k)⟩ := (engine.cursors _ member).1
  have data := facing.hasData page
  simp only [Reader.inspect, page] at ran
  by_cases ready : FrameUnit.hasData ((e.store k).bytes 1) j.frame = true ∧
      FrameUnit.genTime ((e.store k).bytes 1) j.frame ≤ minTime
  · rw [if_pos ready] at ran
    obtain rfl := Except.ok.inj ran
    refine .inl ⟨rfl, ?_⟩
    rw [data] at ready
    rw [← split, List.length_append]
    cases front with
    | nil => simp at ready
    | cons f rest => simp
  · rw [if_neg ready] at ran
    obtain rfl := Except.ok.inj ran
    refine .inr ⟨rfl, fun n bounded times => ?_⟩
    by_contra behind
    cases front with
    | nil =>
      rw [← split, List.append_nil] at bounded
      exact behind bounded
    | cons f rest =>
      -- The frame in front of the cursor is one of these, so it is found.
      have among : f ∈ (e.published k).take n := by
        rw [← split, List.take_append]
        obtain ⟨more, count⟩ := Nat.exists_eq_add_of_lt (not_le.mp behind)
        simp [count, show (e.passed k).length + more + 1 - (e.passed k).length = more + 1 by omega]
      have time := (facing.holds page).genTime
      exact ready ⟨data, time.symm ▸ times f among⟩

/-- A look leaves the current journal as it is, or sets one with a frame in front of its cursor. -/
def Chosen (e : EventEngine ι) (current : Option UInt64) : Prop :=
  current = e.reader.current ∨ ∃ key, current = some key ∧ key ∈ e.reader.journals.map Prod.fst ∧
    (e.passed key).length < (e.published key).length

theorem inspect_chosen (engine : EventEngine.Inv w (bare e) known) {k : UInt64} {j : Journal}
    (here : e.reader.find k = some j) {minTime : Int64} {found : Int64 × Option UInt64}
    (ran : Reader.inspect e.store (k, j) minTime e.reader.current = .ok found) :
      Chosen e found.2 := by
  rcases inspect_spec engine here ran with ⟨current, fewer⟩ | ⟨rfl, _⟩
  · exact .inr ⟨k, current, List.mem_map_of_mem (find_mem here), fewer⟩
  · exact .inl rfl

/-- Whoever looks, the current journal has a frame in front of its cursor if it had one. -/
theorem look_found {current : Option UInt64} (chosen : Chosen e current) (before : e.Found) :
    (look e current).Found := by
  rcases chosen with rfl | ⟨key, rfl, _, fewer⟩
  · exact before
  · exact ⟨key, rfl, fewer⟩

theorem look_engine (engine : EventEngine.Inv w (bare e) known) {current : Option UInt64}
    (chosen : Chosen e current) :
    EventEngine.Inv w (bare (look e current)) known where
  pages := engine.pages
  due := engine.due
  bounded := engine.bounded
  heard := engine.heard
  keys := engine.keys
  current key same := by
    rcases chosen with rfl | ⟨k, rfl, joined, _⟩
    · exact engine.current key same
    · obtain rfl : k = key := Option.some.inj same
      exact joined
  cursors := engine.cursors
  told := engine.told
  stage := trivial

theorem Reads.look (reads : Reads e seen doing) {current : Option UInt64}
    (chosen : Chosen e current) :
    Reads (look e current) seen doing := by
  have kept := look_found chosen
  cases doing with
  | outside => exact reads
  | calling call => trivial
  | sorting call rest minTime =>
    obtain ⟨before, split, reached⟩ := reads
    exact ⟨before, split, reached.imp_left kept⟩
  | checking => exact reads.imp_left kept
  | testing => exact kept reads
  | handling => exact kept reads
  | passing key event => exact ⟨kept reads.1, reads.2⟩
  | interrupting => exact reads
  | joining => exact reads

theorem Reads.grows (reads : Reads e seen doing) (grows : EventEngine.Grows e e')
    (status : e'.live = e.live)
    (bounded : ∀ key, seen key ≤ (e.published key).length) : Reads e' seen doing := by
  have journals : e'.reader.journals = e.reader.journals := by rw [grows.reader]
  have caught (keys : List UInt64) : e.Caught seen keys → e'.Caught seen keys := grows.caught
  cases doing with
  | outside =>
    intro live
    rw [journals]
    exact caught _ (reads (status.symm.trans live))
  | calling call => trivial
  | sorting call rest minTime =>
    obtain ⟨before, split, reached⟩ := reads
    refine ⟨before, by rw [journals, split], ?_⟩
    rcases reached with found | ⟨behind, times⟩
    · exact .inl (grows.found found)
    · refine .inr ⟨caught _ behind, fun key => ?_⟩
      rw [grows.take bounded]
      exact times key
  | checking =>
    rcases reads with found | behind
    · exact .inl (grows.found found)
    · apply Or.inr
      rw [journals]
      exact caught _ behind
  | testing => exact grows.found reads
  | handling => exact grows.found reads
  | passing key event =>
    obtain ⟨found, joined, rest, front⟩ := reads
    obtain ⟨more, grown⟩ := grows.published key
    refine ⟨grows.found found, by rwa [journals], rest ++ more, ?_⟩
    rw [← grown, front, grows.passed]
    simp
  | interrupting => exact status.trans reads
  | joining => exact status.trans reads

/-- The front of the current journal, for whoever reads it. -/
theorem front (engine : EventEngine.Inv w (bare e) known) (found : e.Found)
    (current : e.reader.current = some key) {m : Memory} {frame : Nat}
    (ran : Reader.currentFrame (e.reader, e.store) = .ok (m, frame) (e.reader, e.store)) :
    ∃ rest, e.published key = e.passed key ++ FrameUnit.read m frame :: rest := by
  obtain ⟨k, same, fewer⟩ := found
  obtain rfl : key = k := Option.some.inj (current.symm.trans same)
  obtain ⟨j, rest, member, _, split, facing, page, ran'⟩ := engine.here current
  cases ran.symm.trans ran'
  have split : e.passed key ++ rest = e.published key := split
  rw [← split, List.length_append] at fewer
  cases rest with
  | nil => simp at fewer
  | cons f rest =>
    have read := (facing.holds page).read
    exact ⟨rest, by rw [← split, read]⟩

/-- `next` of the journal that is current passes one frame. -/
theorem pass_engine (engine : EventEngine.Inv w (bare e) known) (found : e.Found)
    (current : e.reader.current = some key) {m : Memory} {frame : Nat}
    (ran : Reader.currentFrame (e.reader, e.store) = .ok (m, frame) (e.reader, e.store))
    {r : Reader} {store : FileStore}
    (next : Reader.onJournal key Journal.next (e.reader, e.store) = .ok () (r, store)) :
    EventEngine.Inv w (bare { e with
      reader := r
      store := store
      passed := Function.update e.passed key (e.passed key ++ [FrameUnit.read m frame]) })
        known := by
  obtain ⟨rest, split⟩ := front engine found current ran
  have handled : EventEngine.Inv w
      { bare e with
        delivered := Function.update (fun _ => []) key [FrameUnit.read m frame]
        stage := .passing (FrameUnit.read m frame) } known :=
    { pages := engine.pages, due := engine.due, bounded := engine.bounded, heard := engine.heard,
      keys := engine.keys
      current := engine.current, cursors := engine.cursors
      told := by
        intro k _
        by_cases same : k = key
        · subst same
          simp [Stage.inFlight, bare, current]
        · have other : ¬ key = k := fun here => same here.symm
          simp [Stage.inFlight, bare, current, other, Function.update_of_ne same]
      stage := ⟨key, rest, current, split⟩ }
  have passed := handled.passes rfl current next
  exact
    { pages := passed.pages, due := passed.due, bounded := passed.bounded, heard := passed.heard
      keys := passed.keys, current := passed.current, cursors := passed.cursors
      told := fun _ _ => rfl, stage := trivial }

variable [DecidableEq ι]

theorem bare_writer (step : EventEngine.WriterStep w e e') :
    EventEngine.WriterStep w (bare e) (bare e') := by
  cases step with
  | opens outside fits free => exact .opens outside fits free
  | stores writing next due => exact .stores writing next due
  | closes written => exact .closes written
  | posts posting => exact .posts posting
  | stops => exact .stops
  | ticks later => exact .ticks later

omit [DecidableEq ι] in
theorem interruptPost_kept {signalled : Nat → Bool} {fd : Nat} (signal : signalled fd = true) :
    interruptPost interrupt signalled fd = true := by
  cases interrupt with
  | none => exact signal
  | some own => simp [interruptPost, Function.update_apply, signal]

theorem writer_signal (step : EventEngine.WriterStep w e e') (signal : e.signalled fd = true) :
    e'.signalled fd = true := by
  cases step with
  | posts posting => exact Wiring.post_kept signal
  | _ => exact signal

namespace Inv

theorem start (start : Start w s) : Inv w s (fun _ => 0) fun _ => 0 := by
  obtain ⟨known, inv⟩ := start.joined.inv
  have joining := inv.stage
  rw [start.stage] at joining
  obtain rfl : known = fun _ => 0 := funext joining
  exact
    { engine :=
        { pages := inv.pages, due := inv.due, bounded := inv.bounded, heard := inv.heard
          keys := inv.keys, current := inv.current, cursors := inv.cursors
          told := fun _ _ => rfl, stage := trivial }
      older := fun _ => le_refl _
      latest := fun _ _ _ => le_refl _
      reads := by
        rw [start.reading]
        exact fun _ _ _ => Nat.zero_le _
      inside := by simp [start.listening, Listening.ahead]
      ready := by simp [start.listening, Listening.looksAt] }

theorem writer (inv : Inv w s known seen) {comm : EventEngine ι}
    (step : EventEngine.WriterStep w s.comm comm)
    (status : comm.live = s.comm.live) : Inv w { s with comm := comm } known seen := by
  have grows : EventEngine.Grows s.comm comm := EventEngine.writerStep_grows inv.engine.pages step
  refine ⟨inv.engine.writer (bare_writer step), inv.older, inv.latest, ?_, fun key ahead => ?_,
    fun key looks => ?_⟩
  · exact inv.reads.grows grows status fun key => (inv.older key).trans (inv.engine.bounded key)
  · have inside := inv.inside key ahead
    rwa [← grows.reader] at inside
  · have ready := inv.ready key looks
    rw [← grows.passed] at ready
    exact ready.trans_le (grows.published key).length_le

omit [DecidableEq ι] in
theorem frameAt_spec (inv : Inv w s known seen) {key : UInt64}
    (joined : key ∈ s.comm.reader.journals.map Prod.fst)
    {m : Memory} {frame : Nat} (here : frameAt s.comm key = some (m, frame)) :
    FrameUnit.hasData m frame = true →
      (s.comm.passed key).length < (s.comm.published key).length := by
  obtain ⟨⟨k, j⟩, member, rfl⟩ := List.mem_map.mp joined
  have found := Reader.find_of_mem inv.engine.keys member
  have found : s.comm.reader.find k = some j := found
  have page : j.page = some ⟨1, findPageSize (w.location k)⟩ := (inv.engine.cursors _ member).1
  simp only [frameAt, found, page, Option.map_some, Option.bind_some, Option.some.injEq,
    Prod.mk.injEq] at here
  obtain ⟨rfl, rfl⟩ := here
  obtain ⟨rest, split, facing⟩ := inv.engine.facing member
  have split : s.comm.passed k ++ rest = s.comm.published k := split
  have facing : Journal.Facing (s.comm.store k) j (s.comm.passed k) rest := facing
  intro data
  rw [facing.hasData page] at data
  rw [← split, List.length_append]
  cases rest with
  | nil => simp at data
  | cons f rest => simp

omit [DecidableEq ι] in
/-- A step of the `sort` that sets nothing yet. -/
theorem sorts (inv : Inv w s known seen) {listening : Listening} (untold : ¬ listening.Told)
    (ahead : ∀ key ∈ listening.ahead, key ∈ s.comm.reader.journals.map Prod.fst)
    (ready :
      ∀ key ∈ listening.looksAt, (s.comm.passed key).length < (s.comm.published key).length) :
    Inv w { s with listening := listening } known seen :=
  ⟨inv.engine, inv.older, fun _ told => absurd told untold, inv.reads, ahead, ready⟩

omit [DecidableEq ι] in
/-- The thread that listens does no more to the reader than to look at it. -/
theorem listen (inv : Inv w s known seen) (step : ListenStep w interrupt s s') :
    ∃ known', Inv w s' known' seen := by
  have inside := inv.inside
  have ready := inv.ready
  cases step with
  | tests stage =>
    refine ⟨known, inv.engine, inv.older, fun none _ => inv.latest none (by rw [stage]; trivial),
      inv.reads, ?_, ?_⟩
    · cases s.comm.live <;> simp [Listening.ahead]
    · cases s.comm.live <;> simp [Listening.looksAt]
  | @wakes fd left stage watched signal fewer =>
    refine ⟨fun key => (s.comm.published key).length, ?_, ?_, fun _ told => told.elim, ?_,
      by simp [Listening.ahead], by simp [Listening.looksAt]⟩
    · exact
        { pages := inv.engine.pages, due := inv.engine.due, bounded := fun _ => le_refl _
          heard := fun _ _ _ fewer => absurd fewer (lt_irrefl _), keys := inv.engine.keys
          current := inv.engine.current, cursors := inv.engine.cursors
          told := inv.engine.told, stage := trivial }
    · exact fun key => (inv.older key).trans (inv.engine.bounded key)
    · have reads := inv.reads
      change Reads _ seen s.reading
      cases doing : s.reading <;> rw [doing] at reads <;> exact reads
  | calls stage =>
    exact ⟨known, inv.sorts id (by simp [Listening.ahead]) (by simp [Listening.looksAt])⟩
  | @sees key rest minTime m frame stage here =>
    rw [stage] at inside
    refine ⟨known, ?_⟩
    split
    · rename_i data
      refine inv.sorts id inside fun k looks => ?_
      obtain rfl := Option.some.inj looks
      exact inv.frameAt_spec (inside key List.mem_cons_self) here data
    · exact inv.sorts id (fun k later => inside k (List.mem_cons_of_mem _ later))
        (by simp [Listening.looksAt])
  | compares stage here =>
    rw [stage] at inside ready
    refine ⟨known, ?_⟩
    split
    · exact inv.sorts id inside ready
    · exact inv.sorts id (fun k later => inside k (List.mem_cons_of_mem _ later))
        (by simp [Listening.looksAt])
  | lowers stage here =>
    rw [stage] at inside ready
    exact ⟨known, inv.sorts id inside ready⟩
  | @chooses key rest minTime stage =>
    rw [stage] at inside ready
    have chosen : Chosen s.comm (some key) :=
      .inr ⟨key, rfl, inside key List.mem_cons_self, ready key rfl⟩
    refine ⟨known, look_engine inv.engine chosen, inv.older, fun _ told => told.elim,
      inv.reads.look chosen, ?_, by simp [Listening.looksAt]⟩
    exact fun k later => inside k (List.mem_cons_of_mem _ later)
  | sorts stage =>
    exact ⟨known, inv.sorts id (by simp [Listening.ahead]) (by simp [Listening.looksAt])⟩
  | emits stage =>
    exact ⟨known, inv.engine, inv.older, by simp, inv.reads, by simp [Listening.ahead],
      by simp [Listening.looksAt]⟩

omit [DecidableEq ι] in
/-- One journal more has been looked at, and a frame of those seen would have been found. -/
theorem inspects (inv : Inv w s known seen) {call : ReadCall} {key : UInt64} {rest : List UInt64}
    {minTime : Int64} {j : Journal} {found : Int64 × Option UInt64}
    (stage : s.reading = .sorting call (key :: rest) minTime)
    (here : s.comm.reader.find key = some j)
    (ran : Reader.inspect s.comm.store (key, j) minTime s.comm.reader.current = .ok found) :
    Reads (look s.comm found.2) seen (.sorting call rest found.1) := by
  have reads := inv.reads
  rw [stage] at reads
  obtain ⟨before, split, reached⟩ := reads
  refine ⟨before ++ [key], by simpa [look] using split, ?_⟩
  rcases inspect_spec inv.engine here ran with ⟨current, fewer⟩ | ⟨rfl, behind⟩
  · exact .inl ⟨key, current, fewer⟩
  · rcases reached with known | ⟨caught, times⟩
    · exact .inl known
    · refine .inr ⟨fun k member => ?_, times⟩
      rcases List.mem_append.mp member with earlier | last
      · exact caught k earlier
      · rw [List.mem_singleton.mp last]
        exact behind (seen key) ((inv.older key).trans (inv.engine.bounded key)) (times key)

omit [DecidableEq ι] in
theorem read (inv : Inv w s known seen) (step : ReadStep interrupt s s') (whole : Whole s s') :
    ∃ seen', Inv w s' known seen' := by
  have reads := inv.reads
  cases step with
  | receives stage some =>
    exact ⟨known, inv.engine, fun _ => le_refl _, fun _ _ _ => le_refl _, trivial,
      inv.inside, inv.ready⟩
  | calls stage =>
    refine ⟨seen, inv.engine, inv.older, inv.latest,
      ⟨[], rfl, .inr ⟨nofun, fun key f member => ?_⟩⟩, inv.inside, inv.ready⟩
    exact (inv.engine.due key f (List.mem_of_mem_take member)).2
  | inspects stage here ran =>
    exact ⟨seen, look_engine inv.engine (inspect_chosen inv.engine here ran), inv.older, inv.latest,
      inv.inspects stage here ran, inv.inside, inv.ready⟩
  | @sorts call minTime stage =>
    rw [stage] at reads
    obtain ⟨before, split, reached⟩ := reads
    rw [List.append_nil] at split
    refine ⟨seen, inv.engine, inv.older, inv.latest, ?_, inv.inside, inv.ready⟩
    cases call with
    | passed => trivial
    | available =>
      rw [← split] at reached
      exact reached.imp_right And.left
  | finds stage ran data =>
    exact ⟨seen, inv.engine, inv.older, inv.latest, (inv.engine.found_iff ran).mpr data,
      inv.inside, inv.ready⟩
  | misses stage none =>
    rw [stage] at reads
    refine ⟨seen, inv.engine, inv.older, inv.latest, fun _ => reads.resolve_left fun found => ?_,
      inv.inside, inv.ready⟩
    rcases none with absent | ⟨m, frame, ran, nothing⟩
    · obtain ⟨key, current, _⟩ := found
      rw [absent] at current
      contradiction
    · have data := (inv.engine.found_iff ran).mp found
      rw [data] at nothing
      contradiction
  | tests stage =>
    rw [stage] at reads
    refine ⟨seen, inv.engine, inv.older, inv.latest, ?_, inv.inside, inv.ready⟩
    cases live : s.comm.live with
    | false => simp [Reads, live]
    | true => exact reads
  | handles stage current ran =>
    rw [stage] at reads
    exact ⟨seen, inv.engine, inv.older, inv.latest,
      ⟨reads, inv.engine.current _ current, front inv.engine reads current ran⟩,
      inv.inside, inv.ready⟩
  | @passes handled key event m frame r store stage current ran next =>
    rw [stage] at reads
    have keys := (Reader.onJournal_rest key Journal.next (s.comm.reader, s.comm.store)).1
    rw [Procedure.after, next] at keys
    refine ⟨seen, pass_engine inv.engine reads.1 current ran next, inv.older, inv.latest, trivial,
      ?_, fun k looks => ?_⟩
    · rw [keys]
      exact inv.inside
    · -- Nobody looks at the journal that has been moved.
      have same :
          Function.update s.comm.passed key (s.comm.passed key ++ [FrameUnit.read m frame]) k =
          s.comm.passed k :=
        whole k looks
      exact (congrArg List.length same).trans_lt (inv.ready k looks)
  | terminates stage =>
    refine ⟨seen, inv.engine.moves inv.engine.told trivial, inv.older, inv.latest, rfl,
      inv.inside, inv.ready⟩
  | interrupts stage =>
    rw [stage] at reads
    refine ⟨seen, ?_, inv.older, inv.latest, reads, inv.inside, inv.ready⟩
    exact
      { pages := inv.engine.pages, due := inv.engine.due, bounded := inv.engine.bounded
        heard := fun key fd watched fewer => by
          refine (inv.engine.heard key fd watched fewer).imp_left fun signal => ?_
          have signal : s.comm.signalled fd = true := signal
          exact interruptPost_kept signal
        keys := inv.engine.keys, current := inv.engine.current
        cursors := inv.engine.cursors, told := inv.engine.told, stage := trivial }
  | joins stage ended =>
    rw [stage] at reads
    refine ⟨seen, inv.engine, inv.older, inv.latest, fun live => ?_, inv.inside, inv.ready⟩
    rw [reads] at live
    contradiction

end Inv

theorem ReachableWhole.inv (reached : ReachableWhole w interrupt s) :
    ∃ known seen, Inv w s known seen := by
  induction reached with
  | start start => exact ⟨_, _, Inv.start start⟩
  | step before step ih =>
    obtain ⟨known, seen, inv⟩ := ih
    obtain ⟨step, whole⟩ := step
    cases step with
    | writer step status => exact ⟨known, seen, inv.writer step status⟩
    | listen step =>
      obtain ⟨known', inv'⟩ := inv.listen step
      exact ⟨known', seen, inv'⟩
    | read step =>
      obtain ⟨seen', inv'⟩ := inv.read step whole
      exact ⟨known, seen', inv'⟩

/-- However the two threads sort, `next` passes a frame that is there, and once both are at rest
all frames have been passed. -/
theorem caught_up (reached : ReachableWhole w interrupt s) :
    (∀ entry ∈ s.comm.reader.journals,
      PageUnit.Shows (findPageSize (w.location entry.1)) ((s.comm.store entry.1).bytes 1)
        (s.comm.published entry.1) ∧
      s.comm.passed entry.1 <+: s.comm.published entry.1 ∧
        entry.2.frame = 24 + span (s.comm.passed entry.1)) ∧
    (∀ key event, s.reading = .passing key event → ∃ k t, s.comm.reader.current = some k ∧
      (s.comm.passed k).length < (s.comm.published k).length ∧
      Reader.onJournal k Journal.next (s.comm.reader, s.comm.store) = .ok () t) ∧
    (Quiet w s → s.comm.live = true → (∀ i, s.comm.writers i = .outside) →
      (∀ key ∈ s.comm.reader.journals.map Prod.fst, (w.fds key).isSome) →
        ∀ entry ∈ s.comm.reader.journals, s.comm.passed entry.1 = s.comm.published entry.1 ∧
        FrameUnit.hasData ((s.comm.store entry.1).bytes 1) entry.2.frame = false) := by
  obtain ⟨known, seen, inv⟩ := reached.inv
  have reads := inv.reads
  refine ⟨fun entry member => ?_, fun key event passing => ?_,
    fun quiet live outside watched entry member => ?_⟩
  · exact ⟨(inv.engine.pages entry.1).shows, (inv.engine.cursors entry member).2.2,
      (inv.engine.cursors entry member).2.1⟩
  · rw [passing] at reads
    obtain ⟨k, current, fewer⟩ := reads.1
    obtain ⟨j, rest, _, found, split, facing, _⟩ := inv.engine.here current
    have split : s.comm.passed k ++ rest = s.comm.published k := split
    have facing : Journal.Facing (s.comm.store k) j (s.comm.passed k) rest := facing
    have found : s.comm.reader.find k = some j := found
    rw [← split, List.length_append] at fewer
    cases rest with
    | nil => simp at fewer
    | cons f rest =>
      obtain ⟨j', moved, _⟩ := facing.next
      exact ⟨k, (s.comm.reader.replace k j', s.comm.store), current, by simp [← split], by
        simp [Reader.onJournal, found, moved]⟩
  · rw [quiet.reading] at reads
    have joined : entry.1 ∈ s.comm.reader.journals.map Prod.fst := List.mem_map_of_mem member
    obtain ⟨fd, watches⟩ := Option.isSome_iff_exists.mp (watched entry.1 joined)
    have caught : seen entry.1 ≤ (s.comm.passed entry.1).length := reads live entry.1 joined
    have latest := inv.latest quiet.pending (by rw [quiet.listening]; trivial) entry.1
    -- A frame that came after the last return of the wait would have been posted.
    have all : (s.comm.published entry.1).length ≤ known entry.1 := by
      by_contra fewer
      rcases inv.engine.heard entry.1 fd watches (not_le.mp fewer) with signal | ⟨i, home, unposted⟩
      · have signal : s.comm.signalled fd = true := signal
        rw [quiet.silent entry.1 joined fd watches] at signal
        contradiction
      · have unposted : w.Unposted entry.1 (s.comm.writers i) := unposted
        rw [outside i] at unposted
        exact unposted
    obtain ⟨rest, split, facing⟩ := inv.engine.facing member
    have split : s.comm.passed entry.1 ++ rest = s.comm.published entry.1 := split
    have length := congrArg List.length split
    rw [List.length_append] at length
    obtain rfl : rest = [] := List.eq_nil_of_length_eq_zero (by omega)
    rw [List.append_nil] at split
    have data := facing.hasData (inv.engine.cursors entry member).1
    exact ⟨split, data⟩

/-- A look of the thread that listens at a journal with a frame in front, while the event loop
rests. -/
theorem looks_front {key : UInt64} {rest : List UInt64} {minTime : Int64} {m : Memory} {frame : Nat}
    (stage : s.listening = .sorting (key :: rest) minTime)
    (here : frameAt s.comm key = some (m, frame))
    (data : FrameUnit.hasData m frame = true) (due : FrameUnit.genTime m frame ≤ minTime) :
    Relation.ReflTransGen (WholeStep w interrupt) s
      { s with
        comm := look s.comm (some key)
        listening := .sorting rest (FrameUnit.genTime m frame) } := by
  have sees : ListenStep w interrupt s _ := .sees stage here
  rw [if_pos data] at sees
  have compares : ListenStep w interrupt { s with listening := .looking key rest minTime } _ :=
    .compares rfl here
  simp only [if_pos due] at compares
  have lowers : ListenStep w interrupt { s with listening := .lowering key rest minTime } _ :=
    .lowers rfl here
  have chooses : ListenStep w interrupt
      { s with listening := .choosing key rest (FrameUnit.genTime m frame) } _ := .chooses rfl
  exact ((Relation.ReflTransGen.single ⟨.listen sees, fun _ _ => rfl⟩).tail ⟨.listen compares,
    fun _ _ => rfl⟩).tail
    ⟨.listen lowers, fun _ _ => rfl⟩ |>.tail ⟨.listen chooses, fun _ _ => rfl⟩

/-- The journal with one writer has been joined on its empty page. -/
def ready : CoreAgent Unit where
  comm := { EventEngine.joined with live := true, stage := .joining }
  listening := .testing
  reading := .outside
  pending := 0

theorem ready_start : Start EventEngine.oneJournal ready where
  joined := by
    have opened :
        EventEngine.Start EventEngine.oneJournal { EventEngine.opened with live := true } :=
      { stored := EventEngine.opened_start.stored, due := EventEngine.opened_start.due
        outside := EventEngine.opened_start.outside, posted := EventEngine.opened_start.posted
        journals := rfl, current := rfl, stage := rfl }
    have joins :
        EventEngine.EngineStep EventEngine.oneJournal
          { EventEngine.opened with live := true } ready.comm :=
      .joins rfl (by simp [EventEngine.opened, Reader.make])
        (List.Perm.refl _) rfl rfl (List.prefix_refl _) nofun
    exact .engine (.start opened) joins
  stage := rfl
  live := rfl
  listening := rfl
  reading := rfl

/-! A run with one journal -/

section

variable {i : ι} {op : WriteOp} {key : UInt64} {j : Journal} {f : Frame}
    {rest : List Frame} {fd : Nat}

namespace ReachableWhole

theorem run (reached : ReachableWhole w interrupt s) {comm : EventEngine ι}
    (run : EventEngine.Writes w s.comm comm) :
    ReachableWhole w interrupt { s with comm := comm } := by
  induction run with
  | refl => exact reached
  | tail _ step ih =>
    refine ih.step ⟨.writer step.1 step.2, fun key _ => congrFun ?_ key⟩
    cases step.1 <;> rfl

theorem listens (reached : ReachableWhole w interrupt s) (step : ListenStep w interrupt s s') :
    ReachableWhole w interrupt s' := by
  refine reached.step ⟨.listen step, fun key _ => congrFun ?_ key⟩
  cases step <;> rfl

theorem reads (reached : ReachableWhole w interrupt s) (still : s.listening.looksAt = none)
    (step : ReadStep interrupt s s') : ReachableWhole w interrupt s' :=
  reached.step ⟨.read step, fun key looks => by simp [still] at looks⟩

theorem steps (reached : ReachableWhole w interrupt s)
    (run : Relation.ReflTransGen (WholeStep w interrupt) s s') :
    ReachableWhole w interrupt s' := by
  induction run with
  | refl => exact reached
  | tail _ step ih => exact ih.step step

/-- The page and the cursor of the only journal, and what is in front of it. -/
theorem facing (reached : ReachableWhole w interrupt s) (only : s.comm.reader.journals = [(key, j)])
    (front : s.comm.published key = s.comm.passed key ++ rest) :
    Journal.Facing (s.comm.store key) j (s.comm.passed key) rest ∧
      j.page = some ⟨1, findPageSize (w.location key)⟩ ∧ s.comm.reader.find key = some j := by
  obtain ⟨known, seen, inv⟩ := reached.inv
  have member : (key, j) ∈ s.comm.reader.journals := by simp [only]
  obtain ⟨rest', split, facing⟩ := inv.engine.facing member
  have split : s.comm.passed key ++ rest' = s.comm.published key := split
  obtain rfl := List.append_cancel_left (split.trans front)
  exact ⟨facing, (inv.engine.cursors _ member).1, Reader.find_of_mem inv.engine.keys member⟩

theorem due (reached : ReachableWhole w interrupt s)
    (front : s.comm.published key = s.comm.passed key ++ f :: rest) :
    f.genTime ≤ s.comm.time := by
  obtain ⟨known, seen, inv⟩ := reached.inv
  have published : f ∈ s.comm.published key := by simp [front]
  exact (inv.engine.due key f published).2

/-- A `sort` of the event loop finds the frame in front of the cursor. -/
theorem sortsFront (reached : ReachableWhole w interrupt s) (still : s.listening.looksAt = none)
    {call : ReadCall} (stage : s.reading = .calling call)
    (only : s.comm.reader.journals = [(key, j)])
    (front : s.comm.published key = s.comm.passed key ++ f :: rest) :
    ReachableWhole w interrupt
      { s with comm := look s.comm (some key), reading := call.after } := by
  obtain ⟨facing, page, found⟩ := reached.facing only front
  have ran : Reader.inspect s.comm.store (key, j) s.comm.time s.comm.reader.current =
      .ok (f.genTime, some key) := by
    have data := facing.hasData page
    have time := (facing.holds page).genTime
    have due := reached.due front
    simp_all [Reader.inspect]
  have called := reached.reads still (.calls stage)
  simp only [only] at called
  exact (called.reads still (.inspects rfl found ran)).reads still (.sorts rfl)

/-- It finds nothing behind the last frame. -/
theorem sortsBehind (reached : ReachableWhole w interrupt s) (still : s.listening.looksAt = none)
    {call : ReadCall}
    (stage : s.reading = .calling call) (only : s.comm.reader.journals = [(key, j)])
    (behind : s.comm.passed key = s.comm.published key) :
      ReachableWhole w interrupt { s with reading := call.after } := by
  obtain ⟨facing, page, found⟩ := reached.facing only (behind.symm.trans (List.append_nil _).symm)
  have ran : Reader.inspect s.comm.store (key, j) s.comm.time s.comm.reader.current =
      .ok (s.comm.time, s.comm.reader.current) := by
    have data := facing.hasData page
    simp_all [Reader.inspect]
  have called := reached.reads still (.calls stage)
  simp only [only] at called
  exact (called.reads still (.inspects rfl found ran)).reads still (.sorts rfl)

/-- The thread that listens wakes for the frame, sorts and emits its signal. -/
theorem tells (reached : ReachableWhole w interrupt s) (waiting : s.listening = .waiting)
    (live : s.comm.live = true)
    (only : s.comm.reader.journals = [(key, j)]) (watched : w.fds key = some fd)
    (signal : s.comm.signalled fd = true)
    (front : s.comm.published key = s.comm.passed key ++ f :: rest) :
    ReachableWhole w interrupt
      { s with
        comm := look { s.comm with signalled := fun _ => false } (some key)
        listening := .waiting
        pending := s.pending + 1 } := by
  have woken := reached.listens (.wakes waiting (.inr ⟨key, by simp [only], watched⟩) signal
    (nofun : ∀ fd, (fun _ => false : Nat → Bool) fd = true → _))
  obtain ⟨facing, page, found⟩ := reached.facing only front
  have data := facing.hasData page
  have time := (facing.holds page).genTime
  have called := woken.listens (.calls rfl)
  simp only [only, List.map_cons, List.map_nil] at called
  have here : frameAt { s.comm with signalled := fun _ => false } key =
      some ((s.comm.store key).bytes 1, j.frame) := by
    simp [frameAt, found, page]
  have looked := called.steps (looks_front rfl here data (time.symm ▸ reached.due front))
  have emitted := ((looked.listens (.sorts rfl)).listens (.emits rfl)).listens (.tests rfl)
  simpa only [look, live, if_true] using emitted

/-- The event loop handles the frame, passes it, and finds no other. -/
theorem handles (reached : ReachableWhole w interrupt s) (still : s.listening.looksAt = none)
    (outside : s.reading = .outside) {pending : Nat} (some : s.pending = pending + 1)
    (live : s.comm.live = true) (only : s.comm.reader.journals = [(key, j)])
    (front : s.comm.published key = s.comm.passed key ++ [f]) :
    ∃ s', ReachableWhole w interrupt s' ∧ s'.listening = s.listening ∧ s'.reading = .outside ∧
      s'.pending = pending ∧
      (∃ j, s'.comm.reader.journals = [(key, j)]) ∧ s'.comm.passed key = s.comm.published key ∧
      s'.comm.published = s.comm.published ∧ s'.comm.live = true ∧
        s'.comm.writers = s.comm.writers ∧
      s'.comm.signalled = s.comm.signalled ∧ s'.comm.time = s.comm.time := by
  have received := reached.reads still (.receives outside some)
  have checking := received.sortsFront still rfl only front
  obtain ⟨facing, page, found⟩ := reached.facing only front
  have data := facing.hasData page
  have ran : Reader.currentFrame ({ s.comm.reader with current := Option.some key }, s.comm.store) =
      .ok ((s.comm.store key).bytes 1, j.frame) ({ s.comm.reader with current := Option.some key },
        s.comm.store) := by
    have joined : ({ s.comm.reader with current := Option.some key } : Reader).find key =
        Option.some j := found
    simp [Reader.currentFrame, joined, page]
  have testing := (checking.reads still (.finds rfl ran data)).reads still (.tests rfl)
  simp only [look, live, if_true] at testing
  have handled := testing.reads still (.handles rfl rfl ran)
  obtain ⟨j₁, next, page', facing'⟩ := facing.next
  have passed := handled.reads still (.passes rfl rfl ran (by
    have joined : ({ s.comm.reader with current := Option.some key } : Reader).find key =
        Option.some j := found
    simp only [Reader.onJournal, joined, next]
    rfl))
  have behind : Function.update s.comm.passed key
      (s.comm.passed key ++ [FrameUnit.read ((s.comm.store key).bytes 1) j.frame]) key =
        s.comm.published key := by
    rw [Function.update_self, front, (facing.holds page).read]
  have moved :
      (({ s.comm.reader with current := Option.some key } : Reader).replace key j₁).journals =
      [(key, j₁)] := by
    simp [Reader.replace, only]
  -- The frame is behind the cursor: both sorts that follow find nothing.
  have again := (passed.sortsBehind still rfl moved behind).sortsBehind still rfl moved behind
  obtain ⟨known, seen, inv⟩ := again.inv
  obtain ⟨j₂, rest, member, found, split, facing, page, ran⟩ := inv.engine.here rfl
  obtain rfl := List.append_cancel_left (split.trans (behind.symm.trans (List.append_nil _).symm))
  have none := facing.hasData page
  have missing := again.reads still (.misses rfl (.inr ⟨_, _, ran, none⟩))
  exact ⟨_, missing, rfl, rfl, rfl, ⟨_, moved⟩, behind, rfl, rfl, rfl, rfl, rfl⟩

end ReachableWhole

/-- Both threads are at rest behind the frames of the only journal. -/
structure Rests (w : Wiring ι) (interrupt : Option Nat) (key : UInt64)
    (s : CoreAgent ι) : Prop where
  reached : ReachableWhole w interrupt s
  listening : s.listening = .waiting
  reading : s.reading = .outside
  pending : s.pending = 0
  live : s.comm.live = true
  outside : ∀ i, s.comm.writers i = .outside
  silent : ∀ fd, s.comm.signalled fd = false
  only : ∃ j, s.comm.reader.journals = [(key, j)]
  behind : s.comm.passed key = s.comm.published key

/-- A post wakes the thread that listens, and its signal has the event loop handle the frame. -/
theorem Rests.reads (rests : Rests w interrupt key s) (home : w.home i = key)
    (watched : w.fds key = some fd)
    (fits : w.Fits key op (s.comm.published key)) (due : (w.frame key op).genTime ≤ s.comm.time) :
    ∃ s', Rests w interrupt key s' ∧
      s'.comm.published key = s.comm.published key ++ [w.frame key op] ∧
      s'.comm.time = s.comm.time := by
  subst home
  obtain ⟨j, only⟩ := rests.only
  have written := rests.reached.run (EventEngine.writes rests.outside fits due)
  have front :
      Function.update s.comm.published (w.home i)
        (s.comm.published (w.home i) ++ [w.frame (w.home i) op])
      (w.home i) = s.comm.passed (w.home i) ++ [w.frame (w.home i) op] := by
    rw [Function.update_self, rests.behind]
  have told := written.tells rests.listening rests.live only watched (Wiring.post_own watched) front
  obtain ⟨s', handled, listening, reading, pending, single, behind, published, live, writers,
      signalled, time⟩ :=
    told.handles rfl rests.reading (congrArg (· + 1) rests.pending) rests.live only front
  refine ⟨s', ⟨handled, listening, reading, pending, live, fun i => ?_, fun fd => ?_, single, ?_⟩,
    ?_, time⟩
  · rw [writers]
    exact rests.outside i
  · rw [signalled]
    rfl
  · rw [behind, published]
  · rw [published]
    exact Function.update_self ..

end

theorem ready_rests :
    Rests EventEngine.oneJournal (some 4) 1 { ready with listening := .waiting } where
  reached := (ReachableWhole.start ready_start).listens (.tests rfl)
  listening := rfl
  reading := rfl
  pending := rfl
  live := rfl
  outside _ := rfl
  silent _ := rfl
  only := ⟨_, rfl⟩
  behind := by simp [ready, EventEngine.joined, EventEngine.opened]

/-- Two frames, each written, posted, waited for and read. -/
theorem caught_up_marks :
    ∃ s j, Quiet EventEngine.oneJournal s ∧ s.comm.reader.journals = [(1, j)] ∧
      s.comm.passed 1 = [EventEngine.oneJournal.frame 1 (EventEngine.markOp 101),
        EventEngine.oneJournal.frame 1 (EventEngine.markOp 102)] ∧
      s.comm.published 1 = s.comm.passed 1 ∧
        FrameUnit.hasData ((s.comm.store 1).bytes 1) j.frame = false := by
  obtain ⟨s₁, rests₁, published₁, time₁⟩ := ready_rests.reads (i := ()) rfl rfl
    (EventEngine.markOp_fits (by decide : (0 : Int32) < 101) [] (by simp)) (Int64.le_refl 0)
  have fits : EventEngine.oneJournal.Fits 1 (EventEngine.markOp 102) (s₁.comm.published 1) := by
    rw [published₁]
    exact EventEngine.markOp_fits (by decide) [_] (by decide)
  have due : (EventEngine.oneJournal.frame 1 (EventEngine.markOp 102)).genTime ≤ s₁.comm.time := by
    rw [time₁]
    exact Int64.le_refl 0
  obtain ⟨s₂, rests₂, published₂, time₂⟩ := rests₁.reads (i := ()) rfl rfl fits due
  obtain ⟨j, only⟩ := rests₂.only
  have quiet : Quiet EventEngine.oneJournal s₂ :=
    ⟨rests₂.listening, fun _ _ _ _ => rests₂.silent _, rests₂.reading, rests₂.pending⟩
  obtain ⟨passed, data⟩ :=
    (caught_up rests₂.reached).2.2 quiet rests₂.live rests₂.outside (fun _ _ => rfl) (1, j)
    (by simp [only])
  have passed : s₂.comm.passed 1 = s₂.comm.published 1 := passed
  rw [published₁] at published₂
  exact ⟨s₂, j, quiet, only, passed.trans published₂, passed.symm, data⟩

end CoreAgent
end BTrader
