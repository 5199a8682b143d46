import BTrader.Journal.ReaderSpec

/-! The loop of an engine that sleeps on the event descriptors of its journals, and the writers
of these journals. Every store of a write, every post and every journal that `sort` looks at
is a step of its own. -/
namespace BTrader
open ByteMemory Infra

namespace Reader

/-- What `sort` does with one journal: the next minimum and `current`. -/
def inspect (store : FileStore) (entry : UInt64 × Journal) (minTime : Int64)
    (current : Option UInt64) :
    Except Fault (Int64 × Option UInt64) :=
  match entry.2.page with
  | none => .error .nullPointer
  | some page =>
    let m := (store entry.1).bytes page.pageId
    if FrameUnit.hasData m entry.2.frame = true ∧ FrameUnit.genTime m entry.2.frame ≤ minTime then
      .ok (FrameUnit.genTime m entry.2.frame, some entry.1)
    else .ok (minTime, current)

/-- The loop of `sort` looks at one journal after another. -/
theorem sortFrom_cons (store : FileStore) (entry : UInt64 × Journal)
    (rest : List (UInt64 × Journal)) (minTime : Int64) (current : Option UInt64) :
    sortFrom store (entry :: rest) minTime current =
      (inspect store entry minTime current).bind fun found =>
        sortFrom store rest found.1 found.2 := by
  obtain ⟨key, j⟩ := entry
  cases page : j.page with
  | none => simp [sortFrom, inspect, page, Except.bind]
  | some p =>
    simp only [sortFrom, inspect, page]
    split <;> rfl

end Reader

/-- Outside a write, after the first stores of a frame behind those of the page, and between the
unlock of `close_frame` and the post. -/
inductive WriterAt where
  | outside
  | storing (op : WriteOp) (frames : List Frame) (done : Nat)
  | posting

/-- The `sort` of `ObserveHelper::data_available`, of `Reader::data_available` and of
`Reader::next`. -/
inductive SortCall where
  | observed | available | passed
  deriving DecidableEq, Repr

/-- Where the engine is: in `on_setup`, in `epoll_wait`, before a test of the inner loop of `drain`,
at the call of a `sort`, in its loop, after that of `data_available`, with a frame that it has
found, and behind `on_next` of an event. -/
inductive Stage where
  | joining
  | waiting
  | testing
  | calling (call : SortCall)
  | sorting (call : SortCall) (rest : List (UInt64 × Journal)) (minTime : Int64)
  | checking
  | handling
  | passing (event : Frame)
  | ended

/-- The writers, each with its journal, the map of the event descriptors, and `end_time_`. -/
structure Wiring (ι : Type) where
  location : UInt64 → JLocation
  destId : UInt64 → UInt32
  home : ι → UInt64
  fds : UInt64 → Option Nat
  endTime : Int64

/-- `published` are the frames of a page whose length is stored, `skipped` those before the join
position, `passed` those behind the cursor, and `delivered` the events. A descriptor is
`signalled` from a post until `epoll_wait` returns for it. -/
structure EventEngine (ι : Type) where
  store : FileStore
  writers : ι → WriterAt
  signalled : Nat → Bool
  reader : Reader
  live : Bool
  stage : Stage
  time : Int64
  published : UInt64 → List Frame
  skipped : UInt64 → List Frame
  passed : UInt64 → List Frame
  delivered : UInt64 → List Frame

/-- What comes after the `sort`. -/
def SortCall.after : SortCall → Stage
  | .available => .checking
  | .observed | .passed => .testing

namespace Wiring

variable {ι : Type} (w : Wiring ι)

/-- The stores of an operation behind the frames of the page. -/
def stores (key : UInt64) (op : WriteOp) (frames : List Frame) : List StoreOp :=
  op.stores (w.location key).uid (w.destId key) (24 + span frames)

def frame (key : UInt64) (op : WriteOp) : Frame := op.frame (w.location key).uid (w.destId key)

/-- The frames that a page shows after the first `done` stores of a frame: the length is stored
last but one. -/
def shown (key : UInt64) (op : WriteOp) (frames : List Frame) (done : Nat) : List Frame :=
  if done + 1 < (w.stores key op frames).length then frames else frames ++ [w.frame key op]

/-- A write of the page that needs no other page. -/
structure Fits (key : UInt64) (op : WriteOp) (frames : List Frame) : Prop where
  inPlace : op.InPlace
  admissible : op.Admissible (w.location key)
  typed : 0 < (w.frame key op).msgType
  room : Log.roomFor (w.location key) ⟨[], frames⟩ (w.frame key op)

/-- What `post` does to the descriptors. -/
def post (key : UInt64) (signalled : Nat → Bool) : Nat → Bool :=
  match w.fds key with
  | none => signalled
  | some fd => Function.update signalled fd true

end Wiring

namespace EventEngine

/-- The inner loop is left, `drain` returns true, and `produce` tests `live_`. -/
def idle (s : EventEngine ι) : Stage := if s.live then .waiting else .ended

variable {ι : Type} [DecidableEq ι] (w : Wiring ι)

/-- The steps of the writers, of whoever stops the engine, and of time. -/
inductive WriterStep (s : EventEngine ι) : EventEngine ι → Prop where
  | opens {i : ι} {op : WriteOp} (outside : s.writers i = .outside)
      (fits : w.Fits (w.home i) op (s.published (w.home i)))
      (free : ∀ j, w.home j = w.home i → ∀ op frames done, s.writers j ≠ .storing op frames done) :
      WriterStep s
        { s with writers := Function.update s.writers i (.storing op (s.published (w.home i)) 0) }
  | stores {i : ι} {op : WriteOp} {frames : List Frame} {done : Nat} {x : StoreOp}
      (writing : s.writers i = .storing op frames done)
      (next : (w.stores (w.home i) op frames)[done]? = some x)
      (due : done + 2 = (w.stores (w.home i) op frames).length →
        (w.frame (w.home i) op).genTime ≤ s.time) :
      WriterStep s
        { s with
          writers := Function.update s.writers i (.storing op frames (done + 1))
          store := Function.update s.store (w.home i) ((s.store (w.home i)).store 1 [x])
          published :=
            Function.update s.published (w.home i) (w.shown (w.home i) op frames (done + 1)) }
  | closes {i : ι} {op : WriteOp} {frames : List Frame}
      (written : s.writers i = .storing op frames (w.stores (w.home i) op frames).length) :
      WriterStep s { s with writers := Function.update s.writers i .posting }
  | posts {i : ι} (posting : s.writers i = .posting) :
      WriterStep s
        { s with
          writers := Function.update s.writers i .outside
          signalled := w.post (w.home i) s.signalled }
  | stops : WriterStep s { s with live := false }
  | ticks {t : Int64} (later : s.time ≤ t) : WriterStep s { s with time := t }

/-- The steps of the engine. A join may land between any two frames of the page. -/
inductive EngineStep (s : EventEngine ι) : EventEngine ι → Prop where
  | joins {key : UInt64} {j : Journal} {before : List Frame} {current : Option UInt64}
      {journals : List (UInt64 × Journal)} (stage : s.stage = .joining)
      (new : key ∉ s.reader.journals.map Prod.fst)
      (order : journals.Perm ((key, j) :: s.reader.journals))
      (page : j.page = some ⟨1, findPageSize (w.location key)⟩) (frame : j.frame = 24 + span before)
      (lands : before <+: s.published key)
      (sorted : ∀ k, current = some k → k ∈ journals.map Prod.fst) :
      EngineStep s
        { s with
          reader := { s.reader with journals := journals, current := current }
          skipped := Function.update s.skipped key before
          passed := Function.update s.passed key before
          delivered := Function.update s.delivered key [] }
  | observes (stage : s.stage = .joining) : EngineStep s { s with live := true, stage := .waiting }
  | wakes {key : UInt64} {fd : Nat} {left : Nat → Bool} (stage : s.stage = .waiting)
      (joined : key ∈ s.reader.journals.map Prod.fst) (watched : w.fds key = some fd)
      (signal : s.signalled fd = true) (fewer : ∀ fd, left fd = true → s.signalled fd = true) :
      EngineStep s { s with signalled := left, stage := .calling .observed }
  | calls {call : SortCall} (stage : s.stage = .calling call) :
      EngineStep s { s with stage := .sorting call s.reader.journals s.time }
  | inspects {call : SortCall} {entry : UInt64 × Journal} {rest : List (UInt64 × Journal)}
      {minTime : Int64}
      {found : Int64 × Option UInt64} (stage : s.stage = .sorting call (entry :: rest) minTime)
      (ran : Reader.inspect s.store entry minTime s.reader.current = .ok found) :
      EngineStep s
        { s with
          reader := { s.reader with current := found.2 }
          stage := .sorting call rest found.1 }
  | sorts {call : SortCall} {minTime : Int64} (stage : s.stage = .sorting call [] minTime) :
      EngineStep s { s with stage := call.after }
  | tests (stage : s.stage = .testing) :
      EngineStep s { s with stage := if s.live then .calling .available else .ended }
  | finds {m : Memory} {frame : Nat} (stage : s.stage = .checking)
      (ran : Reader.currentFrame (s.reader, s.store) = .ok (m, frame) (s.reader, s.store))
      (data : FrameUnit.hasData m frame = true) : EngineStep s { s with stage := .handling }
  | misses (stage : s.stage = .checking)
      (none : s.reader.current = none ∨ ∃ m frame,
        Reader.currentFrame (s.reader, s.store) = .ok (m, frame) (s.reader, s.store) ∧
          FrameUnit.hasData m frame = false) :
      EngineStep s { s with stage := s.idle }
  | handles {key : UInt64} {m : Memory} {frame : Nat} (stage : s.stage = .handling)
      (current : s.reader.current = some key)
      (ran : Reader.currentFrame (s.reader, s.store) = .ok (m, frame) (s.reader, s.store))
      (inTime : FrameUnit.genTime m frame ≤ w.endTime) :
      EngineStep s
        { s with
          stage := .passing (FrameUnit.read m frame)
          delivered :=
            Function.update s.delivered key (s.delivered key ++ [FrameUnit.read m frame]) }
  | ends {m : Memory} {frame : Nat} (stage : s.stage = .handling)
      (ran : Reader.currentFrame (s.reader, s.store) = .ok (m, frame) (s.reader, s.store))
      (late : ¬ FrameUnit.genTime m frame ≤ w.endTime) : EngineStep s { s with stage := .ended }
  | passes {key : UInt64} {event : Frame} {r : Reader} {store : FileStore}
      (stage : s.stage = .passing event)
      (current : s.reader.current = some key)
      (ran : Reader.onJournal key Journal.next (s.reader, s.store) = .ok () (r, store)) :
      EngineStep s
        { s with
          reader := r
          store := store
          passed := Function.update s.passed key (s.passed key ++ [event])
          stage := .calling .passed }

/-- The engine has joined nothing, and the frames that are there have been posted. -/
structure Start (s : EventEngine ι) : Prop where
  stored :
    ∀ key, PageUnit.Stored (findPageSize (w.location key)) ((s.store key).bytes 1) (s.published key)
  due : ∀ key, ∀ f ∈ s.published key, 0 < f.msgType ∧ f.genTime ≤ s.time
  outside : ∀ i, s.writers i = .outside
  posted : ∀ key fd, w.fds key = some fd → s.published key ≠ [] → s.signalled fd = true
  journals : s.reader.journals = []
  current : s.reader.current = none
  stage : s.stage = .joining

inductive Reachable : EventEngine ι → Prop where
  | start {s} (start : Start w s) : Reachable s
  | writer {s s'} (before : Reachable s) (step : WriterStep w s s') : Reachable s'
  | engine {s s'} (before : Reachable s) (step : EngineStep w s s') : Reachable s'

/-- `epoll_wait` has nothing to return for. -/
structure Blocked (s : EventEngine ι) : Prop where
  stage : s.stage = .waiting
  silent : ∀ key ∈ s.reader.journals.map Prod.fst, ∀ fd, w.fds key = some fd →
    s.signalled fd = false

end EventEngine
end BTrader
