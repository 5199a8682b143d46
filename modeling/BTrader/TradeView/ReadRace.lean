import BTrader.Lib.Runs
import BTrader.TradeView.CoreAgent

/-! Both threads set the current journal of the reader. Which of the frames passed have been
handled depends on what the other thread does between the handler and `next`. -/
namespace BTrader
open ByteMemory Infra

namespace CoreAgent

variable {ι : Type} {w : Wiring ι} {interrupt : Option Nat} {s s' : CoreAgent ι}
    {known seen : UInt64 → Nat}

/-- The handler has been called on each frame behind the join position that has been passed, in
order and once, and on the one at hand. -/
def Told (s : CoreAgent ι) : Prop :=
  ∀ key ∈ s.comm.reader.journals.map Prod.fst,
    s.comm.skipped key ++ s.comm.delivered key = s.comm.passed key ++ s.reading.inFlight key

/-- If the step is that of `next`, the current journal is still the one whose frame has been
handled. -/
def Undisturbed (s s' : CoreAgent ι) : Prop :=
  ∀ key event, s.reading = .passing key event → s'.reading = .calling .passed →
    s.comm.reader.current = some key

/-- A step that neither handles a frame nor passes one. -/
theorem told_aside
    (journals : s'.comm.reader.journals.map Prod.fst = s.comm.reader.journals.map Prod.fst)
    (skipped : s'.comm.skipped = s.comm.skipped) (delivered : s'.comm.delivered = s.comm.delivered)
    (passed : s'.comm.passed = s.comm.passed)
    (flight : ∀ key, s'.reading.inFlight key = s.reading.inFlight key)
    (aside : ∀ key event, s.reading = .passing key event → s'.reading ≠ .calling .passed)
    (told : Told s) :
    Told s' ↔ Undisturbed s s' := by
  refine iff_of_true ?_ fun key event passing next => absurd next (aside key event passing)
  simpa only [Told, journals, skipped, delivered, passed, flight] using told

theorem told_listen (step : ListenStep w interrupt s s') (told : Told s) :
    Told s' ↔ Undisturbed s s' := by
  have aside : ∀ key event, s.reading = .passing key event → s.reading ≠ .calling .passed := by
    intro key event passing
    simp [passing]
  cases step with
  | tests stage => exact told_aside rfl rfl rfl rfl (fun _ => rfl) aside told
  | wakes stage watched signal fewer => exact told_aside rfl rfl rfl rfl (fun _ => rfl) aside told
  | calls stage => exact told_aside rfl rfl rfl rfl (fun _ => rfl) aside told
  | sees stage here => exact told_aside rfl rfl rfl rfl (fun _ => rfl) aside told
  | compares stage here => exact told_aside rfl rfl rfl rfl (fun _ => rfl) aside told
  | lowers stage here => exact told_aside rfl rfl rfl rfl (fun _ => rfl) aside told
  | chooses stage => exact told_aside rfl rfl rfl rfl (fun _ => rfl) aside told
  | sorts stage => exact told_aside rfl rfl rfl rfl (fun _ => rfl) aside told
  | emits stage => exact told_aside rfl rfl rfl rfl (fun _ => rfl) aside told

/-- The frame in front of the current journal is told of once it has been handled. -/
theorem told_handles {key : UInt64} {event : Frame} (stage : s.reading = .handling)
    (told : Told s) :
    Told { s with
      comm :=
        { s.comm with delivered :=
          Function.update s.comm.delivered key (s.comm.delivered key ++ [event]) }
      reading := .passing key event } := by
  intro k joined
  have before := told k joined
  rw [stage] at before
  by_cases same : k = key
  · subst same
    have before : s.comm.skipped k ++ s.comm.delivered k = s.comm.passed k := by
      simpa [EventLoop.inFlight] using before
    simp [EventLoop.inFlight, ← before]
  · have other : ¬ key = k := fun here => same here.symm
    simpa [EventLoop.inFlight, other, Function.update_of_ne same] using before

/-- `next` passes the frame that has been handled just when the journal is still the current one. -/
theorem told_passes (inv : Inv w s known seen) {handled key : UInt64} {event f : Frame} {r : Reader}
    {store : FileStore}
    (stage : s.reading = .passing handled event) (current : s.comm.reader.current = some key)
    (journals : r.journals.map Prod.fst = s.comm.reader.journals.map Prod.fst)
    (front : ∃ rest, s.comm.published key = s.comm.passed key ++ f :: rest) (told : Told s) :
    Told { s with
      comm := { s.comm with
        reader := r
        store := store
        passed := Function.update s.comm.passed key (s.comm.passed key ++ [f]) }
      reading := .calling .passed } ↔ key = handled := by
  have reads := inv.reads
  rw [stage] at reads
  obtain ⟨_, joined, rest, ahead⟩ := reads
  have before := told handled joined
  rw [stage] at before
  constructor
  · intro after
    by_contra other
    have now := after handled (by rw [← journals] at joined; exact joined)
    have apart : handled ≠ key := fun here => other here.symm
    have now : s.comm.skipped handled ++ s.comm.delivered handled = s.comm.passed handled := by
      simpa [EventLoop.inFlight, Function.update_of_ne apart] using now
    -- The handled frame is still in front of its cursor.
    rw [now] at before
    simp [EventLoop.inFlight] at before
  · rintro rfl k here
    obtain ⟨rest', ahead'⟩ := front
    obtain rfl : f = event := by
      have same := List.append_cancel_left (ahead'.symm.trans ahead)
      exact (List.cons.inj same).1
    have old := told k (by rw [journals] at here; exact here)
    rw [stage] at old
    by_cases same : k = key
    · subst same
      simpa [EventLoop.inFlight] using old
    · have other : ¬ key = k := fun here => same here.symm
      simpa [EventLoop.inFlight, other, Function.update_of_ne same] using old

theorem told_read (inv : Inv w s known seen) (step : ReadStep interrupt s s') (told : Told s) :
    Told s' ↔ Undisturbed s s' := by
  cases step with
  | handles stage current ran =>
    refine iff_of_true (told_handles stage told) fun key event passing => ?_
    rw [stage] at passing
    contradiction
  | @passes handled key event m frame r store stage current ran next =>
    have reads := inv.reads
    rw [stage] at reads
    have journals := (Reader.onJournal_rest key Journal.next (s.comm.reader, s.comm.store)).1
    rw [Procedure.after, next] at journals
    rw [told_passes inv stage current journals (front inv.engine reads.1 current ran) told]
    constructor
    · rintro rfl k event' passing _
      rw [stage] at passing
      obtain ⟨rfl, rfl⟩ := EventLoop.passing.inj passing
      exact current
    · intro undisturbed
      exact Option.some.inj (current.symm.trans (undisturbed handled event stage rfl))
  | receives stage some =>
    exact told_aside rfl rfl rfl rfl (by simp [stage, EventLoop.inFlight]) (by simp [stage]) told
  | calls stage =>
    exact told_aside rfl rfl rfl rfl (by simp [stage, EventLoop.inFlight]) (by simp [stage]) told
  | inspects stage here ran =>
    exact told_aside rfl rfl rfl rfl (by simp [stage, EventLoop.inFlight]) (by simp [stage]) told
  | @sorts call minTime stage =>
    exact told_aside rfl rfl rfl rfl (by cases call
      <;> simp [stage, EventLoop.inFlight, ReadCall.after]) (by simp [stage]) told
  | finds stage ran data =>
    exact told_aside rfl rfl rfl rfl (by simp [stage, EventLoop.inFlight]) (by simp [stage]) told
  | misses stage none =>
    exact told_aside rfl rfl rfl rfl (by simp [stage, EventLoop.inFlight]) (by simp [stage]) told
  | tests stage =>
    refine told_aside rfl rfl rfl rfl (fun key => ?_) (by simp [stage]) told
    cases s.comm.live <;> simp [stage, EventLoop.inFlight]
  | terminates stage =>
    exact told_aside rfl rfl rfl rfl (by simp [stage, EventLoop.inFlight]) (by simp [stage]) told
  | interrupts stage =>
    exact told_aside rfl rfl rfl rfl (by simp [stage, EventLoop.inFlight]) (by simp [stage]) told
  | joins stage ended =>
    exact told_aside rfl rfl rfl rfl (by simp [stage, EventLoop.inFlight]) (by simp [stage]) told

variable [DecidableEq ι]

theorem told_step (inv : Inv w s known seen) (step : Step w interrupt s s') (told : Told s) :
    Told s' ↔ Undisturbed s s' := by
  cases step with
  | @writer comm step status =>
    have grows : EventEngine.Grows s.comm comm := EventEngine.writerStep_grows inv.engine.pages step
    refine told_aside (congrArg (fun r => r.journals.map Prod.fst) grows.reader) grows.skipped
      grows.delivered grows.passed
      (fun _ => rfl) (fun key event passing => ?_) told
    simp [passing]
  | listen step => exact told_listen step told
  | read step => exact told_read inv step told

theorem step_journals (inv : Inv w s known seen) (step : Step w interrupt s s') :
    s'.comm.reader.journals.map Prod.fst = s.comm.reader.journals.map Prod.fst := by
  cases step with
  | @writer comm step status =>
    have grows : EventEngine.Grows s.comm comm := EventEngine.writerStep_grows inv.engine.pages step
    exact congrArg (fun r => r.journals.map Prod.fst) grows.reader
  | listen step => cases step <;> rfl
  | read step =>
    cases step with
    | @passes handled key event m frame r store stage current ran next =>
      have journals := (Reader.onJournal_rest key Journal.next (s.comm.reader, s.comm.store)).1
      rwa [Procedure.after, next] at journals
    | _ => rfl

theorem Start.told (start : Start w s) : Told s := by
  obtain ⟨known, inv⟩ := start.joined.inv
  intro key joined
  have told := inv.told key joined
  rw [start.stage] at told
  rw [start.reading]
  exact told

/-- In a run in which the looks of the thread that listens are whole, each frame that has been
passed has been handled once and in order, in every state, just if each `next` finds the journal
of the handled frame current. With one journal it always does. -/
theorem told_iff (start : Start w s) (states : List (CoreAgent ι))
    (run : List.IsChain (WholeStep w interrupt) (s :: states)) :
    ((∀ t ∈ s :: states, Told t) ↔ List.IsChain Undisturbed (s :: states)) ∧
      (s.comm.reader.journals.length = 1 → ∀ t ∈ s :: states, Told t) := by
  have survives :
      ∀ t t' : CoreAgent ι, ReachableWhole w interrupt t → WholeStep w interrupt t t' → Told t →
      (Told t' ↔ Undisturbed t t') := by
    intro t t' reached step told
    obtain ⟨known, seen, inv⟩ := reached.inv
    exact told_step inv step.1 told
  refine ⟨Runs.chain_iff (fun _ _ => .step) survives (.start start) start.told states run,
    fun one => ?_⟩
  have alone := run.induction
    (fun t => (ReachableWhole w interrupt t ∧ t.comm.reader.journals.length = 1) ∧
      Told t) _ ?_ fun _ => ⟨⟨.start start, one⟩, start.told⟩
  · exact fun t member => (alone t member).2
  · rintro t t' step ⟨⟨reached, one⟩, told⟩
    obtain ⟨known, seen, inv⟩ := reached.inv
    have journals := step_journals inv step.1
    have still : t'.comm.reader.journals.length = 1 := by
      have lengths := congrArg List.length journals
      simpa [one] using lengths
    refine ⟨⟨.step reached step, still⟩,
      (told_step inv step.1 told).mpr fun key event passing _ => ?_⟩
    have reads := inv.reads
    rw [passing] at reads
    obtain ⟨⟨k, current, _⟩, joined, _⟩ := reads
    obtain ⟨entry, only⟩ := List.length_eq_one_iff.mp one
    have here := inv.engine.current k current
    change k ∈ t.comm.reader.journals.map Prod.fst at here
    rw [only, List.map_singleton, List.mem_singleton] at here joined
    rw [current, here, joined]

omit [DecidableEq ι] in
theorem inspect_front {store : FileStore} {key : UInt64} {j : Journal} {passed rest : List Frame}
    {f : Frame} {size : Nat}
    (facing : Journal.Facing (store key) j passed (f :: rest)) (page : j.page = some ⟨1, size⟩)
    {minTime : Int64} (due : f.genTime ≤ minTime) (current : Option UInt64) :
    Reader.inspect store (key, j) minTime current = .ok (f.genTime, some key) := by
  have data := facing.hasData page
  have time := (facing.holds page).genTime
  simp only [Reader.inspect, page]
  rw [data, time, if_pos ⟨rfl, due⟩]

/-- A journal with one marked frame of time 5. -/
def marked : JournalFiles :=
  (JournalFiles.fresh.addPage 1 (findPageSize Writer.simAccount)).store 1
    (EventEngine.oneJournal.stores 1 (.mark 3 101 4 5) [])

def mark : Frame := EventEngine.oneJournal.frame 1 (.mark 3 101 4 5)

theorem marked_stored :
    PageUnit.Stored (findPageSize Writer.simAccount) (marked.bytes 1) [mark] := by
  have admissible : (WriteOp.mark 3 101 4 5).Admissible Writer.simAccount :=
    ⟨by simp [WriteOp.frame, WriteOp.content, pageEndTag], by
      simp [WriteOp.frame, WriteOp.content, findPageSize, Writer.simAccount,
        JLocation.make, mebibyte]⟩
  have stored :=
    WriteOp.stores_stored admissible Writer.simAccount.uid 7 (PageUnit.initial_stored _)
  rw [marked, JournalFiles.store_bytes_same, JournalFiles.addPage_bytes_same]
  exact stored

def cursor : Journal :=
  { Journal.make Writer.simAccount 7 false false 0 with
    page := some ⟨1, findPageSize Writer.simAccount⟩
    frame := 24 }

theorem cursor_facing : Journal.Facing marked cursor [] [mark] :=
  ⟨⟨_, rfl, marked_stored.shows⟩, rfl, by decide⟩

/-- Each journal has its frame, and it has been posted. -/
def posted (files : JournalFiles) (f : Frame) : EventEngine Unit :=
  { EventEngine.opened with
    store := fun _ => files
    signalled := fun _ => true
    live := true
    time := 5
    published := fun _ => [f] }

/-- The second journal has been joined before its frame. -/
def once (files : JournalFiles) (f : Frame) : EventEngine Unit :=
  { posted files f with
    reader := ⟨false, none, [(2, cursor)]⟩
    skipped := Function.update (fun _ => []) 2 []
    passed := Function.update (fun _ => []) 2 []
    delivered := Function.update (fun _ => []) 2 [] }

def pair (current : Option UInt64) : Reader := ⟨false, current, [(1, cursor), (2, cursor)]⟩

/-- Both have been joined. -/
def twice (files : JournalFiles) (f : Frame) : EventEngine Unit :=
  { once files f with
    reader := pair none
    skipped := Function.update (once files f).skipped 1 []
    passed := Function.update (once files f).passed 1 []
    delivered := Function.update (once files f).delivered 1 [] }

def both (files : JournalFiles) (f : Frame) : CoreAgent Unit :=
  ⟨twice files f, .testing, .outside, 0⟩

theorem both_start {files : JournalFiles} {f : Frame}
    (stored : PageUnit.Stored (findPageSize Writer.simAccount) (files.bytes 1) [f])
    (typed : 0 < f.msgType) (due : f.genTime ≤ 5) :
      Start EventEngine.oneJournal (both files f) where
  joined := by
    have opened : EventEngine.Start EventEngine.oneJournal (posted files f) :=
      { stored := fun _ => stored
        due := fun key g member => by
          obtain rfl := List.mem_singleton.mp member
          exact ⟨typed, due⟩
        outside := fun _ => rfl, posted := fun _ _ _ _ => rfl, journals := rfl
        current := rfl, stage := rfl }
    have first : EventEngine.EngineStep EventEngine.oneJournal (posted files f) (once files f) :=
      .joins rfl (by simp [posted, EventEngine.opened, Reader.make])
        (.refl _) rfl rfl List.nil_prefix nofun
    have second : EventEngine.EngineStep EventEngine.oneJournal (once files f) (twice files f) :=
      .joins rfl (by simp [once]) (.refl _) rfl rfl List.nil_prefix nofun
    exact .engine (.engine (.start opened) first) second
  stage := rfl
  live := rfl
  listening := rfl
  reading := rfl

/-- The event loop handles the frame of the second journal, the other thread looks at the first
one, and `next` passes the frame of that one, which has not been handled. -/
theorem both_lost {files : JournalFiles} {f : Frame} (facing : Journal.Facing files cursor [] [f])
    (due : f.genTime ≤ 5) :
    ∃ t, Relation.ReflTransGen (WholeStep EventEngine.oneJournal (some 4)) (both files f) t ∧
      ¬ Told t := by
  have look (key : UInt64) {minTime : Int64} (due : f.genTime ≤ minTime) (current : Option UInt64) :
      Reader.inspect (fun _ => files) (key, cursor) minTime current = .ok (f.genTime, some key) :=
    inspect_front facing rfl due current
  have same : f.genTime ≤ f.genTime := Int64.le_refl _
  let Leads := Relation.ReflTransGen (WholeStep EventEngine.oneJournal (some 4)) (both files f)
  have listens {t t' : CoreAgent Unit} (leads : Leads t)
      (step : ListenStep EventEngine.oneJournal (some 4) t t')
      (passed : t'.comm.passed = t.comm.passed) : Leads t' :=
    leads.tail ⟨.listen step, fun key _ => congrFun passed key⟩
  have reads {t t' : CoreAgent Unit} (leads : Leads t) (step : ReadStep (some 4) t t')
      (passed : t'.comm.passed = t.comm.passed) : Leads t' :=
    leads.tail ⟨.read step, fun key _ => congrFun passed key⟩
  have page : cursor.page = some ⟨1, findPageSize Writer.simAccount⟩ := rfl
  have data := facing.hasData page
  have time := (facing.holds page).genTime
  have looks {t : CoreAgent Unit} (leads : Leads t) {key : UInt64} {rest : List UInt64}
      {minTime : Int64} (stage : t.listening = .sorting (key :: rest) minTime)
      (here : frameAt t.comm key = some (files.bytes 1, cursor.frame)) (due : f.genTime ≤ minTime) :
      Leads { t with
        comm := CoreAgent.look t.comm (some key)
        listening := .sorting rest f.genTime } := by
    have steps := leads.trans (looks_front stage here data (time.symm ▸ due))
    rwa [time] at steps
  have begun : Leads (both files f) := .refl
  have tested : Leads ⟨twice files f, .waiting, .outside, 0⟩ := listens begun (.tests rfl) rfl
  have woken : Leads ⟨twice files f, .sorting [1, 2] 5, .outside, 0⟩ :=
    listens (listens tested (.wakes rfl (.inl rfl) rfl fun _ signal => signal) rfl) (.calls rfl) rfl
  have second := looks (looks woken rfl rfl due) rfl rfl same
  have emitting : Leads ⟨CoreAgent.look (twice files f) (some 2), .emitting, .outside, 0⟩ :=
    listens second (.sorts rfl) rfl
  -- The thread that listens has been woken again, and is about to sort.
  have again : Leads ⟨CoreAgent.look (twice files f) (some 2), .sorting [1, 2] 5, .outside, 1⟩ :=
    listens (listens (listens (listens emitting (.emits rfl) rfl) (.tests rfl) rfl)
      (.wakes rfl (.inl rfl) rfl fun _ signal => signal) rfl) (.calls rfl) rfl
  have received :
      Leads ⟨CoreAgent.look (twice files f) (some 2), .sorting [1, 2] 5,
      .sorting .available [1, 2] 5, 0⟩ :=
    reads (reads again (.receives rfl rfl) rfl) (.calls rfl) rfl
  have sorted :=
    reads (reads (reads received (.inspects rfl rfl (look 1 due _)) rfl)
      (.inspects rfl rfl (look 2 same _)) rfl)
    (.sorts rfl) rfl
  have front {key : UInt64} (joined : (pair (some key)).find key = some cursor) :
      Reader.currentFrame (pair (some key), fun _ => files) =
        .ok (files.bytes 1, cursor.frame) (pair (some key), fun _ => files) := by
    have current : (pair (some key)).current = some key := rfl
    simp [Reader.currentFrame, current, joined, page]
  have handling :
      Leads ⟨CoreAgent.look (twice files f) (some 2), .sorting [1, 2] 5, .handling, 0⟩ :=
    reads (reads sorted (.finds rfl (front rfl) data) rfl) (.tests rfl) rfl
  have handled := reads handling (.handles rfl rfl (front rfl)) rfl
  have looked := looks handled rfl rfl due
  obtain ⟨j, moved, _⟩ := facing.next
  have next : Reader.onJournal 1 Journal.next (pair (some 1), fun _ => files) =
      .ok () ((pair (some 1)).replace 1 j, Function.update (fun _ => files) 1 files) := by
    have found : (pair (some 1)).find 1 = some cursor := rfl
    simp only [Reader.onJournal, found, moved]
  -- It has looked at the first journal when `next` moves it.
  have passed := looked.tail
    ⟨.read (.passes rfl rfl (front rfl) next), fun key member =>
      absurd member (Option.not_mem_none key)⟩
  refine ⟨_, passed, fun told => ?_⟩
  have one := told 1 (by simp [Reader.replace, pair])
  simp [CoreAgent.look, twice, once, EventLoop.inFlight] at one

theorem told_iff_lost :
    ∃ states, List.IsChain (WholeStep EventEngine.oneJournal (some 4))
      (both marked mark :: states) ∧
    ¬ List.IsChain Undisturbed (both marked mark :: states) := by
  have typed : 0 < mark.msgType := by decide
  have due : mark.genTime ≤ 5 := by decide
  obtain ⟨t, leads, lost⟩ := both_lost cursor_facing due
  obtain ⟨states, run, last⟩ := List.exists_isChain_cons_of_relationReflTransGen leads
  have exactly := told_iff (both_start marked_stored typed due) states run
  refine ⟨states, run, fun undisturbed => lost ?_⟩
  rw [← last]
  exact exactly.1.mpr undisturbed _ (List.getLast_mem _)

end CoreAgent
end BTrader
