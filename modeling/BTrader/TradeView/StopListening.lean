import BTrader.Journal.WriterStates
import BTrader.TradeView.CoreAgent

/-! `StopListening` posts to the thread that listens and waits for its end. It relies on the
status and on the descriptor of the post alone, not on what the looks of that thread come across.
-/
namespace BTrader
open ByteMemory Infra Procedure

namespace Journal

/-- A page is mapped. -/
def Mapped (s : Journal × JournalFiles) : Prop := s.1.page ≠ none

/-- The page stays mapped until another one is. -/
theorem keeps_mapped_loadPage (pageId : Nat) : Keeps Mapped (loadPage pageId) := by
  refine keeps_bind keeps_get fun ⟨j, files⟩ => ?_
  simp only
  split
  · refine keeps_bind ?_ fun page => keeps_bind (keeps_modify ?_) fun _ =>
      keeps_modify fun _ mapped => mapped
    · exact keeps_onSnd (P := fun j : Journal => j.page ≠ none) _
    · simp [Mapped]
  · exact keeps_modify fun _ mapped => mapped

theorem keeps_mapped_reinitializePage : Keeps Mapped reinitializePage := by
  refine keeps_bind keeps_currentPage fun page => keeps_bind ?_ fun _ =>
    keeps_modify fun _ mapped => mapped
  exact keeps_bind keeps_currentPage fun page => keeps_modify fun _ mapped => mapped

theorem keeps_mapped_loadNextPage : Keeps Mapped loadNextPage := by
  refine keeps_bind keeps_get fun ⟨j, files⟩ => keeps_bind keeps_currentPage fun page => ?_
  split
  · refine keeps_bind (keeps_mapped_loadPage _) fun _ => ?_
    exact keeps_branch _ keeps_mapped_reinitializePage (keeps_pure _)
  · refine keeps_bind (keeps_mapped_loadPage _) fun _ => ?_
    exact keeps_branch _ keeps_mapped_reinitializePage (keeps_pure _)

theorem keeps_mapped_next : Keeps Mapped next := by
  rintro ⟨j, files⟩ mapped
  obtain ⟨page, here⟩ := Option.ne_none_iff_exists'.mp mapped
  have here : j.page = some page := here
  by_cases last : FrameUnit.msgType (files.bytes page.pageId) j.frame = pageEndTag
  · have ran : next (j, files) = loadNextPage (j, files) := by simp [next, here, last]
    rw [after_congr ran]
    exact keeps_mapped_loadNextPage _ mapped
  · have moved : (after next (j, files)).1.page = j.page := by simp [after, next, here, last]
    rw [Mapped, moved]
    exact mapped

end Journal

namespace CoreAgent

variable {ι : Type} [DecidableEq ι] {w : Wiring ι} {interrupt : Option Nat} {s s' : CoreAgent ι}

/-- The steps that the thread which listens has left once the status is negative. -/
def left (s : CoreAgent ι) : Nat :=
  match s.listening with
  | .ended => 0
  | .testing => 1
  | .emitting => 2
  | .sorting rest _ => 3 + 4 * rest.length
  | .choosing _ rest _ => 4 + 4 * rest.length
  | .lowering _ rest _ => 5 + 4 * rest.length
  | .looking _ rest _ => 6 + 4 * rest.length
  | .calling => 4 + 4 * s.comm.reader.journals.length
  | .waiting => 5 + 4 * s.comm.reader.journals.length

omit [DecidableEq ι] in
theorem listen_left (status : s.comm.live = false) (step : ListenStep w interrupt s s') :
    left s' < left s := by
  cases step with
  | tests stage => simp [left, stage, status]
  | wakes stage watched signal fewer => simp [left, stage]
  | calls stage => simp [left, stage]
  | sees stage here =>
    simp only [left, stage, List.length_cons]
    split <;> rename_i next <;> split at next <;> cases next <;> omega
  | compares stage here =>
    simp only [left, stage]
    split <;> rename_i next <;> split at next <;> cases next <;> omega
  | lowers stage here => simp [left, stage]
  | chooses stage => simp [left, stage]
  | sorts stage => simp [left, stage]
  | emits stage => simp [left, stage]

/-- What `StopListening` relies on, whatever the looks of the thread that listens come across. -/
structure Stops (interrupt : Option Nat) (s : CoreAgent ι) : Prop where
  status : s.reading = .interrupting ∨ s.reading = .joining → s.comm.live = false
  alarm : ∀ fd ∈ interrupt, s.reading = .joining → s.listening = .waiting →
    s.comm.signalled fd = true
  inside : ∀ key ∈ s.listening.ahead, key ∈ s.comm.reader.journals.map Prod.fst
  mapped : ∀ entry ∈ s.comm.reader.journals, entry.2.page ≠ none

namespace Stops

theorem start (start : Start w s) : Stops interrupt s where
  status := by simp [start.reading]
  alarm := by simp [start.reading]
  inside := by simp [start.listening, Listening.ahead]
  mapped entry member := by
    obtain ⟨known, inv⟩ := start.joined.inv
    simp [(inv.cursors entry member).1]

theorem writer (stops : Stops interrupt s) {comm : EventEngine ι}
    (step : EventEngine.WriterStep w s.comm comm)
    (status : comm.live = s.comm.live) : Stops interrupt { s with comm := comm } := by
  have reader : comm.reader = s.comm.reader := by cases step <;> rfl
  refine ⟨fun stopping => status.trans (stops.status stopping),
    fun fd own joining waiting => ?_, ?_, ?_⟩
  · exact writer_signal step (stops.alarm fd own joining waiting)
  · simpa only [reader] using stops.inside
  · simpa only [reader] using stops.mapped

omit [DecidableEq ι] in
theorem listen (stops : Stops interrupt s) (step : ListenStep w interrupt s s') :
    Stops interrupt s' := by
  have inside := stops.inside
  cases step with
  | tests stage =>
    refine ⟨stops.status, fun fd own joining waiting => ?_, ?_, stops.mapped⟩
    · have stopped : s.comm.live = false := stops.status (.inr joining)
      simp [stopped] at waiting
    · cases s.comm.live <;> simp [Listening.ahead]
  | wakes stage watched signal fewer =>
    exact ⟨stops.status, by simp, by simp [Listening.ahead], stops.mapped⟩
  | calls stage => exact ⟨stops.status, by simp, fun key ahead => ahead, stops.mapped⟩
  | sees stage here =>
    rw [stage] at inside
    split
    · exact ⟨stops.status, by simp, inside, stops.mapped⟩
    · exact ⟨stops.status, by simp, fun k later => inside k (List.mem_cons_of_mem _ later),
        stops.mapped⟩
  | compares stage here =>
    rw [stage] at inside
    split
    · exact ⟨stops.status, by simp, inside, stops.mapped⟩
    · exact ⟨stops.status, by simp, fun k later => inside k (List.mem_cons_of_mem _ later),
        stops.mapped⟩
  | lowers stage here =>
    rw [stage] at inside
    exact ⟨stops.status, by simp, inside, stops.mapped⟩
  | chooses stage =>
    rw [stage] at inside
    exact ⟨stops.status, by simp, fun k later => inside k (List.mem_cons_of_mem _ later),
      stops.mapped⟩
  | sorts stage => exact ⟨stops.status, by simp, by simp [Listening.ahead], stops.mapped⟩
  | emits stage => exact ⟨stops.status, by simp, by simp [Listening.ahead], stops.mapped⟩

theorem onJournal_mapped {key : UInt64} {r r' : Reader} {store store' : FileStore}
    (mapped : ∀ entry ∈ r.journals, entry.2.page ≠ none)
    (ran : Reader.onJournal key Journal.next (r, store) = .ok () (r', store')) :
    ∀ entry ∈ r'.journals, entry.2.page ≠ none := by
  simp only [Reader.onJournal] at ran
  split at ran
  · contradiction
  · rename_i j found
    have page : Journal.Mapped (j, store key) := mapped _ (find_mem found)
    split at ran
    · rename_i j' files next
      obtain ⟨rfl, rfl⟩ := Prod.mk.inj (EStateM.Result.ok.inj ran).2
      have page' := Journal.keeps_mapped_next.ok page next
      intro entry member
      obtain ⟨old, inside, rfl⟩ := List.mem_map.mp member
      split
      · exact page'
      · exact mapped old inside
    · contradiction

omit [DecidableEq ι] in
theorem read (stops : Stops interrupt s) (step : ReadStep interrupt s s') : Stops interrupt s' := by
  cases step with
  | interrupts stage =>
    refine ⟨fun _ => stops.status (.inl stage), fun fd own _ _ => ?_, stops.inside, stops.mapped⟩
    obtain rfl := Option.mem_def.mp own
    simp [interruptPost]
  | terminates stage => exact ⟨fun _ => rfl, by simp, stops.inside, stops.mapped⟩
  | joins stage ended => exact ⟨by simp, by simp, stops.inside, stops.mapped⟩
  | @passes handled key event m frame r store stage current ran next =>
    have keys := (Reader.onJournal_rest key Journal.next (s.comm.reader, s.comm.store)).1
    rw [Procedure.after, next] at keys
    refine ⟨by simp, by simp, fun k ahead => ?_, onJournal_mapped stops.mapped next⟩
    exact keys ▸ stops.inside k ahead
  | receives stage some => exact ⟨by simp, by simp, stops.inside, stops.mapped⟩
  | calls stage => exact ⟨by simp, by simp, stops.inside, stops.mapped⟩
  | inspects stage here ran => exact ⟨by simp, by simp, stops.inside, stops.mapped⟩
  | @sorts call minTime stage =>
    exact ⟨by cases call <;> simp [ReadCall.after], by cases call <;> simp [ReadCall.after],
      stops.inside, stops.mapped⟩
  | finds stage ran data => exact ⟨by simp, by simp, stops.inside, stops.mapped⟩
  | misses stage none => exact ⟨by simp, by simp, stops.inside, stops.mapped⟩
  | tests stage =>
    refine ⟨?_, ?_, stops.inside, stops.mapped⟩
    · cases s.comm.live <;> simp
    · cases s.comm.live <;> simp
  | handles stage current ran => exact ⟨by simp, by simp, stops.inside, stops.mapped⟩

end Stops

theorem Reachable.stops (reached : Reachable w interrupt s) : Stops interrupt s := by
  induction reached with
  | start start => exact .start start
  | step before step stops =>
    cases step with
    | writer step status => exact stops.writer step status
    | listen step => exact stops.listen step
    | read step => exact stops.read step

/-- Nothing can end the wait: `post` has no descriptor, and none of a journal is signalled. -/
structure Hung (w : Wiring ι) (interrupt : Option Nat) (s : CoreAgent ι) : Prop where
  unmade : interrupt = none
  waiting : s.listening = .waiting
  silent : ∀ key ∈ s.comm.reader.journals.map Prod.fst, ∀ fd, w.fds key = some fd →
    s.comm.signalled fd = false

omit [DecidableEq ι] in
theorem Stops.frameAt (stops : Stops interrupt s) {key : UInt64}
    (joined : key ∈ s.comm.reader.journals.map Prod.fst) :
    ∃ m frame, frameAt s.comm key = some (m, frame) := by
  obtain ⟨j, found⟩ : ∃ j, s.comm.reader.find key = some j := by
    by_contra none
    exact Reader.find_eq_none_iff.mp
      (Option.eq_none_iff_forall_ne_some.mpr (not_exists.mp none)) joined
  obtain ⟨page, here⟩ := Option.ne_none_iff_exists'.mp (stops.mapped _ (find_mem found))
  have here : j.page = some page := here
  refine ⟨(s.comm.store key).bytes page.pageId, j.frame, ?_⟩
  simp only [CoreAgent.frameAt, found, here, Option.map_some, Option.bind_some]

omit [DecidableEq ι] in
theorem Stops.enabled (stops : Stops interrupt s) (joining : s.reading = .joining)
    (running : s.listening ≠ .ended) :
    (∃ s', ListenStep w interrupt s s') ↔ ¬ Hung w interrupt s := by
  constructor
  · rintro ⟨s', step⟩ hung
    have waiting := hung.waiting
    cases step with
    | wakes stage watched signal fewer =>
      rcases watched with own | ⟨key, joined, watches⟩
      · rw [hung.unmade] at own
        contradiction
      · rw [hung.silent key joined _ watches] at signal
        contradiction
    | tests stage | calls stage | sees stage | compares stage | lowers stage | chooses stage
    | sorts stage | emits stage =>
      rw [stage] at waiting
      contradiction
  · intro able
    have frame (key : UInt64) (ahead : key ∈ s.listening.ahead) :=
      stops.frameAt (stops.inside key ahead)
    cases stage : s.listening with
    | testing => exact ⟨_, .tests stage⟩
    | waiting =>
      cases made : interrupt with
      | some fd =>
        exact ⟨_, .wakes stage (.inl rfl) (stops.alarm fd made joining stage) fun _ signal =>
          signal⟩
      | none =>
        by_contra stuck
        refine able ⟨made, stage, fun key joined fd watches => ?_⟩
        cases signal : s.comm.signalled fd with
        | false => rfl
        | true =>
          exact absurd ⟨_, .wakes stage (.inr ⟨key, joined, watches⟩) signal fun _ signal =>
            signal⟩ stuck
    | calling => exact ⟨_, .calls stage⟩
    | sorting rest minTime =>
      cases rest with
      | nil => exact ⟨_, .sorts stage⟩
      | cons key rest =>
        obtain ⟨m, f, here⟩ := frame key (by simp [stage, Listening.ahead])
        exact ⟨_, .sees stage here⟩
    | looking key rest minTime =>
      obtain ⟨m, f, here⟩ := frame key (by simp [stage, Listening.ahead])
      exact ⟨_, .compares stage here⟩
    | lowering key rest minTime =>
      obtain ⟨m, f, here⟩ := frame key (by simp [stage, Listening.ahead])
      exact ⟨_, .lowers stage here⟩
    | choosing key rest minTime => exact ⟨_, .chooses stage⟩
    | emitting => exact ⟨_, .emits stage⟩
    | ended => exact absurd stage running

omit [DecidableEq ι] in
/-- The event loop waits until the thread has ended. -/
theorem read_joining (step : ReadStep interrupt s s') (joining : s.reading = .joining) :
    s.listening = .ended := by
  cases step with
  | joins stage ended => exact ended
  | _ => simp_all

/-- While `StopListening` waits for its thread, that thread is blocked only in a wait that no post
can end; it comes nearer to its end with each of its steps, and no other step takes it away from
it. -/
theorem stop_listening (reached : Reachable w interrupt s) (joining : s.reading = .joining)
    (running : s.listening ≠ .ended) :
    ((∃ s', ListenStep w interrupt s s') ↔ ¬ Hung w interrupt s) ∧
      ∀ s', Step w interrupt s s' → s'.reading = .joining ∧
        (ListenStep w interrupt s s' ∧ left s' < left s ∨ s'.listening = s.listening ∧
          left s' = left s) := by
  have stops := reached.stops
  refine ⟨stops.enabled joining running, fun s' step => ?_⟩
  cases step with
  | @writer comm step same =>
    have reader : comm.reader = s.comm.reader := by cases step <;> rfl
    refine ⟨joining, .inr ⟨rfl, ?_⟩⟩
    unfold left
    rw [reader]
  | listen step =>
    refine ⟨?_, .inl ⟨step, listen_left (stops.status (.inr joining)) step⟩⟩
    cases step <;> exact joining
  | read step => exact absurd (read_joining step joining) running

/-- The thread waits when the event loop posts. -/
def stopping : CoreAgent Unit :=
  { ready with
    comm := { ready.comm with
      live := false
      signalled := Function.update ready.comm.signalled 4 true }
    listening := .waiting
    reading := .joining }

/-- `init` has found no file: nothing has been joined, and no descriptor has been made. -/
def missing : CoreAgent Unit := ⟨{ EventEngine.opened with live := true }, .testing, .outside, 0⟩

theorem missing_start : Start EventEngine.oneJournal missing where
  joined := .start
    { stored := EventEngine.opened_start.stored, due := EventEngine.opened_start.due
      outside := EventEngine.opened_start.outside, posted := EventEngine.opened_start.posted
      journals := rfl, current := rfl, stage := rfl }
  stage := rfl
  live := rfl
  listening := rfl
  reading := rfl

def stuck : CoreAgent Unit :=
  { missing with
    comm := { missing.comm with live := false }
    listening := .waiting
    reading := .joining }

/-- The post ends the wait; without the descriptor nothing does. -/
theorem stop_listening_waiting : (∃ s', ListenStep EventEngine.oneJournal (some 4) stopping s') ∧
    ¬ ∃ s', ListenStep EventEngine.oneJournal none stuck s' := by
  have waiting : Reachable EventEngine.oneJournal (some 4) { ready with listening := .waiting } :=
    .step (.start ready_start) (.listen (.tests rfl))
  have posted : Reachable EventEngine.oneJournal (some 4) stopping :=
    .step (.step waiting (.read (.terminates rfl))) (.read (.interrupts rfl))
  have waiting' : Reachable EventEngine.oneJournal none { missing with listening := .waiting } :=
    .step (.start missing_start) (.listen (.tests rfl))
  have posted' : Reachable EventEngine.oneJournal none stuck :=
    .step (.step waiting' (.read (.terminates rfl))) (.read (.interrupts rfl))
  refine ⟨(stop_listening posted rfl (by simp [stopping])).1.mpr fun hung => ?_, fun able => ?_⟩
  · have unmade := hung.unmade
    contradiction
  · refine (stop_listening posted' rfl (by simp [stuck])).1.mp able ⟨rfl, rfl, fun key joined => ?_⟩
    simp [stuck, missing, EventEngine.opened, Reader.make] at joined

end CoreAgent
end BTrader
