import BTrader.Core.Types
import BTrader.Lib.Runs

/-! The mutex between the thread that starts and stops the simulated broker and its matching
thread. What a matching round does under the mutex is left out. -/
namespace BTrader

inductive BrokerCall where
  | start | stop
  deriving DecidableEq, Repr

inductive BrokerThread where
  | caller | matcher
  deriving DecidableEq, Repr

/-- How far the caller is in a call: before the lock, under the lock, after the change of
`running`, and before the unlock. -/
inductive CallerAt where
  | outside | entered | changed | leaving
  deriving DecidableEq, Repr

/-- Where the matching thread is in its loop, when there is one. -/
inductive MatcherAt where
  | absent | testing | locking | matching | unlocking | sleeping | ended
  deriving DecidableEq, Repr

/-- `calls` begins with the one that the caller is in or comes to. -/
structure BrokerThreads where
  running : Bool
  state : BrokerState
  isBacktest : Bool
  mutex : Option BrokerThread
  calls : List BrokerCall
  caller : CallerAt
  matcher : MatcherAt
  deriving DecidableEq, Repr

namespace BrokerThreads

/-- A broker before its first call. -/
def init (isBacktest : Bool) (calls : List BrokerCall) : BrokerThreads :=
  ⟨false, .disConnected, isBacktest, none, calls, .outside, .absent⟩

/-- Without a mutex or a thread to join, the caller waits. -/
def callerStep (s : BrokerThreads) : BrokerCall → Option BrokerThreads
  | .start =>
    match s.caller with
    | .outside => if s.mutex = none then some { s with mutex := some .caller, caller := .entered }
        else none
    | .entered =>
      if s.running then some { s with caller := .leaving }
      else some { s with running := true, state := .ready, caller := .changed }
    | .changed =>
      some { s with matcher := if s.isBacktest then s.matcher else .testing, caller := .leaving }
    | .leaving => some { s with mutex := none, calls := s.calls.tail, caller := .outside }
  | .stop =>
    match s.caller with
    | .outside => if s.mutex = none then some { s with mutex := some .caller, caller := .entered }
        else none
    | .entered =>
      if s.running then some { s with running := false, state := .disConnected, caller := .changed }
      else some { s with caller := .leaving }
    | .changed =>
      -- Only a thread that was started is joinable, and `join` returns when it has ended.
      if s.matcher = .absent then some { s with caller := .leaving }
      else if s.matcher = .ended then some { s with matcher := .absent, caller := .leaving }
      else none
    | .leaving => some { s with mutex := none, calls := s.calls.tail, caller := .outside }

def matcherStep (s : BrokerThreads) : Option BrokerThreads :=
  match s.matcher with
  | .absent => none
  | .testing => some { s with matcher := if s.running then .locking else .ended }
  | .locking => if s.mutex = none then some { s with mutex := some .matcher, matcher := .matching }
      else none
  | .matching => some { s with matcher := .unlocking }
  | .unlocking => some { s with mutex := none, matcher := .sleeping }
  | .sleeping => some { s with matcher := .testing }
  | .ended => none

def step (s : BrokerThreads) : BrokerThread → Option BrokerThreads
  | .caller => s.calls.head?.bind s.callerStep
  | .matcher => s.matcherStep

/-- The turn of a thread that waits changes nothing. -/
def act (s : BrokerThreads) (thread : BrokerThread) : BrokerThreads := (s.step thread).getD s

/-- The caller waits in `stop` for the end of the matching thread. -/
def Joining (s : BrokerThreads) : Prop :=
  s.calls.head? = some .stop ∧ s.caller = .changed ∧ s.matcher ≠ .absent ∧ s.matcher ≠ .ended

/-- The caller waits for the matching thread, and that for the mutex. -/
def Deadlocked (s : BrokerThreads) : Prop := s.Joining ∧ s.matcher = .locking ∧ s.mutex ≠ none

instance (s : BrokerThreads) : Decidable s.Joining := inferInstanceAs (Decidable (_ ∧ _))

instance (s : BrokerThreads) : Decidable s.Deadlocked := inferInstanceAs (Decidable (_ ∧ _))

/-- A `stop` is about to change `running`. -/
def Stopping (s : BrokerThreads) : Prop :=
  s.calls.head? = some .stop ∧ s.caller = .entered ∧ s.running = true

/-- The turn does not change `running` in a `stop` while the matching thread, which has tested
it, waits for the mutex. -/
def Clear (s : BrokerThreads) (thread : BrokerThread) : Prop :=
  thread = .caller → s.Stopping → s.matcher ≠ .locking

variable {s : BrokerThreads} {thread : BrokerThread}

/-- Who is under the mutex holds it, and a `stop` that has changed `running` has cleared it. -/
structure Sound (s : BrokerThreads) : Prop where
  caller : s.caller ≠ .outside → s.mutex = some .caller
  matcher : s.matcher = .matching ∨ s.matcher = .unlocking → s.mutex = some .matcher
  cleared : s.calls.head? = some .stop → s.caller = .changed → s.running = false

theorem init_sound (isBacktest : Bool) (calls : List BrokerCall) :
    (init isBacktest calls).Sound := by
  constructor <;> simp [init]

/-- What a turn of the caller does. -/
inductive CallerStep (s t : BrokerThreads) : Prop where
  | waits (other : ¬ s.Stopping) (same : t = s)
  | locks (other : ¬ s.Stopping) (free : s.mutex = none)
      (after : t = { s with mutex := some .caller, caller := .entered })
  | starts (call : s.calls.head? = some .start) (inside : s.caller = .entered)
      (after : t = { s with running := true, state := .ready, caller := .changed })
  | stops (stopping : s.Stopping)
      (after : t = { s with running := false, state := .disConnected, caller := .changed })
  | finishes (other : ¬ s.Stopping) (inside : s.caller ≠ .outside) (matcher : MatcherAt)
      (threads : matcher = s.matcher ∨ matcher = .testing ∨ matcher = .absent)
      (after : t = { s with matcher := matcher, caller := .leaving })
  | unlocks (inside : s.caller = .leaving)
      (after : t = { s with mutex := none, calls := s.calls.tail, caller := .outside })

theorem callerStep_start (s : BrokerThreads) (call : s.calls.head? = some .start) :
    CallerStep s ((s.callerStep .start).getD s) := by
  have other : ¬ s.Stopping := by simp [Stopping, call]
  cases place : s.caller with
  | outside =>
    by_cases free : s.mutex = none
    · exact .locks other free (by simp [callerStep, place, free])
    · exact .waits other (by simp [callerStep, place, free])
  | entered =>
    cases running : s.running with
    | true =>
      exact .finishes other (by simp [place]) s.matcher (.inl rfl)
        (by simp [callerStep, place, running])
    | false => exact .starts call place (by simp [callerStep, place, running])
  | changed =>
    refine .finishes other (by simp [place]) (if s.isBacktest then s.matcher else .testing) ?_
      (by simp [callerStep, place])
    split
    · exact .inl rfl
    · exact .inr (.inl rfl)
  | leaving => exact .unlocks place (by simp [callerStep, place])

theorem callerStep_stop (s : BrokerThreads) (call : s.calls.head? = some .stop) :
    CallerStep s ((s.callerStep .stop).getD s) := by
  cases place : s.caller with
  | outside =>
    have other : ¬ s.Stopping := by simp [Stopping, place]
    by_cases free : s.mutex = none
    · exact .locks other free (by simp [callerStep, place, free])
    · exact .waits other (by simp [callerStep, place, free])
  | entered =>
    cases running : s.running with
    | true => exact .stops ⟨call, place, running⟩ (by simp [callerStep, place, running])
    | false =>
      have other : ¬ s.Stopping := by simp [Stopping, running]
      exact .finishes other (by simp [place]) s.matcher (.inl rfl)
        (by simp [callerStep, place, running])
  | changed =>
    have other : ¬ s.Stopping := by simp [Stopping, place]
    by_cases none : s.matcher = .absent
    · exact .finishes other (by simp [place]) s.matcher (.inl rfl)
        (by simp [callerStep, place, none])
    · by_cases done : s.matcher = .ended
      · exact .finishes other (by simp [place]) .absent (.inr (.inr rfl))
          (by simp [callerStep, place, done])
      · exact .waits other (by simp [callerStep, place, none, done])
  | leaving => exact .unlocks place (by simp [callerStep, place])

theorem act_caller (s : BrokerThreads) : CallerStep s (s.act .caller) := by
  cases call : s.calls.head? with
  | none => exact .waits (by simp [Stopping, call]) (by simp [act, step, call])
  | some first =>
    have turn : s.act .caller = (s.callerStep first).getD s := by simp [act, step, call]
    rw [turn]
    cases first with
    | start => exact s.callerStep_start call
    | stop => exact s.callerStep_stop call

/-- What a turn of the matching thread does. -/
inductive MatcherStep (s t : BrokerThreads) : Prop where
  | waits (same : t = s)
  | goes (matcher : MatcherAt) (running : matcher = .locking → s.running = true)
      (outside : matcher = .matching ∨ matcher = .unlocking → s.matcher = .matching ∨
        s.matcher = .unlocking)
      (after : t = { s with matcher := matcher })
  | locks (free : s.mutex = none)
      (after : t = { s with mutex := some .matcher, matcher := .matching })
  | unlocks (inside : s.matcher = .unlocking)
      (after : t = { s with mutex := none, matcher := .sleeping })

theorem act_matcher (s : BrokerThreads) : MatcherStep s (s.act .matcher) := by
  have turn : s.act .matcher = s.matcherStep.getD s := rfl
  rw [turn]
  cases place : s.matcher with
  | absent => exact .waits (by simp [matcherStep, place])
  | testing =>
    refine .goes (if s.running then .locking else .ended) ?_ ?_ (by simp [matcherStep, place])
    all_goals split <;> simp_all
  | locking =>
    by_cases free : s.mutex = none
    · exact .locks free (by simp [matcherStep, place, free])
    · exact .waits (by simp [matcherStep, place, free])
  | matching => exact .goes .unlocking (by simp) (by simp [place]) (by simp [matcherStep, place])
  | unlocking => exact .unlocks place (by simp [matcherStep, place])
  | sleeping => exact .goes .testing (by simp) (by simp) (by simp [matcherStep, place])
  | ended => exact .waits (by simp [matcherStep, place])

theorem act_sound (sound : s.Sound) (thread : BrokerThread) : (s.act thread).Sound := by
  obtain ⟨holds, matches_, cleared⟩ := sound
  cases thread with
  | caller =>
    cases s.act_caller with
    | waits other same =>
      rw [same]
      exact ⟨holds, matches_, cleared⟩
    | locks other free after =>
      rw [after]
      refine ⟨fun _ => rfl, fun inside => ?_, by simp⟩
      rw [free] at matches_
      exact absurd (matches_ inside) (by simp)
    | starts call inside after =>
      rw [after]
      exact ⟨fun _ => holds (by simp [inside]), matches_, by simp [call]⟩
    | stops stopping after =>
      rw [after]
      exact ⟨fun _ => holds (by simp [stopping.2.1]), matches_, fun _ _ => rfl⟩
    | finishes other inside matcher threads after =>
      rw [after]
      refine ⟨fun _ => holds inside, fun under => matches_ ?_, by simp⟩
      rcases threads with rfl | rfl | rfl
      · exact under
      · simp at under
      · simp at under
    | unlocks inside after =>
      rw [after]
      refine ⟨by simp, fun under => ?_, by simp⟩
      have held := holds (by simp [inside])
      rw [matches_ under] at held
      contradiction
  | matcher =>
    cases s.act_matcher with
    | waits same =>
      rw [same]
      exact ⟨holds, matches_, cleared⟩
    | goes matcher running outside after =>
      rw [after]
      exact ⟨holds, fun under => matches_ (outside under), cleared⟩
    | locks free after =>
      rw [after]
      refine ⟨fun inside => ?_, fun _ => rfl, cleared⟩
      rw [free] at holds
      exact absurd (holds inside) (by simp)
    | unlocks inside after =>
      rw [after]
      refine ⟨fun within => ?_, by simp, cleared⟩
      have held := holds within
      rw [matches_ (.inr inside)] at held
      contradiction

/-- A deadlock comes about just by the turn that is not clear. -/
theorem act_deadlocked (sound : s.Sound) (fine : ¬ s.Deadlocked) :
    ¬ (s.act thread).Deadlocked ↔ s.Clear thread := by
  cases thread with
  | caller =>
    have clear (other : ¬ s.Stopping) : s.Clear .caller := fun _ stopping => absurd stopping other
    cases s.act_caller with
    | waits other same =>
      rw [same]
      exact iff_of_true fine (clear other)
    | locks other free after =>
      rw [after]
      exact iff_of_true (by simp [Deadlocked, Joining]) (clear other)
    | starts call inside after =>
      rw [after]
      exact iff_of_true (by simp [Deadlocked, Joining, call]) (clear (by simp [Stopping, call]))
    | stops stopping after =>
      have held : s.mutex = some .caller := sound.caller (by simp [stopping.2.1])
      rw [after]
      constructor
      · intro unlocked _ _ waits
        exact unlocked ⟨⟨stopping.1, rfl, by simp [waits], by simp [waits]⟩, waits, by simp [held]⟩
      · intro clear locked
        exact clear rfl stopping locked.2.1
    | finishes other inside matcher threads after =>
      rw [after]
      exact iff_of_true (by simp [Deadlocked, Joining]) (clear other)
    | unlocks inside after =>
      rw [after]
      exact iff_of_true (by simp [Deadlocked, Joining]) (clear (by simp [Stopping, inside]))
  | matcher =>
    refine iff_of_true ?_ fun isCaller => absurd isCaller (by simp)
    cases s.act_matcher with
    | waits same =>
      rw [same]
      exact fine
    | goes matcher running outside after =>
      rw [after]
      rintro ⟨⟨stopping, joins, _⟩, waits, _⟩
      -- A joining `stop` has cleared `running`, and the thread waits for the mutex only after it
      -- was set.
      have stopped := sound.cleared stopping joins
      rw [running waits] at stopped
      contradiction
    | locks free after =>
      rw [after]
      simp [Deadlocked]
    | unlocks inside after =>
      rw [after]
      simp [Deadlocked]

/-- No state of a run is a deadlock if and only if no `stop` clears `running` while the
matching thread is between its test and the lock. -/
theorem no_deadlock_iff (isBacktest : Bool) (calls : List BrokerCall)
    (schedule : List BrokerThread) :
    (∀ s ∈ Runs.states act (init isBacktest calls) schedule, ¬ s.Deadlocked) ↔
      ∀ move ∈ Runs.moves act (init isBacktest calls) schedule, move.1.Clear move.2 := by
  have kept (s : BrokerThreads) (thread : BrokerThread) (sound : s.Sound) (_ : True) :
      (s.act thread).Sound :=
    act_sound sound thread
  have survives (s : BrokerThreads) (thread : BrokerThread) (sound : s.Sound) (_ : True)
      (fine : ¬ s.Deadlocked) :
      ¬ (s.act thread).Deadlocked ↔ s.Clear thread := act_deadlocked sound fine
  have first : ¬ (init isBacktest calls).Deadlocked := by simp [Deadlocked, init]
  exact Runs.states_iff kept survives (init_sound isBacktest calls) first schedule fun _ _ =>
    trivial

/-- The broker is started, its thread tests `running`, and the broker is stopped. -/
def stoppedLate : List BrokerThread :=
  [.caller, .caller, .caller, .caller, .matcher, .caller, .caller]

theorem stop_deadlocks :
    ¬ ∀ s ∈ Runs.states act (init false [.start, .stop]) stoppedLate, ¬ s.Deadlocked := by
  decide +kernel

end BrokerThreads
end BTrader
