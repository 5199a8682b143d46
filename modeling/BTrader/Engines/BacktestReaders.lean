import BTrader.Engines.SyncToken
import BTrader.Lib.OrderedMerge

/-! The readers in a backtest. `sort` looks at one journal after the other while the other
engines write, and leaves `current_` as it was when it finds no frame; `data_available` then tests
the frame of `current_`. -/
namespace BTrader.Backtest

variable {ι κ : Type} [DecidableEq ι] [DecidableEq κ]

/-- The loop of `sort`: the journals it has not looked at, `min_time`, and, for what is said about
it, the frames that waited when it began. -/
structure SortLoop (ι κ : Type) where
  rest : List (Channel ι κ)
  minTime : Int64
  there : Channel ι κ → List Entry

/-- `sort` is none while nothing has been sorted since the last test. -/
structure Reader (ι κ : Type) where
  current : Option (Channel ι κ)
  sort : Option (SortLoop ι κ)

/-- A backtest with the reader of each engine. -/
structure Readers (ι κ : Type) where
  system : Backtest ι κ
  reader : Engine → Reader ι κ

/-- `journals_`, in the order the map is iterated in. -/
def Setup.journals (setup : Setup ι κ) : Engine → List (Channel ι κ)
  | .cp => setup.cpJournals
  | .md => [.mdReq]
  | .td => setup.tdJournals

def idle (s : Backtest ι κ) : Engine → Prop
  | .cp => s.cp = .idle
  | .md => s.md = .idle
  | .td => s.td = .idle

instance (s : Backtest ι κ) (engine : Engine) : Decidable (s.idle engine) :=
  match engine with
  | .cp => inferInstanceAs (Decidable (s.cp = .idle))
  | .md => inferInstanceAs (Decidable (s.md = .idle))
  | .td => inferInstanceAs (Decidable (s.td = .idle))

def Action.takes : Engine → Channel ι κ → Action ι κ
  | .cp, c => .cpTakes c
  | .md, _ => .mdTakes
  | .td, c => .tdTakes c

def Action.isTake : Action ι κ → Bool
  | .cpTakes _ | .mdTakes | .tdTakes _ => true
  | _ => false

/-- One turn of the loop. -/
def Reader.inspect (reader : Reader ι κ) (s : Backtest ι κ) : Reader ι κ :=
  match reader.sort with
  | some ⟨c :: rest, minTime, there⟩ =>
    match s.waiting c with
    | e :: _ =>
      if e.genTime ≤ minTime then ⟨some c, some ⟨rest, e.genTime, there⟩⟩
      else ⟨reader.current, some ⟨rest, minTime, there⟩⟩
    | [] => ⟨reader.current, some ⟨rest, minTime, there⟩⟩
  | _ => reader

/-- What `data_available` finds after `sort` is passed to the engine. -/
def deliver (setup : Setup ι κ) (s : Backtest ι κ) (engine : Engine) :
    Option (Channel ι κ) → Backtest ι κ
  | some c => if s.waiting c = [] then s else act setup s (.takes engine c)
  | none => s

inductive Move (ι κ : Type) where
  | system (action : Action ι κ)
  | sorts (engine : Engine) (now : Int64)
  | inspects (engine : Engine)
  | tests (engine : Engine)

namespace Readers

def start : Readers ι κ := ⟨Backtest.start, fun _ => ⟨none, none⟩⟩

/-- The engines take frames in their tests alone; every other step of the backtest may come
between two steps of a reader. The clock is not behind the times of the frames. -/
def Enabled (r : Readers ι κ) : Move ι κ → Prop
  | .system action => action.isTake = false ∧ r.system.Enabled action
  | .sorts engine now =>
    r.system.idle engine ∧ (∀ loop ∈ (r.reader engine).sort, loop.rest = []) ∧ r.system.time ≤ now
  | .inspects engine => r.system.idle engine ∧ ∃ loop ∈ (r.reader engine).sort, loop.rest ≠ []
  | .tests engine => r.system.idle engine ∧ ∃ loop ∈ (r.reader engine).sort, loop.rest = []

instance (r : Readers ι κ) (move : Move ι κ) : Decidable (r.Enabled move) := by
  cases move <;> unfold Enabled <;> infer_instance

def step (setup : Setup ι κ) (r : Readers ι κ) : Move ι κ → Readers ι κ
  | .system action => { r with system := act setup r.system action }
  | .sorts engine now =>
    { r with
      reader := Function.update r.reader engine
        ⟨(r.reader engine).current, some ⟨setup.journals engine, now, r.system.waiting⟩⟩ }
  | .inspects engine =>
    { r with reader := Function.update r.reader engine ((r.reader engine).inspect r.system) }
  | .tests engine =>
    { system := deliver setup r.system engine (r.reader engine).current
      reader := Function.update r.reader engine ⟨(r.reader engine).current, none⟩ }

end Readers

/-- Frames wait in the order of their times, none of them later than now. -/
def Timed (s : Backtest ι κ) : Prop :=
  ∀ c, (s.waiting c).Pairwise (fun e f => e.genTime ≤ f.genTime) ∧
    ∀ e ∈ s.waiting c, e.genTime ≤ s.time

/-- What a reader knows between its steps: `current_` is a journal of its own, and a loop has
narrowed down what waited when it began. -/
structure Reader.Knows (journals : List (Channel ι κ)) (s : Backtest ι κ)
    (reader : Reader ι κ) : Prop where
  joined : ∀ c ∈ reader.current, c ∈ journals
  kept : ∀ loop ∈ reader.sort, ∀ c ∈ journals, loop.there c <+: s.waiting c
  narrowed : ∀ loop ∈ reader.sort, ∃ looked, looked ++ loop.rest = journals ∧
    OrderedMerge.Narrowed Entry.genTime loop.there s.waiting looked loop.minTime reader.current

namespace Reader.Knows
variable {s s' : Backtest ι κ} {journals : List (Channel ι κ)} {reader : Reader ι κ}

omit [DecidableEq ι] [DecidableEq κ] in
theorem grows (knows : reader.Knows journals s)
    (longer : ∀ c ∈ journals, s.waiting c <+: s'.waiting c) :
    reader.Knows journals s' where
  joined := knows.joined
  kept loop member c own := (knows.kept loop member c own).trans (longer c own)
  narrowed loop member := by
    obtain ⟨looked, split, narrowed⟩ := knows.narrowed loop member
    exact ⟨looked, split, narrowed.grows fun c ahead => longer c (by simp [← split, ahead])⟩

omit [DecidableEq ι] [DecidableEq κ] in
theorem tested (knows : reader.Knows journals s) : Reader.Knows journals s ⟨reader.current, none⟩ :=
  ⟨knows.joined, by simp, by simp⟩

omit [DecidableEq ι] [DecidableEq κ] in
theorem sorts (knows : reader.Knows journals s) (timed : s.Timed) {now : Int64}
    (past : s.time ≤ now) :
    Reader.Knows journals s ⟨reader.current, some ⟨journals, now, s.waiting⟩⟩ where
  joined := knows.joined
  kept := by
    rintro loop ⟨⟩ c _
    exact List.prefix_refl _
  narrowed := by
    rintro loop ⟨⟩
    exact ⟨[], rfl, .start (fun c e waits => Std.le_trans ((timed c).2 e waits) past) _⟩

omit [DecidableEq ι] [DecidableEq κ] in
theorem inspect (knows : reader.Knows journals s) (timed : s.Timed) :
    (reader.inspect s).Knows journals s := by
  obtain ⟨current, _ | ⟨_ | ⟨c, rest⟩, minTime, there⟩⟩ := reader
  · exact knows
  · exact knows
  obtain ⟨looked, split, narrowed⟩ := knows.narrowed _ rfl
  have own : c ∈ journals := by simp [← split]
  have split' : (looked ++ [c]) ++ rest = journals := by simpa using split
  have kept := knows.kept _ rfl
  simp only [Reader.inspect]
  split
  · rename_i e behind front
    split
    · rename_i early
      refine ⟨by simpa using own, ?_, ?_⟩
      · rintro loop ⟨⟩
        exact kept
      · rintro loop ⟨⟩
        exact ⟨looked ++ [c], split', narrowed.takes (kept c own) (timed c).1 front early⟩
    · rename_i late
      refine ⟨knows.joined, ?_, ?_⟩
      · rintro loop ⟨⟩
        exact kept
      · rintro loop ⟨⟩
        exact ⟨looked ++ [c], split',
          narrowed.passes (kept c own) (timed c).1 (by simpa [front] using late)⟩
  · rename_i empty
    refine ⟨knows.joined, ?_, ?_⟩
    · rintro loop ⟨⟩
      exact kept
    · rintro loop ⟨⟩
      exact ⟨looked ++ [c], split', narrowed.passes (kept c own) (timed c).1 (by simp [empty])⟩

end Reader.Knows

section
variable {s : Backtest ι κ} {c : Channel ι κ} {setup : Setup ι κ}

theorem write_grows (s : Backtest ι κ) (c : Channel ι κ) (msg : Msg) (d : Channel ι κ) :
    s.waiting d <+: (s.write c msg).waiting d := by
  by_cases here : d = c
  · subst here
    simp [write]
  · simp [write, here]

/-- The other steps of a backtest only add to what waits. -/
theorem act_grows (setup : Setup ι κ) (s : Backtest ι κ) {action : Action ι κ}
    (other : action.isTake = false)
    (d : Channel ι κ) : s.waiting d <+: (act setup s action).waiting d := by
  have same : s.waiting d <+: s.waiting d := List.prefix_refl _
  cases action with
  | cpTakes | mdTakes | tdTakes => contradiction
  | ticks | cpReturns | tdReturns => exact same
  | cpStarts => exact write_grows s _ _ d
  | cpOrders =>
    simp only [act]
    split <;> exact write_grows s _ _ d
  | cpWrites => exact write_grows s _ _ d
  | cpSends =>
    simp only [act]
    split
    · exact write_grows s _ _ d
    · exact write_grows s _ _ d
    · exact same
  | mdServes row =>
    simp only [act]
    split
    · cases row with
      | bar | ended => exact write_grows s _ _ d
      | invalid => exact same
    · exact same
  | mdReplies =>
    simp only [act]
    split
    · exact write_grows s _ _ d
    · exact same
  | tdWrites => exact write_grows s _ _ d
  | tdReplies =>
    simp only [act]
    split
    · exact write_grows s _ _ d
    · exact same
  | stops engine => cases engine <;> exact same

omit [DecidableEq ι] [DecidableEq κ] in
theorem journals_reader (setup : Setup ι κ) (engine : Engine) :
    c ∈ setup.journals engine ↔ c.reader = engine := by
  cases engine with
  | cp => exact setup.cpJoined c
  | td => exact setup.tdJoined c
  | md => cases c <;> simp [Setup.journals, Channel.reader]

omit [DecidableEq ι] [DecidableEq κ] in
theorem journals_distinct (setup : Setup ι κ) (engine : Engine) :
    (setup.journals engine).Nodup := by
  cases engine with
  | cp => exact setup.cpDistinct
  | td => exact setup.tdDistinct
  | md => exact List.nodup_singleton _

omit [DecidableEq ι] [DecidableEq κ] in
theorem takes_enabled {engine : Engine} (free : s.idle engine) (own : c.reader = engine)
    (some : s.waiting c ≠ []) :
    s.Enabled (.takes engine c) := by
  cases engine with
  | cp => exact ⟨free, own, some⟩
  | td => exact ⟨free, own, some⟩
  | md =>
    cases c with
    | mdReq => exact ⟨free, some⟩
    | mdResponse | tdReq | tdResponse | data | account => contradiction

/-- An engine takes from its own journals. -/
theorem act_takes_others (setup : Setup ι κ) (s : Backtest ι κ) {engine : Engine}
    (own : c.reader = engine) {d : Channel ι κ} (other : d.reader ≠ engine) :
      (act setup s (.takes engine c)).waiting d = s.waiting d := by
  have apart (b : Channel ι κ) (own : b.reader = engine) : (s.take b).waiting d = s.waiting d := by
    refine Function.update_of_ne ?_ _ _
    rintro rfl
    exact other own
  cases engine with
  | cp | td =>
    simp only [Action.takes, act]
    split
    · exact apart c own
    · rfl
  | md =>
    simp only [Action.takes, act]
    split
    · exact apart _ rfl
    · rfl

end
end BTrader.Backtest
