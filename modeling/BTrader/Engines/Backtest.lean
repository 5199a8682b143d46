import BTrader.Core.Types
import BTrader.Lib.Runs

/-! A backtest: CP, MD with its file data services and TD with its simulated brokers, and the
journals between them. A journal delivers its frames in their order and each of them once; every
write of a handler is a step of its own. -/
namespace BTrader.Backtest

/-- The journals, by what `JIDUtil` or the configuration calls their dests: one for each data
service and one for each account. -/
inductive Channel (ι κ : Type) where
  | mdReq | mdResponse | tdReq | tdResponse
  | data (service : ι)
  | account (account : κ)
  deriving DecidableEq, Repr

inductive Engine where
  | cp | md | td
  deriving DecidableEq, Repr

/-- The engine that has joined the journal. -/
def Channel.reader {ι κ : Type} : Channel ι κ → Engine
  | .mdReq => .md
  | .tdReq | .account _ => .td
  | .mdResponse | .tdResponse | .data _ => .cp

/-- A bar with the round it belongs to, an order with the round of the bar that it was placed
in response to, if it was. -/
inductive Msg where
  | signal (flag : BacktestSyncFlag)
  | bar (round : Nat)
  | order (bar : Option Nat)
  | termination
  | other
  deriving DecidableEq, Repr

structure Entry where
  genTime : Int64
  msg : Msg
  deriving DecidableEq, Repr

/-- Before the signal of `pre_start`, in the event loop, in a handler that may place orders
(`on_bar` with its round), in `on_backtest_sync_signal`, and while a `Termination` is passed on. -/
inductive CPAt where
  | starting | idle
  | handling (bar : Option Nat)
  | signalled (flag : BacktestSyncFlag)
  | ending | stopped
  deriving DecidableEq, Repr

/-- In `on_backtest_sync_signal` there are services left to call. -/
inductive MDAt (ι : Type) where
  | idle
  | signalled (flag : BacktestSyncFlag) (services : List ι) (success : Bool)
  | stopped
  deriving DecidableEq, Repr

inductive TDAt where
  | idle | handling
  | signalled (flag : BacktestSyncFlag)
  | stopped
  deriving DecidableEq, Repr

/-- What a data service finds in its file: a row, a row without a valid time or number, or the
end. -/
inductive Row where
  | bar | invalid | ended
  deriving DecidableEq, Repr

/-- `data_services_` and the journals of the readers of CP and TD, in the order the maps are
iterated in. -/
structure Setup (ι κ : Type) where
  services : List ι
  cpJournals : List (Channel ι κ)
  tdJournals : List (Channel ι κ)
  cpDistinct : cpJournals.Nodup
  tdDistinct : tdJournals.Nodup
  cpJoined : ∀ c, c ∈ cpJournals ↔ c.reader = .cp
  tdJoined : ∀ c, c ∈ tdJournals ↔ c.reader = .td

end Backtest

open Backtest

/-- `passed` are the frames behind the cursor of a journal's reader, `waiting` those in front of
it, `sent` the signals CP has written. -/
structure Backtest (ι κ : Type) where
  passed : Backtest.Channel ι κ → List Entry
  waiting : Backtest.Channel ι κ → List Entry
  time : Int64
  cp : CPAt
  md : MDAt ι
  td : TDAt
  sent : List (Backtest.Channel ι κ × BacktestSyncFlag)

namespace Backtest
variable {ι κ : Type} [DecidableEq ι] [DecidableEq κ]

def start : Backtest ι κ := ⟨fun _ => [], fun _ => [], 0, .starting, .idle, .idle, []⟩

/-- A frame bears the time it is written at. -/
def write (s : Backtest ι κ) (c : Channel ι κ) (msg : Msg) : Backtest ι κ :=
  { s with waiting := Function.update s.waiting c (s.waiting c ++ [⟨s.time, msg⟩]) }

/-- The frame in front of the cursor is delivered. -/
def take (s : Backtest ι κ) (c : Channel ι κ) : Backtest ι κ :=
  { s with
    passed := Function.update s.passed c (s.passed c ++ (s.waiting c).head?.toList)
    waiting := Function.update s.waiting c (s.waiting c).tail }

def signal (s : Backtest ι κ) (c : Channel ι κ) (flag : BacktestSyncFlag) : Backtest ι κ :=
  { s.write c (.signal flag) with sent := s.sent ++ [(c, flag)] }

def Msg.isSignal : Msg → Bool
  | .signal _ => true
  | _ => false

/-- How many signals there are among the frames. -/
def signals (entries : List Entry) : Nat := entries.countP fun e => e.msg.isSignal

def seen (s : Backtest ι κ) (c : Channel ι κ) : Nat := signals (s.passed c)

def pending (s : Backtest ι κ) (c : Channel ι κ) : Nat := signals (s.waiting c)

def written (s : Backtest ι κ) (c : Channel ι κ) : Nat := s.seen c + s.pending c

inductive Action (ι κ : Type) where
  | ticks (time : Int64)
  | cpStarts
  | cpTakes (c : Channel ι κ)
  | cpOrders (account : κ)
  | cpWrites (c : Channel ι κ)
  | cpSends
  | cpReturns
  | mdTakes
  | mdServes (row : Row)
  | mdReplies
  | tdTakes (c : Channel ι κ)
  | tdWrites
  | tdReplies
  | tdReturns
  | stops (engine : Engine)
  deriving DecidableEq, Repr

/-- Whose journals CP writes to. -/
def Channel.byCP : Channel ι κ → Bool
  | .mdReq | .tdReq | .account _ => true
  | _ => false

def Enabled (s : Backtest ι κ) : Action ι κ → Prop
  | .ticks time => s.time ≤ time
  | .cpStarts => s.cp = .starting
  | .cpTakes c => s.cp = .idle ∧ c.reader = .cp ∧ s.waiting c ≠ []
  | .cpOrders _ => s.cp = .starting ∨ ∃ bar, s.cp = .handling bar
  | .cpWrites c => c.byCP ∧ (s.cp = .starting ∨ s.cp = .ending ∨ ∃ bar, s.cp = .handling bar)
  | .cpSends => ∃ flag, s.cp = .signalled flag
  | .cpReturns => ∃ bar, s.cp = .handling bar
  | .mdTakes => s.md = .idle ∧ s.waiting .mdReq ≠ []
  | .mdServes _ => ∃ flag service rest success, s.md = .signalled flag (service :: rest) success
  | .mdReplies => ∃ flag success, s.md = .signalled flag [] success
  | .tdTakes c => s.td = .idle ∧ c.reader = .td ∧ s.waiting c ≠ []
  | .tdWrites => s.td = .handling ∨ ∃ flag, s.td = .signalled flag
  | .tdReplies => ∃ flag, s.td = .signalled flag
  | .tdReturns => s.td = .handling
  | .stops _ => True

instance (cp : CPAt) : Decidable (∃ bar, cp = .handling bar) :=
  match cp with
  | .handling bar => isTrue ⟨bar, rfl⟩
  | .starting | .idle | .signalled _ | .ending | .stopped => isFalse (by simp)

instance (cp : CPAt) : Decidable (∃ flag, cp = .signalled flag) :=
  match cp with
  | .signalled flag => isTrue ⟨flag, rfl⟩
  | .starting | .idle | .handling _ | .ending | .stopped => isFalse (by simp)

instance (md : MDAt ι) :
    Decidable (∃ flag service rest success, md = .signalled flag (service :: rest) success) :=
  match md with
  | .signalled flag (service :: rest) success => isTrue ⟨flag, service, rest, success, rfl⟩
  | .signalled _ [] _ | .idle | .stopped => isFalse (by simp)

instance (md : MDAt ι) : Decidable (∃ flag success, md = .signalled flag [] success) :=
  match md with
  | .signalled flag [] success => isTrue ⟨flag, success, rfl⟩
  | .signalled _ (_ :: _) _ | .idle | .stopped => isFalse (by simp)

instance (td : TDAt) : Decidable (∃ flag, td = .signalled flag) :=
  match td with
  | .signalled flag => isTrue ⟨flag, rfl⟩
  | .idle | .handling | .stopped => isFalse (by simp)

instance (s : Backtest ι κ) (action : Action ι κ) : Decidable (s.Enabled action) := by
  cases action <;> unfold Enabled <;> infer_instance

/-- What CP is in after a frame is delivered to it. -/
def CPAt.after : Msg → CPAt
  | .signal flag => .signalled flag
  | .bar round => .handling (some round)
  | .termination => .ending
  | .order _ | .other => .handling none

/-- Every other handler of MD writes nothing. -/
def MDAt.after (services : List ι) : Msg → MDAt ι
  | .signal flag => .signalled flag services true
  | .termination => .stopped
  | _ => .idle

/-- `insert_order`, `cancel_order` and the others may write responses. -/
def TDAt.after : Msg → TDAt
  | .signal flag => .signalled flag
  | .termination => .stopped
  | _ => .handling

/-- A service answers a signal: only the end of its file is no success. -/
def serve (s : Backtest ι κ) (flag : BacktestSyncFlag) (service : ι) (rest : List ι)
    (success : Bool) :
    Row → Backtest ι κ
  | .bar =>
    { s.write (.data service) (.bar (s.seen .mdReq)) with md := .signalled flag rest success }
  | .invalid => { s with md := .signalled flag rest success }
  | .ended => { s.write (.data service) .termination with md := .signalled flag rest false }

/-- What an engine does when it is not where the action begins does not matter. -/
def act (setup : Setup ι κ) (s : Backtest ι κ) : Action ι κ → Backtest ι κ
  | .ticks time => { s with time }
  | .cpStarts => { s.signal .mdReq .marketData with cp := .idle }
  | .cpTakes c =>
    match s.waiting c with
    | e :: _ => { s.take c with cp := .after e.msg }
    | [] => s
  | .cpOrders account =>
    match s.cp with
    | .handling bar => s.write (.account account) (.order bar)
    | _ => s.write (.account account) (.order none)
  | .cpWrites c => s.write c (if s.cp = .ending then .termination else .other)
  | .cpSends =>
    match s.cp with
    | .signalled .marketData => { s.signal .tdReq .matchOrder with cp := .idle }
    | .signalled .matchOrder => { s.signal .mdReq .marketData with cp := .idle }
    | _ => s
  | .cpReturns => { s with cp := .idle }
  | .mdTakes =>
    match s.waiting .mdReq with
    | e :: _ => { s.take .mdReq with md := .after setup.services e.msg }
    | [] => s
  | .mdServes row =>
    match s.md with
    | .signalled flag (service :: rest) success => s.serve flag service rest success row
    | _ => s
  | .mdReplies =>
    match s.md with
    | .signalled flag [] true => { s.write .mdResponse (.signal flag) with md := .idle }
    | _ => { s with md := .idle }
  | .tdTakes c =>
    match s.waiting c with
    | e :: _ => { s.take c with td := .after e.msg }
    | [] => s
  | .tdWrites => s.write .tdResponse .other
  | .tdReplies =>
    match s.td with
    | .signalled flag => { s.write .tdResponse (.signal flag) with td := .idle }
    | _ => s
  | .tdReturns => { s with td := .idle }
  | .stops .cp => { s with cp := .stopped }
  | .stops .md => { s with md := .stopped }
  | .stops .td => { s with td := .stopped }

end Backtest
end BTrader
