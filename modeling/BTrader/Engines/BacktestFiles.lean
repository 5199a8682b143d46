import BTrader.Broker.FileDataService
import BTrader.Engines.BacktestEnd

/-! A backtest over files: what the data services find in a round is read from the bytes of their
files. -/
namespace BTrader
open Infra

/-! The rows of a file -/

namespace Infra.CSVReader
variable {r : CSVReader}

/-- The rows behind the first ones are those that the calls behind them read. -/
theorem readRows_reads (k : Nat) (bound : k ≤ r.readRows.length) :
    (r.reads k).readRows = r.readRows.drop k := by
  induction k with
  | zero => rfl
  | succ k ih =>
    have rows := ih (by omega)
    cases read : (r.reads k).readRowInto.1 with
    | false =>
      rw [readRows_none read, eq_comm, List.drop_eq_nil_iff] at rows
      omega
    | true =>
      rw [readRows_some (Prod.ext read rfl)] at rows
      rw [← List.drop_drop, ← rows]
      rfl

/-- The call that follows them reads the next row, or none when there is none. -/
theorem readRowInto_reads (k : Nat) (bound : k ≤ r.readRows.length) :
    match r.readRows[k]? with
    | some row => (r.reads k).readRowInto.1 = true ∧ (r.reads k).readRowInto.2.1 = row
    | none => (r.reads k).readRowInto.1 = false := by
  have rows := readRows_reads k bound
  have here : r.readRows[k]? = (r.reads k).readRows.head? := by rw [rows, List.head?_drop]
  rw [here]
  cases read : (r.reads k).readRowInto.1 with
  | false => simp [readRows_none read]
  | true => simp [readRows_some (Prod.ext read rfl)]

end Infra.CSVReader

namespace FileDataService
variable {δ : Type} (lib : TextLib δ) (unit : TimeUnit)

/-- The rows of a file: those behind its header and in front of its first empty line. -/
def rows (file : List UInt8) : List (List Field) := (setup file true).start.reader.readRows

/-- A bar is made of the row. -/
def HasBar (row : List Field) : Prop :=
  6 ≤ row.length ∧ Numeric lib row ∧ 0 < calendarDayStart unit (parsedDate lib row)

instance (row : List Field) : Decidable (HasBar lib unit row) :=
  inferInstanceAs (Decidable (_ ∧ _ ∧ _))

theorem rows_eq {file header rest : List UInt8} (headed : getline file = some (header, rest)) :
    rows file = ((fileLines rest).takeWhile (· ≠ [])).map fun line =>
      CSVReader.parseLoop 44 34 line false [] [] := by
  obtain ⟨reading, left, delimiter, quoteChar⟩ := start_reading headed 44 34
  have read := CSVReader.readRows_eq reading
  rw [left, delimiter, quoteChar] at read
  exact read

/-- What a call publishes of a row, whatever the clock reads. -/
theorem handle_row {s : FileDataService} (writes : s.writer = true)
    (success : s.reader.readRowInto.1 = true) (now : Int)
    (columns : s.nextRow.length < 6 → ¬ Numeric lib s.nextRow) :
    let handled := handleBacktestSyncSignal lib unit now s
    handled.beyond = false ∧
      if HasBar lib unit s.nextRow then ∃ bar, handled.published = some (.bar bar)
      else handled.published = none := by
  intro handled
  have nothing (parsed : parseRow lib unit now s.nextRow = .error .exception ∨
      parseRow lib unit now s.nextRow = .ok none) :
      handled.beyond = false ∧ handled.published = none := by
    rw [nextRow] at parsed
    rcases parsed with parsed | parsed <;> simp [handled, handleBacktestSyncSignal, success, parsed]
  rcases parseRow_cases lib unit now s.nextRow with
    ⟨numeric, short, _⟩ | ⟨bad, parsed⟩ | ⟨numeric, six,
      ⟨invalid, parsed⟩ | ⟨positive, _, bar, parsed, _⟩⟩
  · exact absurd numeric (columns short)
  · rw [if_neg fun has => bad has.2.1]
    exact nothing (.inl parsed)
  · rw [if_neg]
    · exact nothing (.inr parsed)
    · intro has
      have finishes := (range_positive unit has.2.2 now).1
      rcases invalid with start | finish
      · exact absurd has.2.2 (not_lt.mpr start)
      · exact absurd finishes (not_lt.mpr finish)
  · rw [if_pos ⟨six, numeric, positive⟩]
    obtain ⟨inside, published⟩ := handle_bar lib unit success parsed
    exact ⟨inside, bar, published.trans (if_pos writes)⟩

end FileDataService

/-! The services in a backtest -/

namespace Backtest

variable {ι κ δ : Type}

/-- What a call tells MD. -/
def Row.ofHandled (handled : Handled δ) : Row :=
  match handled.published with
  | some (.bar _) => .bar
  | some .termination => .ended
  | none => .invalid

variable [DecidableEq ι] [DecidableEq κ] {s : Backtest ι κ}

/-- Only the calls of the services ask for rows. -/
theorem served_act (setup : Setup ι κ) (action : Action ι κ) (enabled : s.Enabled action)
    (orderly : s.Orderly action) (other : ∀ row, action ≠ .mdServes row) (i : ι) :
    (act setup s action).served setup.services i = s.served setup.services i := by
  have takes {c : Channel ι κ} {e : Entry} {rest : List Entry} (front : s.waiting c = e :: rest)
      (elsewhere : .mdReq ≠ c) :
      (s.take c).served setup.services i = s.served setup.services i :=
    served_congr (s := s)
      (t := s.take c) rfl (by simp [seen_take front, elsewhere]) setup.services i
  cases action with
  | ticks | cpStarts | cpWrites | cpReturns | tdWrites | tdReturns => rfl
  | cpTakes c =>
    obtain ⟨_, reads, some⟩ := enabled
    obtain ⟨e, rest, front⟩ := List.exists_cons_of_ne_nil some
    simp only [act, front]
    refine takes front ?_
    rintro rfl
    simp [Channel.reader] at reads
  | cpOrders account =>
    simp only [act]
    split <;> rfl
  | cpSends =>
    simp only [act]
    split <;> rfl
  | mdTakes =>
    obtain ⟨idle, some⟩ := enabled
    obtain ⟨e, rest, front⟩ := List.exists_cons_of_ne_nil some
    simp only [act, front]
    exact served_mdTakes setup.services idle front i
  | mdServes row => exact absurd rfl (other row)
  | mdReplies =>
    obtain ⟨flag, success, signalled⟩ := enabled
    have none : s.md.left = [] := by rw [signalled]; rfl
    simp only [act, signalled]
    cases success with
    | true =>
      exact served_congr
        (t := { s.write .mdResponse (.signal flag) with md := .idle }) none.symm rfl _ i
    | false => exact served_congr (t := { s with md := .idle }) none.symm rfl _ i
  | tdTakes c =>
    obtain ⟨_, reads, some⟩ := enabled
    obtain ⟨e, rest, front⟩ := List.exists_cons_of_ne_nil some
    simp only [act, front]
    refine takes front ?_
    rintro rfl
    simp [Channel.reader] at reads
  | tdReplies =>
    simp only [act]
    split <;> rfl
  | stops engine =>
    cases engine with
    | md => exact absurd orderly id
    | cp | td => rfl

omit [DecidableEq κ] in
/-- The service that MD calls next: it has been asked for the rows of the rounds before. -/
theorem Course.front {setup : Setup ι κ} {files : ι → List Bool} {n : Nat}
    (course : s.Course setup files n)
    {flag : BacktestSyncFlag} {service : ι} {left : List ι} {success : Bool}
    (signalled : s.md = .signalled flag (service :: left) success) :
    service ∈ setup.services ∧ 0 < s.seen .mdReq ∧ s.served setup.services service =
      s.seen .mdReq - 1 := by
  obtain ⟨some, before, split, _⟩ := course.serving flag _ success signalled
  have called : service ∈ setup.services := by simp [split]
  exact ⟨called, some, by simp [served, called, signalled, MDAt.left]⟩

/-- A call asks its service for one row more. -/
theorem served_serves (setup : Setup ι κ) (distinct : setup.services.Nodup)
    {files : ι → List Bool} {n : Nat}
    (course : s.Course setup files n) {flag : BacktestSyncFlag} {service : ι} {left : List ι}
    {success : Bool}
    (signalled : s.md = .signalled flag (service :: left) success) (row : Row) (i : ι) :
    (act setup s (.mdServes row)).served setup.services i =
      s.served setup.services i + if i = service then 1 else 0 := by
  obtain ⟨some, before, split, _⟩ := course.serving flag _ success signalled
  have once : service ∉ left := by
    rw [split, List.nodup_append, List.nodup_cons] at distinct
    exact distinct.2.1.1
  refine Course.served_next (course.front signalled).1 once some (by rw [signalled]; rfl) ?_ ?_ i
  · simp only [act, signalled]
    cases row <;> rfl
  · simp only [act, signalled]
    cases row <;> rfl

end Backtest

/-- `services` are the data services with what they have not read yet. -/
structure FileBacktest (ι κ : Type) where
  backtest : Backtest ι κ
  services : ι → FileDataService

namespace FileBacktest
open Backtest (Channel Entry Row Setup)
open FileDataService (rows HasBar)

variable {ι κ δ : Type} [DecidableEq ι] [DecidableEq κ] (lib : TextLib δ) (unit : TimeUnit)

/-- MD has started its services: `pre_start` writes `TradingStart` in front of the first signal,
to the same journal. -/
def start (files : ι → List UInt8) : FileBacktest ι κ :=
  ⟨Backtest.start, fun i => (FileDataService.setup (files i) true).start⟩

/-- The next service is called with the clock at `now`, or another step is taken. -/
inductive Action (ι κ : Type) where
  | engine (action : Backtest.Action ι κ)
  | serves (now : Int)

def Enabled (s : FileBacktest ι κ) : Action ι κ → Prop
  | .engine action => s.backtest.Enabled action ∧ ∀ row, action ≠ .mdServes row
  | .serves _ => ∃ flag service left success, s.backtest.md =
      .signalled flag (service :: left) success

instance (action : Backtest.Action ι κ) : Decidable (∀ row, action ≠ .mdServes row) :=
  match action with
  | .mdServes row => isFalse fun other => other row rfl
  | .ticks _ | .cpStarts | .cpTakes _ | .cpOrders _ | .cpWrites _ | .cpSends | .cpReturns
  | .mdTakes | .mdReplies
  | .tdTakes _ | .tdWrites | .tdReplies | .tdReturns | .stops _ => isTrue (by simp)

instance (s : FileBacktest ι κ) (action : Action ι κ) : Decidable (s.Enabled action) := by
  cases action <;> unfold Enabled <;> infer_instance

/-- CP stops once it has written a `Termination` to each of its journals. Nobody else stops an
engine. -/
def Orderly (s : FileBacktest ι κ) : Action ι κ → Prop
  | .engine action => s.backtest.Orderly action
  | .serves _ => True

instance [Fintype κ] (s : FileBacktest ι κ) (action : Action ι κ) :
    Decidable (s.Orderly action) := by
  cases action <;> unfold Orderly <;> infer_instance

/-- The steps that a backtest cannot do without. -/
def Drives (s : FileBacktest ι κ) : Action ι κ → Prop
  | .engine action => s.backtest.Drives action
  | .serves _ => True

def act (setup : Setup ι κ) (s : FileBacktest ι κ) : Action ι κ → FileBacktest ι κ
  | .engine action => { s with backtest := s.backtest.act setup action }
  | .serves now =>
    match s.backtest.md with
    | .signalled _ (service :: _) _ =>
      let handled := FileDataService.handleBacktestSyncSignal lib unit now (s.services service)
      { backtest := s.backtest.act setup (.mdServes (.ofHandled handled))
        services := Function.update s.services service handled.service }
    | _ => s

/-- The rows of a file, by whether they have a bar. -/
def bars (file : List UInt8) : List Bool := (rows file).map fun row => decide (HasBar lib unit row)

/-- The backtest of the rows, and each service behind as many of them as it was asked for. -/
structure Follows (setup : Setup ι κ) (files : ι → List UInt8) (n : Nat)
    (s : FileBacktest ι κ) : Prop where
  whole : s.backtest.Whole setup (fun i => bars lib unit (files i)) n
  services : ∀ i ∈ setup.services, s.services i =
    { (FileDataService.setup (files i) true).start with
      reader :=
        (FileDataService.setup (files i) true).start.reader.reads
          (s.backtest.served setup.services i) }

section
variable {setup : Setup ι κ} {files : ι → List UInt8} {n : Nat} {s : FileBacktest ι κ}

/-- A call of a service finds the next row of its file, or the end. -/
theorem handled_row {file : List UInt8} {k : Nat} (bound : k ≤ (rows file).length)
    (columns : ∀ row ∈ rows file, row.length < 6 → ¬ FileDataService.Numeric lib row)
    {service : FileDataService} (here : service = { (FileDataService.setup file true).start with
      reader := (FileDataService.setup file true).start.reader.reads k }) (now : Int) :
    let handled := FileDataService.handleBacktestSyncSignal lib unit now service
    handled.beyond = false ∧ Row.ofHandled handled = .ofRow (bars lib unit file)[k]? := by
  intro handled
  have read : match (rows file)[k]? with
      | some row => service.reader.readRowInto.1 = true ∧ service.nextRow = row
      | none => service.reader.readRowInto.1 = false := by
    subst here
    exact CSVReader.readRowInto_reads k bound
  have writes : service.writer = true := by rw [here]; rfl
  rw [bars, List.getElem?_map]
  cases next : (rows file)[k]? with
  | none =>
    rw [next] at read
    have ended := (FileDataService.handle_terminates lib unit service now).mpr ⟨writes, read⟩
    refine ⟨(FileDataService.handle_end lib unit now read).inside, ?_⟩
    simp only [Row.ofHandled, handled, ended]
    rfl
  | some row =>
    rw [next] at read
    obtain ⟨success, rfl⟩ := read
    obtain ⟨inside, published⟩ := FileDataService.handle_row lib unit writes success now
      (columns _ (List.mem_of_getElem? next))
    refine ⟨inside, ?_⟩
    by_cases has : HasBar lib unit service.nextRow
    · rw [if_pos has] at published
      obtain ⟨bar, published⟩ := published
      simp only [Row.ofHandled, handled, published, has, Option.map_some, decide_true]
      rfl
    · rw [if_neg has] at published
      simp only [Row.ofHandled, handled, published, has, Option.map_some, decide_false]
      rfl

omit [DecidableEq κ] in
theorem start_follows (setup : Setup ι κ) (files : ι → List UInt8) (n : Nat) :
    Follows lib unit setup files n (start files : FileBacktest ι κ) where
  whole := Backtest.start_whole setup _ n
  services i called := by
    have none : (start files : FileBacktest ι κ).backtest.served setup.services i = 0 := by
      rw [Backtest.served]
      split <;> rfl
    rw [none]
    rfl

/-- A step of the backtest of the files is one of the backtest of their rows. -/
theorem Follows.act (follows : Follows lib unit setup files n s) (distinct : setup.services.Nodup)
    (shortest : IsLeast {count | ∃ i ∈ setup.services, (bars lib unit (files i)).length = count} n)
    (columns : ∀ i ∈ setup.services, ∀ row ∈ rows (files i), row.length < 6 →
      ¬ FileDataService.Numeric lib row)
    (action : Action ι κ) (enabled : s.Enabled action) (orderly : s.Orderly action) :
    Follows lib unit setup files n (FileBacktest.act lib unit setup s action) := by
  have course := follows.whole.course
  cases action with
  | engine action =>
    obtain ⟨able, other⟩ := enabled
    have scripted : s.backtest.Scripted (fun i => bars lib unit (files i)) action :=
      ⟨orderly, fun row same => absurd same (other row)⟩
    refine ⟨follows.whole.act distinct shortest.1 action able scripted, fun i called => ?_⟩
    change s.services i = { (FileDataService.setup (files i) true).start with
      reader := (FileDataService.setup (files i) true).start.reader.reads
        ((Backtest.act setup s.backtest action).served setup.services i) }
    rw [Backtest.served_act setup action able orderly other, follows.services i called]
  | serves now =>
    obtain ⟨flag, service, left, success, signalled⟩ := enabled
    obtain ⟨called, some, asked⟩ := course.front signalled
    have bound : s.backtest.seen .mdReq - 1 ≤ (rows (files service)).length := by
      have longer := shortest.2 ⟨service, called, rfl⟩
      have rounds := follows.whole.seen_le
      rw [bars, List.length_map] at longer
      omega
    have here := follows.services service called
    rw [asked] at here
    obtain ⟨_, found⟩ := handled_row lib unit bound (columns service called) here now
    have ran : FileBacktest.act lib unit setup s (.serves now) =
        ⟨s.backtest.act setup
          (.mdServes (.ofRow (bars lib unit (files service))[s.backtest.seen .mdReq - 1]?)),
          Function.update s.services service
            (FileDataService.act lib unit (s.services service) now)⟩ := by
      simp only [FileBacktest.act, signalled, found, FileDataService.act]
    rw [ran]
    refine ⟨follows.whole.act distinct shortest.1 (.mdServes _) ⟨flag, service, left, success,
      signalled⟩ ⟨trivial, ?_⟩, fun i member => ?_⟩
    · intro row same flag' service' left' success' signalled'
      cases same
      rw [signalled] at signalled'
      cases signalled'
      rfl
    · change Function.update s.services service
        (FileDataService.act lib unit (s.services service) now) i = _
      rw [Backtest.served_serves setup distinct course signalled]
      by_cases same : i = service
      · subst same
        rw [Function.update_self, if_pos rfl, asked, FileDataService.act_reader, here]
        rfl
      · rw [Function.update_of_ne same, if_neg same, Nat.add_zero]
        exact follows.services i member

/-- Every backtest has as many rounds as its shortest file has rows. Each service has written the
bars of its first rows, and in the round behind the last one those that have no row write a
`Termination`; then all engines stop, and nothing is stuck before. -/
theorem backtest_ends (lib : TextLib δ) (unit : TimeUnit) (setup : Setup ι κ)
    (distinct : setup.services.Nodup) (files : ι → List UInt8)
    (columns : ∀ i ∈ setup.services, ∀ row ∈ rows (files i), row.length < 6 →
      ¬ FileDataService.Numeric lib row)
    (n : Nat) (shortest : IsLeast {count | ∃ i ∈ setup.services, (rows (files i)).length = count} n)
    (actions : List (Action ι κ))
    (allowed :
      ∀ move ∈ Runs.moves (act lib unit setup) (start files) actions, move.1.Enabled move.2 ∧
      move.1.Orderly move.2) :
    ∀ s ∈ Runs.states (act lib unit setup) (start files) actions,
      s.backtest.Lasts setup (fun i => bars lib unit (files i)) n ∧
        (s.backtest.Stopped ∨ ∃ action, s.Enabled action ∧ s.Orderly action ∧ s.Drives action) := by
  have least :
      IsLeast {count | ∃ i ∈ setup.services, (bars lib unit (files i)).length = count} n := by
    simpa only [bars, List.length_map] using shortest
  intro s reached
  have kept : ∀ (s : FileBacktest ι κ) (action : Action ι κ), Follows lib unit setup files n s →
      (s.Enabled action ∧ s.Orderly action) →
        Follows lib unit setup files n (FileBacktest.act lib unit setup s action) :=
    fun s action follows able => follows.act lib unit distinct least columns action able.1 able.2
  have follows : Follows lib unit setup files n s :=
    Runs.invariant kept (start_follows lib unit setup files n) actions allowed s reached
  refine ⟨follows.whole.lasts least, ?_⟩
  rcases follows.whole.ends.progress follows.whole.alive with stopped | ⟨action, able,
    orderly, drives⟩
  · exact .inl stopped
  · by_cases serves : ∃ row, action = .mdServes row
    · obtain ⟨row, rfl⟩ := serves
      exact .inr ⟨.serves 0, able, trivial, trivial⟩
    · have other (row : Row) : action ≠ .mdServes row := fun same => serves ⟨row, same⟩
      exact .inr ⟨.engine action, ⟨able, other⟩, orderly, drives⟩

/-- A row of six numbers. -/
def ones : List UInt8 := [49, 44, 49, 44, 49, 44, 49, 44, 49, 44, 49, 10]

/-- Two rows in one of the files, and a row behind an empty line in the other. -/
def twoFiles : Bool → List UInt8
  | false => [104, 10] ++ ones ++ ones
  | true => [104, 10] ++ ones ++ [10] ++ ones

/-- Two data services and one account. -/
def twoServices : Setup Bool Unit where
  services := [false, true]
  cpJournals := [.data false, .data true, .tdResponse, .mdResponse]
  tdJournals := [.account (), .tdReq]
  cpDistinct := by decide
  tdDistinct := by decide
  cpJoined := by rintro (_ | _ | _ | _ | ⟨_ | _⟩ | _) <;> simp [Channel.reader]
  tdJoined := by rintro (_ | _ | _ | _ | ⟨_ | _⟩ | _) <;> simp [Channel.reader]

/-- Two rounds, in the second of which one file has no row. -/
def twoRounds : List (Action Bool Unit) :=
  [.engine .cpStarts, .engine .mdTakes, .serves 1700078400, .serves 1700078400, .engine .mdReplies,
    .engine (.cpTakes (.data true)), .engine .cpReturns, .engine (.cpTakes .mdResponse),
      .engine .cpSends,
    .engine (.tdTakes .tdReq), .engine .tdReplies, .engine (.cpTakes .tdResponse), .engine .cpSends,
      .engine .mdTakes,
    .serves 1700078401, .serves 1700078401, .engine .mdReplies, .engine (.cpTakes (.data false)),
      .engine .cpReturns,
    .engine (.cpTakes (.data true)), .engine (.cpWrites .tdReq), .engine (.cpWrites .mdReq),
      .engine .mdTakes,
    .engine (.cpWrites (.account ())), .engine (.stops .cp), .engine (.tdTakes .tdReq)]

theorem rows_twoFiles : (rows (twoFiles true)).length = 1 ∧ (rows (twoFiles false)).length = 2 := by
  decide +kernel

theorem backtest_ends_two :
    (twoRounds.foldl (act FileDataService.oneDigit .sec twoServices)
      (start twoFiles)).backtest.Stopped ∧
      ((twoRounds.foldl (act FileDataService.oneDigit .sec twoServices)
        (start twoFiles)).backtest.entries (.data true)).map Entry.msg =
        [.bar 1, .termination] := by
  have allowed :
      ∀ move ∈ Runs.moves (act FileDataService.oneDigit .sec twoServices)
        (start twoFiles) twoRounds,
      move.1.Enabled move.2 ∧ move.1.Orderly move.2 := by
    decide +kernel
  have stopped :
      (twoRounds.foldl (act FileDataService.oneDigit .sec twoServices)
        (start twoFiles)).backtest.Stopped := by decide +kernel
  have shortest :
      IsLeast {count | ∃ i ∈ twoServices.services, (rows (twoFiles i)).length = count} 1 := by
    refine ⟨⟨true, by decide, rows_twoFiles.1⟩, ?_⟩
    rintro count ⟨i, _, rfl⟩
    cases i with
    | false => exact rows_twoFiles.2.ge.trans' (by decide)
    | true => exact rows_twoFiles.1.ge
  have columns : ∀ i ∈ twoServices.services, ∀ row ∈ rows (twoFiles i), row.length < 6 →
      ¬ FileDataService.Numeric FileDataService.oneDigit row := by
    decide +kernel
  have ends :=
    backtest_ends FileDataService.oneDigit .sec twoServices
      (by decide) twoFiles columns 1 shortest twoRounds allowed _
    (Runs.last_mem (start twoFiles) twoRounds)
  exact ⟨stopped, ((ends.1.stopped stopped).2.2 true (by decide)).trans (by decide +kernel)⟩

end
end FileBacktest
end BTrader
