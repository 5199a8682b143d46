import BTrader.Core.Types
import BTrader.Infra.Calendar
import BTrader.Infra.CsvLines
import BTrader.Lib.Runs

/-! The data service of the backtest: each sync signal turns one line of a file into a bar. -/
namespace BTrader
open Infra

/-- What the library makes of a text: a double and a long, when it does not throw, and the
timestamp of a date in a format. -/
structure TextLib (δ : Type) where
  stod : Field → Option δ
  stol : Field → Option Int
  strptime : Field → String → Int

/-- The `Bar` of a row. -/
structure RowBar (δ : Type) where
  instrumentId : String
  exchangeId : String
  instrumentType : InstrumentType
  startTime : Int
  endTime : Int
  openPrice : δ
  close : δ
  low : δ
  high : δ
  volume : Int
  startVolume : Int
  tickCount : Int
  deriving DecidableEq, Repr

inductive Published (δ : Type) where
  | bar (bar : RowBar δ)
  | termination
  deriving DecidableEq, Repr

/-- What ends the handling of a row: an exception, or an element behind the last of the row. -/
inductive RowFault where
  | exception | beyond
  deriving DecidableEq, Repr

/-- `writer` tells whether there is one. `row_buffer_` is filled anew by each call. -/
structure FileDataService where
  reader : CSVReader
  writer : Bool

/-- `beyond` marks a call that read behind the row; what such a call does is not defined. -/
structure Handled (δ : Type) where
  returned : Bool
  published : Option (Published δ)
  beyond : Bool
  service : FileDataService

namespace FileDataService
variable {δ : Type} (lib : TextLib δ) (unit : TimeUnit)

def historyDayFormat : String := "%Y-%m-%d"

/-- `setup` with a file that opens: commas and double quotes. -/
def setup (file : List UInt8) (writer : Bool) : FileDataService := ⟨.make 44 34 file, writer⟩

def start (s : FileDataService) : FileDataService := { s with reader := s.reader.readHeader.2 }

/-- `row_buffer_[i]`. -/
def column (row : List Field) (i : Nat) : Except RowFault Field :=
  match row[i]? with
  | some field => .ok field
  | none => .error .beyond

/-- A parser of numbers that throws. -/
def number (parse : Field → Option α) (field : Field) : Except RowFault α :=
  match parse field with
  | some value => .ok value
  | none => .error .exception

/-- The row ends before the column, the column does not parse, or there is a value to go on with. -/
theorem column_cases {parse : Field → Option α} {row : List Field} {i : Nat}
    {next : α → Except RowFault β} {result : Except RowFault β}
    (read : result = column row i >>= fun field => number parse field >>= next) :
    (row[i]? = none ∧ result = .error .beyond) ∨
      ((¬ ∀ field ∈ row[i]?, (parse field).isSome = true) ∧ result = .error .exception) ∨
        i < row.length ∧ (∀ field ∈ row[i]?, (parse field).isSome = true) ∧
          ∃ value, result = next value := by
  cases here : row[i]? with
  | none =>
    refine .inl ⟨rfl, ?_⟩
    simp only [column, here] at read
    exact read
  | some field =>
    have present := (List.getElem?_eq_some_iff.mp here).1
    simp only [column, here] at read
    have goes : result = number parse field >>= next := read
    cases parsed : parse field with
    | none =>
      refine .inr (.inl ⟨by simp [parsed], ?_⟩)
      rw [goes, number, parsed]
      rfl
    | some value =>
      refine .inr (.inr ⟨present, by simp [parsed], value, ?_⟩)
      rw [goes, number, parsed]
      rfl

/-- The bar of a row, unless its date gives no valid time. Fewer than six columns only make a
warning. -/
def parseRow (now : Int) (row : List Field) : Except RowFault (Option (RowBar δ)) := do
  let close ← number lib.stod (← column row 1)
  let high ← number lib.stod (← column row 2)
  let low ← number lib.stod (← column row 3)
  let openPrice ← number lib.stod (← column row 4)
  let volume ← number lib.stol (← column row 5)
  let date ← column row 0
  -- the date goes through a C string
  let (startTime, endTime) :=
    strptimerange lib.strptime unit now (date.takeWhile (· ≠ 0)) historyDayFormat
  if startTime ≤ 0 ∨ endTime ≤ 0 then return none
  return some ⟨"BACKTEST", "BACKTEST", .stock, startTime, endTime, openPrice, close, low,
    high, volume, 0, 1⟩

/-- `now` is the clock that the end of the trading day is compared with. -/
def handleBacktestSyncSignal (now : Int) (s : FileDataService) : Handled δ :=
  let (success, row, reader) := s.reader.readRowInto
  let s := { s with reader }
  if !success then ⟨false, if s.writer then some .termination else none, false, s⟩
  else
    match parseRow lib unit now row with
    | .ok (some bar) => ⟨true, if s.writer then some (.bar bar) else none, false, s⟩
    | .ok none => ⟨true, none, false, s⟩
    | .error .exception => ⟨true, none, false, s⟩
    | .error .beyond => ⟨true, none, true, s⟩

def act (s : FileDataService) (now : Int) : FileDataService :=
  (handleBacktestSyncSignal lib unit now s).service

/-- The column parses as the number that is read from it. -/
def parses (i : Nat) (field : Field) : Bool :=
  if i = 5 then (lib.stol field).isSome else (lib.stod field).isSome

/-- The columns that numbers are read from parse, as far as the row has them. -/
def Numeric (row : List Field) : Prop :=
  ∀ i ∈ [1, 2, 3, 4, 5], ∀ field ∈ row[i]?, parses lib i field

instance (row : List Field) : Decidable (Numeric lib row) :=
  inferInstanceAs (Decidable (∀ i ∈ _, _))

/-- The text of the date, which goes through a C string. -/
def dateText (row : List Field) : Field := (row.headD []).takeWhile (· ≠ 0)

/-- What `strptime` makes of the date of a row. -/
def parsedDate (row : List Field) : Int := lib.strptime (dateText row) historyDayFormat

section Rows

/-- A row is read behind its end when it is short and its columns parse, and it throws when one
does not. -/
theorem parseRow_cases (now : Int) (row : List Field) :
    (Numeric lib row ∧ row.length < 6 ∧ parseRow lib unit now row = .error .beyond) ∨
      (¬ Numeric lib row ∧ parseRow lib unit now row = .error .exception) ∨
        Numeric lib row ∧ 6 ≤ row.length ∧
          let range := strptimerange lib.strptime unit now (dateText row) historyDayFormat
          ((range.1 ≤ 0 ∨ range.2 ≤ 0) ∧ parseRow lib unit now row = .ok none) ∨
            0 < range.1 ∧ 0 < range.2 ∧ ∃ bar, parseRow lib unit now row = .ok (some bar) ∧
              (bar.startTime, bar.endTime) = range := by
  have absent {i j : Nat} (gone : row[i]? = none) (le : i ≤ j) :
      ∀ field ∈ row[j]?, parses lib j field := by
    have later : row[j]? = none :=
      List.getElem?_eq_none_iff.mpr ((List.getElem?_eq_none_iff.mp gone).trans le)
    simp [later]
  have short {i : Nat} (gone : row[i]? = none) (le : i ≤ 5) : row.length < 6 := by
    rw [List.getElem?_eq_none_iff] at gone
    omega
  simp only [Numeric, List.forall_mem_cons, List.not_mem_nil, false_implies, implies_true, and_true]
  rcases column_cases (rfl : parseRow lib unit now row = _) with ⟨gone, read⟩ | ⟨bad, read⟩ | ⟨_,
    first, close, read⟩
  · have rest {j : Nat} (le : 1 ≤ j) := absent gone le
    exact .inl ⟨⟨rest le_rfl, rest (by omega), rest (by omega), rest (by omega), rest (by omega)⟩,
      short gone (by omega), read⟩
  · exact .inr (.inl ⟨fun all => bad all.1, read⟩)
  rcases column_cases read with ⟨gone, read⟩ | ⟨bad, read⟩ | ⟨_, second, high, read⟩
  · have rest {j : Nat} (le : 2 ≤ j) := absent gone le
    exact .inl ⟨⟨first, rest le_rfl, rest (by omega), rest (by omega), rest (by omega)⟩,
      short gone (by omega), read⟩
  · exact .inr (.inl ⟨fun all => bad all.2.1, read⟩)
  rcases column_cases read with ⟨gone, read⟩ | ⟨bad, read⟩ | ⟨_, third, low, read⟩
  · have rest {j : Nat} (le : 3 ≤ j) := absent gone le
    exact .inl ⟨⟨first, second, rest le_rfl, rest (by omega), rest (by omega)⟩,
      short gone (by omega), read⟩
  · exact .inr (.inl ⟨fun all => bad all.2.2.1, read⟩)
  rcases column_cases read with ⟨gone, read⟩ | ⟨bad, read⟩ | ⟨_, fourth, openPrice, read⟩
  · have rest {j : Nat} (le : 4 ≤ j) := absent gone le
    exact .inl ⟨⟨first, second, third, rest le_rfl, rest (by omega)⟩, short gone (by omega), read⟩
  · exact .inr (.inl ⟨fun all => bad all.2.2.2.1, read⟩)
  rcases column_cases read with ⟨gone, read⟩ | ⟨bad, read⟩ | ⟨present, fifth, volume, read⟩
  · exact .inl ⟨⟨first, second, third, fourth, absent gone le_rfl⟩, short gone le_rfl, read⟩
  · exact .inr (.inl ⟨fun all => bad all.2.2.2.2, read⟩)
  refine .inr (.inr ⟨⟨first, second, third, fourth, fifth⟩, present, ?_⟩)
  obtain ⟨date, rest, rfl⟩ : ∃ date rest, row = date :: rest :=
    List.exists_cons_of_length_pos (by omega)
  generalize rangeEq :
    strptimerange lib.strptime unit now (dateText (date :: rest)) historyDayFormat = range
  have ran : parseRow lib unit now (date :: rest) =
      if range.1 ≤ 0 ∨ range.2 ≤ 0 then .ok none
      else .ok (some ⟨"BACKTEST", "BACKTEST", .stock, range.1, range.2, openPrice, close, low, high,
        volume, 0, 1⟩) := by
    rw [read, ← rangeEq]
    rfl
  rw [ran]
  by_cases invalid : range.1 ≤ 0 ∨ range.2 ≤ 0
  · exact .inl ⟨invalid, if_pos invalid⟩
  · rw [if_neg invalid]
    push Not at invalid
    exact .inr ⟨invalid.1, invalid.2, _, rfl, rfl⟩

end Rows

section Calls

theorem act_reader (s : FileDataService) (now : Int) :
    act lib unit s now = { s with reader := s.reader.readRowInto.2.2 } := by
  simp only [act, handleBacktestSyncSignal]
  split
  · rfl
  · split <;> rfl

theorem handle_terminates (s : FileDataService) (now : Int) :
    (handleBacktestSyncSignal lib unit now s).published = some .termination ↔
      s.writer = true ∧ s.reader.readRowInto.1 = false := by
  cases success : s.reader.readRowInto.1 with
  | false => cases writes : s.writer <;> simp [handleBacktestSyncSignal, success, writes]
  | true =>
    simp only [handleBacktestSyncSignal, success, Bool.not_true, Bool.false_eq_true, if_false]
    split
    · cases writes : s.writer <;> simp
    all_goals simp

/-- The service after that many calls, whatever the clock read in them. -/
theorem foldl_act (s : FileDataService) (clocks : List Int) :
    clocks.foldl (act lib unit) s = { s with reader := s.reader.reads clocks.length } := by
  induction clocks using List.reverseRecOn with
  | nil => rfl
  | append_singleton clocks now ih =>
    rw [List.foldl_append, ih, List.foldl_cons, List.foldl_nil, act_reader, List.length_append]
    rfl

/-- The calls of a run, and a run for each call. -/
theorem moves_reads (s : FileDataService) (t : FileDataService) :
    (∃ clocks, ∃ move ∈ Runs.moves (act lib unit) s clocks, move.1 = t) ↔
      ∃ n, t = { s with reader := s.reader.reads n } := by
  constructor
  · rintro ⟨clocks, move, member, rfl⟩
    induction clocks using List.reverseRecOn with
    | nil => cases member
    | append_singleton clocks now ih =>
      rw [Runs.moves_append, List.mem_append] at member
      rcases member with before | last
      · exact ih before
      · rw [List.mem_singleton.mp last]
        exact ⟨clocks.length, foldl_act lib unit s clocks⟩
  · rintro ⟨n, rfl⟩
    have run := foldl_act lib unit s (List.replicate n 0)
    rw [List.length_replicate] at run
    refine ⟨List.replicate n 0 ++ [0], (_, 0), ?_, run⟩
    rw [Runs.moves_append]
    exact List.mem_append_right _ List.mem_cons_self

theorem start_reading {file : List UInt8} (headed : getline file = some (header, rest))
    (delimiter quoteChar : UInt8) :
    (CSVReader.make delimiter quoteChar file).readHeader.2.Reading ∧
      (CSVReader.make delimiter quoteChar file).readHeader.2.rest = rest ∧
      (CSVReader.make delimiter quoteChar file).readHeader.2.delimiter = delimiter ∧
      (CSVReader.make delimiter quoteChar file).readHeader.2.quoteChar = quoteChar := by
  have read : (CSVReader.make delimiter quoteChar file).readHeader.2 =
      { CSVReader.make delimiter quoteChar file with
        headers := ((CSVReader.make delimiter quoteChar file).parseLineInto header).2,
        headerRead := true, rest } := by
    simp [CSVReader.readHeader, CSVReader.make, headed]
  rw [read]
  exact ⟨⟨rfl, rfl⟩, rfl, rfl, rfl⟩

end Calls

/-- In each run the `Termination` comes when only empty lines are left. -/
def TerminatesLast (s : FileDataService) : Prop :=
  ∀ clocks, ∀ move ∈ Runs.moves (act lib unit) s clocks,
    (handleBacktestSyncSignal lib unit move.2 move.1).published = some .termination →
      ∀ line ∈ fileLines move.1.reader.rest, line = []

theorem terminatesLast_iff {s : FileDataService} (reading : s.reader.Reading)
    (writes : s.writer = true) :
    TerminatesLast lib unit s ↔ EmptyTail (fileLines s.reader.rest) := by
  rw [← CSVReader.ends_iff reading]
  constructor
  · intro terminates n no line member
    obtain ⟨clocks, move, taken, here⟩ := (moves_reads lib unit s _).mpr ⟨n, rfl⟩
    refine terminates clocks move taken ((handle_terminates lib unit move.1 move.2).mpr ?_) line ?_
    · rw [here]
      exact ⟨writes, no⟩
    · rw [here]
      exact member
  · intro ends clocks move member ended
    obtain ⟨n, here⟩ := (moves_reads lib unit s move.1).mp ⟨clocks, move, member, rfl⟩
    have no := ((handle_terminates lib unit move.1 move.2).mp ended).2
    rw [here] at no ⊢
    exact ends n no

/-- The reader says no at the end only just when no line is empty. It reads all rows, and the
`Termination` comes behind them, just when there are only empty lines behind an empty one. -/
theorem reading_iff {δ : Type} {file header rest : List UInt8}
    (headed : getline file = some (header, rest))
    (delimiter quoteChar : UInt8) (lib : TextLib δ) (unit : TimeUnit) :
    let reader := (CSVReader.make delimiter quoteChar file).readHeader.2
    ((∀ n, (reader.reads n).readRowInto.1 = false → getline (reader.reads n).rest = none) ↔
      [] ∉ fileLines rest) ∧
      ((∀ n, (reader.reads n).readRows =
        ((fileLines (reader.reads n).rest).filter (· ≠ [])).map fun line =>
          CSVReader.parseLoop delimiter quoteChar line false [] []) ↔ EmptyTail (fileLines rest)) ∧
      (TerminatesLast lib unit (setup file true).start ↔ EmptyTail (fileLines rest)) := by
  intro reader
  obtain ⟨reading, left, delimited, quoted⟩ := start_reading headed delimiter quoteChar
  have stops := CSVReader.stops_iff reading
  have rows := CSVReader.readRows_iff reading
  rw [left] at stops rows
  rw [delimited, quoted] at rows
  obtain ⟨reading', left', _⟩ := start_reading headed 44 34
  have terminates := terminatesLast_iff lib unit (s := (setup file true).start) reading' rfl
  refine ⟨stops, rows, ?_⟩
  rw [terminates]
  exact iff_of_eq (congrArg (fun rest => EmptyTail (fileLines rest)) left')

/-- The first character of a number. -/
def leadingDigit (field : Field) : Option Nat :=
  field.head?.bind fun c => if 48 ≤ c ∧ c ≤ 57 then some (c.toNat - 48) else none

/-- Numbers of one digit, and one date: 2023-11-15 in UTC. -/
def oneDigit : TextLib Nat :=
  ⟨leadingDigit, fun field => (leadingDigit field).map Int.ofNat, fun _ _ => 1700006400⟩

theorem getline_gap : getline [104, 10, 10, 49, 10] = some ([104], [10, 49, 10]) := by decide

/-- A header and two lines, the first of them empty. -/
theorem reading_iff_gap :
    let reader := (CSVReader.make 44 34 [104, 10, 10, 49, 10]).readHeader.2
    ((∀ n, (reader.reads n).readRowInto.1 = false → getline (reader.reads n).rest = none) ↔
        [] ∉ fileLines [10, 49, 10]) ∧
      ((∀ n, (reader.reads n).readRows =
        ((fileLines (reader.reads n).rest).filter (· ≠ [])).map fun line =>
          CSVReader.parseLoop 44 34 line false [] []) ↔ EmptyTail (fileLines [10, 49, 10])) ∧
      (TerminatesLast oneDigit .sec (setup [104, 10, 10, 49, 10] true).start ↔
        EmptyTail (fileLines [10, 49, 10])) :=
  reading_iff getline_gap 44 34 oneDigit .sec

/-- The backtest of that file ends before the line `1`. -/
theorem ends_at_gap : ¬ ∀ (file header rest : List UInt8), getline file = some (header, rest) →
    ∀ (lib : TextLib Nat) (unit : TimeUnit), TerminatesLast lib unit (setup file true).start := by
  intro claim
  have ends := claim _ _ _ getline_gap oneDigit .sec
  obtain ⟨reading, left, _⟩ := start_reading getline_gap 44 34
  have tail :=
    (terminatesLast_iff oneDigit .sec
      (s := (setup [104, 10, 10, 49, 10] true).start) reading rfl).mp ends
  have lines : fileLines (setup [104, 10, 10, 49, 10] true).start.reader.rest = [[], [49]] := by
    have rest : (setup [104, 10, 10, 49, 10] true).start.reader.rest = [10, 49, 10] := left
    have first : getline [10, 49, 10] = some ([], [49, 10]) := by decide
    have second : getline [49, 10] = some ([49], []) := by decide
    rw [rest, fileLines_some first, fileLines_some second, fileLines_none rfl]
  rw [lines] at tail
  exact absurd ((List.pairwise_cons.mp tail).1 [49] List.mem_cons_self rfl) (by decide)

section Safety

/-- The row of the next line. -/
def nextRow (s : FileDataService) : List Field := s.reader.readRowInto.2.1

/-- The call reads no column that its row does not have, and a bar it publishes comes of six
columns that parse and a date with a positive range, and begins before it ends. -/
structure Safe (s : FileDataService) (now : Int) : Prop where
  inside : (handleBacktestSyncSignal lib unit now s).beyond = false
  bars : ∀ bar, (handleBacktestSyncSignal lib unit now s).published = some (.bar bar) →
    6 ≤ s.nextRow.length ∧ Numeric lib s.nextRow ∧
      (bar.startTime, bar.endTime) =
        strptimerange lib.strptime unit now (dateText s.nextRow) historyDayFormat ∧
      0 < bar.startTime ∧ 0 < bar.endTime ∧ bar.startTime < bar.endTime

/-- A row that is read has six columns or one that does not parse. When it has six that parse, and
a date with a positive start, the clock is behind 15:30 of the day before. -/
def Meets (s : FileDataService) (now : Int) : Prop := s.reader.readRowInto.1 = true →
  ¬ (s.nextRow.length < 6 ∧ Numeric lib s.nextRow) ∧
    (s.writer = true → 6 ≤ s.nextRow.length → Numeric lib s.nextRow →
      0 < calendarDayStart unit (parsedDate lib s.nextRow) →
      dayEnd unit (parsedDate lib s.nextRow) - unit.day < now)

section Handling
variable {s : FileDataService}

theorem handle_end (now : Int) (refused : s.reader.readRowInto.1 = false) :
    Safe lib unit s now := by
  have handled : (handleBacktestSyncSignal lib unit now s).beyond = false ∧
      ∀ bar, (handleBacktestSyncSignal lib unit now s).published ≠ some (.bar bar) := by
    cases writes : s.writer <;> simp [handleBacktestSyncSignal, refused, writes]
  exact ⟨handled.1, fun bar published => absurd published (handled.2 bar)⟩

variable {now : Int} (success : s.reader.readRowInto.1 = true)
include success

theorem handle_beyond (parsed : parseRow lib unit now s.nextRow = .error .beyond) :
    ¬ Safe lib unit s now := by
  have read : (handleBacktestSyncSignal lib unit now s).beyond = true := by
    rw [nextRow] at parsed
    simp [handleBacktestSyncSignal, success, parsed]
  intro safe
  rw [safe.inside] at read
  contradiction

theorem handle_nothing (parsed : parseRow lib unit now s.nextRow = .error .exception ∨
    parseRow lib unit now s.nextRow = .ok none) : Safe lib unit s now := by
  have handled : (handleBacktestSyncSignal lib unit now s).beyond = false ∧
      (handleBacktestSyncSignal lib unit now s).published = none := by
    rw [nextRow] at parsed
    rcases parsed with parsed | parsed <;> simp [handleBacktestSyncSignal, success, parsed]
  refine ⟨handled.1, fun bar published => ?_⟩
  rw [handled.2] at published
  contradiction

theorem handle_bar {bar : RowBar δ} (parsed : parseRow lib unit now s.nextRow = .ok (some bar)) :
    (handleBacktestSyncSignal lib unit now s).beyond = false ∧
      (handleBacktestSyncSignal lib unit now s).published = if s.writer then some (.bar bar)
        else none := by
  rw [nextRow] at parsed
  simp [handleBacktestSyncSignal, success, parsed]

end Handling

theorem safe_iff (s : FileDataService) (now : Int) :
    Safe lib unit s now ↔ Meets lib unit s now := by
  cases success : s.reader.readRowInto.1 with
  | false =>
    refine iff_of_true (handle_end lib unit now success) fun read => ?_
    rw [success] at read
    contradiction
  | true =>
    have start : (strptimerange lib.strptime unit now (dateText s.nextRow) historyDayFormat).1 =
        calendarDayStart unit (parsedDate lib s.nextRow) := rfl
    have finish : (strptimerange lib.strptime unit now (dateText s.nextRow) historyDayFormat).2 =
        nextTradingDayEnd unit now (calendarDayStart unit (parsedDate lib s.nextRow)) := rfl
    rcases parseRow_cases lib unit now s.nextRow with
      ⟨numeric, short, parsed⟩ | ⟨bad, parsed⟩ | ⟨numeric, six,
        ⟨invalid, parsed⟩ | ⟨positive, positive', bar, parsed, times⟩⟩
    · exact iff_of_false (handle_beyond lib unit success parsed) fun meets =>
        (meets success).1 ⟨short, numeric⟩
    · refine iff_of_true (handle_nothing lib unit success (.inl parsed)) fun _ =>
        ⟨fun both => bad both.2, ?_⟩
      exact fun _ _ numeric => absurd numeric bad
    · refine iff_of_true (handle_nothing lib unit success (.inr parsed)) fun _ =>
        ⟨fun both => absurd both.1 (by omega), ?_⟩
      intro _ _ _ positive
      have finishes := (range_positive unit positive now).1
      rw [start, finish] at invalid
      omega
    · rw [start] at positive
      have clock := (range_positive unit positive now).2
      rw [← finish, ← start, ← times] at clock
      obtain ⟨inside, published⟩ := handle_bar lib unit success parsed
      constructor
      · intro safe _
        refine ⟨fun both => absurd both.1 (by omega), fun writes _ _ _ => clock.mp ?_⟩
        rw [if_pos writes] at published
        obtain ⟨_, _, _, _, _, ordered⟩ := safe.bars bar published
        exact ordered
      · intro meets
        refine ⟨inside, fun other sent => ?_⟩
        by_cases writes : s.writer = true
        · rw [if_pos writes, sent, Option.some.injEq, Published.bar.injEq] at published
          rw [published]
          have ordered := clock.mpr ((meets success).2 writes six numeric positive)
          rw [← times] at positive'
          rw [← start, ← times] at positive
          exact ⟨six, numeric, times, positive, positive', ordered⟩
        · rw [if_neg writes, sent] at published
          contradiction

end Safety

/-- In each run of any file the calls are safe just when their rows and clocks meet the condition.
-/
theorem rows_safe_iff (file : List UInt8) (writer : Bool) (clocks : List Int) :
    (∀ move ∈ Runs.moves (act lib unit) (setup file writer).start clocks,
      Safe lib unit move.1 move.2) ↔
      ∀ move ∈ Runs.moves (act lib unit) (setup file writer).start clocks,
        Meets lib unit move.1 move.2 :=
  forall₂_congr fun move _ => safe_iff lib unit move.1 move.2

/-- The line `2,1` has two columns: the third is read from behind the row. -/
theorem short_row_read :
    ¬ ∀ (lib : TextLib Nat) (unit : TimeUnit) (file : List UInt8) (clocks : List Int),
    ∀ move ∈ Runs.moves (act lib unit) (setup file true).start clocks,
      Safe lib unit move.1 move.2 := by
  intro claim
  have first := claim oneDigit .sec [104, 10, 50, 44, 49, 10] [1700078400] _ List.mem_cons_self
  have split : getline [104, 10, 50, 44, 49, 10] = some ([104], [50, 44, 49, 10]) := by decide
  obtain ⟨reading, left, delimited, quoted⟩ := start_reading split 44 34
  have lines : fileLines [50, 44, 49, 10] = [50, 44, 49] :: [] := by
    have line : getline [50, 44, 49, 10] = some ([50, 44, 49], []) := by decide
    rw [fileLines_some line, fileLines_none rfl]
  obtain ⟨success, row, _⟩ :=
    CSVReader.readRowInto_cons reading ((congrArg fileLines left).trans lines)
  have columns :
      ((CSVReader.make 44 34 [104, 10, 50, 44, 49, 10]).readHeader.2.parseLineInto [50, 44, 49]) =
      (true, [[50], [49]]) := by
    rw [CSVReader.parseLineInto, delimited, quoted]
    simp [CSVReader.parseLoop, CSVReader.unescapeField]
  rw [columns] at success row
  have next : nextRow (setup [104, 10, 50, 44, 49, 10] true).start = [[50], [49]] := row
  refine ((safe_iff _ _ _ _).mp first success).1 ?_
  rw [next]
  exact ⟨by decide, by decide⟩

end FileDataService
end BTrader
