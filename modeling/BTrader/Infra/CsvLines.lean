import BTrader.Infra.CsvRoundTrip

/-! Reading a file of any lines: where the reader says that there is no row. -/
namespace BTrader.Infra

/-- The lines that are left in a file, one for each `getline`. -/
def fileLines (file : List UInt8) : List (List UInt8) :=
  match _read : getline file with
  | some (line, rest) => line :: fileLines rest
  | none => []
termination_by file.length
decreasing_by exact getline_shorter _read

theorem fileLines_some (read : getline file = some (line, rest)) :
    fileLines file = line :: fileLines rest := by
  rw [fileLines]
  split
  · rename_i read'
    rw [read] at read'
    cases read'
    rfl
  · rename_i read'
    rw [read] at read'
    cases read'

theorem fileLines_none (read : getline file = none) : fileLines file = [] := by
  rw [fileLines]
  split
  · rename_i read'
    rw [read] at read'
    cases read'
  · rfl

theorem fileLines_eq_nil : fileLines file = [] ↔ getline file = none := by
  cases read : getline file with
  | none => simp [fileLines_none read]
  | some split => simp [fileLines_some read]

/-- Behind an empty line there are only empty lines. -/
def EmptyTail (lines : List (List UInt8)) : Prop :=
  lines.Pairwise fun line later => line = [] → later = []

/-- Stopping at the first empty line loses nothing just when there are only empty lines behind. -/
theorem takeWhile_eq_filter_iff (lines : List (List UInt8)) :
    lines.takeWhile (· ≠ []) = lines.filter (· ≠ []) ↔ EmptyTail lines := by
  induction lines with
  | nil => simp [EmptyTail]
  | cons line lines ih =>
    rw [EmptyTail, List.pairwise_cons, ← EmptyTail, ← ih]
    by_cases empty : line = []
    · subst empty
      rw [List.takeWhile_cons_of_neg (by simp), List.filter_cons_of_neg (by simp), eq_comm,
        List.filter_eq_nil_iff]
      constructor
      · intro all
        refine ⟨fun later member _ => by simpa using all later member, ?_⟩
        rw [ih, EmptyTail, List.pairwise_iff_forall_sublist]
        intro a b pair _
        simpa using all b (pair.subset (by simp))
      · rintro ⟨all, _⟩ later member
        simpa using all later member rfl
    · rw [List.takeWhile_cons_of_pos (by simpa using empty),
        List.filter_cons_of_pos (by simpa using empty), List.cons.injEq]
      simp [empty]

namespace CSVReader

/-- Rows may be read: the file is open and its header was read. -/
structure Reading (r : CSVReader) : Prop where
  isOpen : r.isOpen
  headerRead : r.headerRead

/-- The reader after that many calls of `read_row_into`. -/
def reads (r : CSVReader) : Nat → CSVReader
  | 0 => r
  | n + 1 => (r.reads n).readRowInto.2.2

section
variable {r : CSVReader}

/-- What a call does with the next line. -/
theorem readRowInto_cons (reading : r.Reading) (next : fileLines r.rest = line :: lines) :
    r.readRowInto.1 = (r.parseLineInto line).1 ∧ r.readRowInto.2.1 = (r.parseLineInto line).2 ∧
      fileLines r.readRowInto.2.2.rest = lines ∧ r.readRowInto.2.2.Reading ∧
      r.readRowInto.2.2.delimiter = r.delimiter ∧ r.readRowInto.2.2.quoteChar = r.quoteChar := by
  cases read : getline r.rest with
  | none =>
    rw [fileLines_none read] at next
    cases next
  | some split =>
    obtain ⟨first, rest⟩ := split
    rw [fileLines_some read, List.cons.injEq] at next
    obtain ⟨rfl, rfl⟩ := next
    have ran :
        r.readRowInto = ((r.parseLineInto first).1, (r.parseLineInto first).2,
        { r with rest }) := by
      simp [readRowInto, reading.isOpen, reading.headerRead, read]
    rw [ran]
    exact ⟨rfl, rfl, rfl, ⟨reading.isOpen, reading.headerRead⟩, rfl, rfl⟩

theorem readRowInto_nil (reading : r.Reading) (ended : fileLines r.rest = []) :
    r.readRowInto = (false, [], r) := by
  have read := fileLines_eq_nil.mp ended
  simp [readRowInto, reading.isOpen, reading.headerRead, read]

/-- Each call takes one line. -/
theorem reads_lines (reading : r.Reading) (n : Nat) :
    (r.reads n).Reading ∧ fileLines (r.reads n).rest = (fileLines r.rest).drop n ∧
      (r.reads n).delimiter = r.delimiter ∧ (r.reads n).quoteChar = r.quoteChar := by
  induction n with
  | zero => exact ⟨reading, rfl, rfl, rfl⟩
  | succ n ih =>
    obtain ⟨reading', left, delimiter, quoteChar⟩ := ih
    have later : (fileLines r.rest).drop (n + 1) = (fileLines (r.reads n).rest).drop 1 := by
      rw [left, List.drop_drop]
    rw [later, reads]
    cases next : fileLines (r.reads n).rest with
    | nil =>
      rw [readRowInto_nil reading' next]
      exact ⟨reading', next, delimiter, quoteChar⟩
    | cons line lines =>
      obtain ⟨_, _, rest, still, delimiter', quoteChar'⟩ := readRowInto_cons reading' next
      exact ⟨still, rest, delimiter'.trans delimiter, quoteChar'.trans quoteChar⟩

theorem parseLineInto_false_iff (line : List UInt8) :
    (r.parseLineInto line).1 = false ↔ line = [] := by
  unfold parseLineInto
  split <;> simp [*]

/-- A call says no at the end of the file, and at an empty line. -/
theorem readRowInto_false_iff (reading : r.Reading) :
    r.readRowInto.1 = false ↔ ∀ line ∈ (fileLines r.rest).head?, line = [] := by
  cases next : fileLines r.rest with
  | nil => simp [readRowInto_nil reading next]
  | cons line lines =>
    rw [(readRowInto_cons reading next).1, parseLineInto_false_iff]
    simp

/-- All calls say no only at the end just when no line is empty. -/
theorem stops_iff (reading : r.Reading) :
    (∀ n, (r.reads n).readRowInto.1 = false → getline (r.reads n).rest = none) ↔
      [] ∉ fileLines r.rest := by
  constructor
  · intro stops empty
    obtain ⟨n, bound, here⟩ := List.mem_iff_getElem.mp empty
    obtain ⟨reading', left, _⟩ := reads_lines reading n
    have next : (fileLines (r.reads n).rest).head? = some [] := by
      rw [left, List.head?_drop, List.getElem?_eq_getElem bound, here]
    have ended :=
      fileLines_eq_nil.mpr (stops n ((readRowInto_false_iff reading').mpr (by simp [next])))
    rw [ended] at next
    cases next
  · intro full n no
    obtain ⟨reading', left, _⟩ := reads_lines reading n
    rw [← fileLines_eq_nil]
    cases next : fileLines (r.reads n).rest with
    | nil => rfl
    | cons line lines =>
      have empty : line = [] := (readRowInto_false_iff reading').mp no line (by simp [next])
      have member : line ∈ fileLines r.rest := by
        refine List.mem_of_mem_drop (i := n) ?_
        rw [← left, next]
        exact List.mem_cons_self
      exact absurd (empty ▸ member) full

/-- `read_all_rows` has the rows of the lines before the first empty one. -/
theorem readRows_eq (reading : r.Reading) : r.readRows =
    ((fileLines r.rest).takeWhile (· ≠ [])).map fun line =>
      parseLoop r.delimiter r.quoteChar line false [] [] := by
  generalize linesEq : fileLines r.rest = lines
  induction lines generalizing r with
  | nil => simp [readRows_none (by rw [readRowInto_nil reading linesEq])]
  | cons line lines ih =>
    obtain ⟨success, row, rest, still, delimiter, quoteChar⟩ := readRowInto_cons reading linesEq
    by_cases empty : line = []
    · rw [readRows_none (success.trans ((parseLineInto_false_iff line).mpr empty))]
      simp [empty]
    · have parsed :
        r.parseLineInto line = (true, parseLoop r.delimiter r.quoteChar line false [] []) :=
        if_neg empty
      rw [parsed] at success row
      rw [readRows_some (Prod.ext success (Prod.ext row rfl)), ih still rest, delimiter, quoteChar,
        List.takeWhile_cons_of_pos (by simpa using empty), List.map_cons]

/-- Where a call says no there is nothing behind but empty lines. -/
theorem ends_iff (reading : r.Reading) :
    (∀ n, (r.reads n).readRowInto.1 = false → ∀ line ∈ fileLines (r.reads n).rest, line = []) ↔
      EmptyTail (fileLines r.rest) := by
  constructor
  · intro ends
    rw [EmptyTail, List.pairwise_iff_getElem]
    intro i j here there before empty
    obtain ⟨reading', left, _⟩ := reads_lines reading i
    rw [List.drop_eq_getElem_cons here] at left
    refine ends i ((readRowInto_false_iff reading').mpr (by simp [left, empty])) _ ?_
    rw [left]
    refine List.mem_cons_of_mem _ (List.mem_of_getElem? (i := j - (i + 1)) ?_)
    rw [List.getElem?_drop, Nat.add_sub_cancel' before, List.getElem?_eq_getElem there]
  · intro tail n no line member
    obtain ⟨reading', left, _⟩ := reads_lines reading n
    have tail' : EmptyTail (fileLines (r.reads n).rest) := by
      rw [left]
      exact tail.sublist (List.drop_sublist _ _)
    cases next : fileLines (r.reads n).rest with
    | nil =>
      rw [next] at member
      cases member
    | cons first lines =>
      have empty : first = [] := (readRowInto_false_iff reading').mp no first (by simp [next])
      rw [next] at member tail'
      rcases List.mem_cons.mp member with rfl | behind
      · exact empty
      · exact (List.pairwise_cons.mp tail').1 line behind empty

/-- `read_all_rows` has a row for each line that is not empty, however many rows were read before,
just when there are only empty lines behind an empty one. -/
theorem readRows_iff (reading : r.Reading) :
    (∀ n, (r.reads n).readRows = ((fileLines (r.reads n).rest).filter (· ≠ [])).map fun line =>
        parseLoop r.delimiter r.quoteChar line false [] []) ↔ EmptyTail (fileLines r.rest) := by
  constructor
  · intro complete
    have rows := complete 0
    rw [reads, readRows_eq reading] at rows
    have lengths := congrArg List.length rows
    rw [List.length_map, List.length_map] at lengths
    have shorter := (List.takeWhile_sublist (l := fileLines r.rest) (· ≠ [])).filter (· ≠ [])
    rw [List.filter_eq_self.mpr fun _ => List.mem_takeWhile_imp] at shorter
    exact (takeWhile_eq_filter_iff _).mp (shorter.eq_of_length lengths)
  · intro tail n
    obtain ⟨reading', left, delimiter, quoteChar⟩ := reads_lines reading n
    have tail' : EmptyTail (fileLines (r.reads n).rest) := by
      rw [left]
      exact tail.sublist (List.drop_sublist _ _)
    rw [readRows_eq reading', (takeWhile_eq_filter_iff _).mpr tail', delimiter, quoteChar]

end
end CSVReader
end BTrader.Infra
