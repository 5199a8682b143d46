import BTrader.Infra.Csv

/-! What a reader gets of the rows a writer wrote. -/
namespace BTrader.Infra

namespace CSVWriter

/-- What is in the file when the buffer is flushed. -/
def content (w : CSVWriter) : List UInt8 := w.file ++ w.writeBuffer

/-- The writer's state apart from its content. -/
def Like (w other : CSVWriter) : Prop := w.isOpen = other.isOpen ∧ w.delimiter = other.delimiter

theorem flush_content (w : CSVWriter) : w.flush.content = w.content ∧ w.flush.Like w := by
  unfold flush
  split
  · exact ⟨by simp [content], rfl, rfl⟩
  · exact ⟨rfl, rfl, rfl⟩

theorem flush_writeBuffer {w : CSVWriter} (isOpen : w.isOpen) : w.flush.writeBuffer = [] := by
  unfold flush
  split
  · rfl
  · rename_i kept
    simpa [isOpen] using kept

theorem writeField_content {w : CSVWriter} (isOpen : w.isOpen) (field : Field) :
    (w.writeField field).content = w.content ++ field ∧ (w.writeField field).Like w := by
  -- What is flushed first changes neither.
  have first : ∃ w' : CSVWriter, w'.content = w.content ∧ w'.Like w ∧ w.writeField field =
      if field.length ≤ w'.bufferSize then { w' with writeBuffer := w'.writeBuffer ++ field }
      else { w'.flush with file := w'.flush.file ++ field } := by
    by_cases full : w.bufferSize < w.writeBuffer.length + field.length
    · exact ⟨w.flush, (flush_content w).1, (flush_content w).2, by rw [writeField, if_pos full]⟩
    · exact ⟨w, rfl, ⟨rfl, rfl⟩, by rw [writeField, if_neg full]⟩
  obtain ⟨w', same, like, written⟩ := first
  rw [written]
  split
  · refine ⟨?_, like⟩
    rw [← same, content, content, List.append_assoc]
  · have empty := flush_writeBuffer (like.1.trans isOpen)
    obtain ⟨flushed, like'⟩ := flush_content w'
    refine ⟨?_, like'.1.trans like.1, like'.2.trans like.2⟩
    rw [← same, ← flushed, content, content, empty, List.append_nil, List.append_nil]

/-- The line of a row. -/
def line (delimiter : UInt8) (row : List Field) : List UInt8 := [delimiter].intercalate row

theorem line_cons (delimiter : UInt8) (field : Field) (row : List Field) :
    line delimiter (field :: row) = field ++ row.flatMap (delimiter :: ·) := by
  induction row generalizing field with
  | nil => simp [line]
  | cons next row ih =>
    have rest : line delimiter (field :: next :: row) =
        field ++ delimiter :: line delimiter (next :: row) := by
      simp [line, List.intercalate_cons_cons]
    rw [rest, ih, List.flatMap_cons]
    rfl

theorem writeNext_content {w : CSVWriter} (isOpen : w.isOpen) (entry : Field × Nat) :
    (w.writeNext entry).content =
      w.content ++ ((if 0 < entry.2 then [w.delimiter] else []) ++ entry.1) ∧
      (w.writeNext entry).Like w := by
  rw [writeNext]
  split
  · obtain ⟨mark, like⟩ := writeField_content isOpen [w.delimiter]
    obtain ⟨field, like'⟩ := writeField_content (like.1.trans isOpen) entry.1
    exact ⟨by rw [field, mark, List.append_assoc], like'.1.trans like.1, like'.2.trans like.2⟩
  · exact writeField_content isOpen entry.1

theorem writeNexts_content {w : CSVWriter} (isOpen : w.isOpen) (entries : List (Field × Nat)) :
    (entries.foldl writeNext w).content =
        w.content ++ entries.flatMap
          (fun entry => (if 0 < entry.2 then [w.delimiter] else []) ++ entry.1) ∧
      (entries.foldl writeNext w).Like w := by
  induction entries generalizing w with
  | nil => exact ⟨by simp, rfl, rfl⟩
  | cons entry entries ih =>
    obtain ⟨written, like⟩ := writeNext_content isOpen entry
    obtain ⟨later, like'⟩ := ih (like.1.trans isOpen)
    rw [List.foldl_cons, later, written, like.2, List.flatMap_cons, List.append_assoc]
    exact ⟨rfl, like'.1.trans like.1, like'.2.trans like.2⟩

/-- The pieces that the loop over a row writes make its line. -/
theorem pieces_line (delimiter : UInt8) (row : List Field) :
    row.zipIdx.flatMap (fun entry => (if 0 < entry.2 then [delimiter] else []) ++ entry.1) =
      line delimiter row := by
  have later (fields : List Field) (k : Nat) :
      (fields.zipIdx (k + 1)).flatMap
        (fun entry => (if 0 < entry.2 then [delimiter] else []) ++ entry.1) =
        fields.flatMap (delimiter :: ·) := by
    induction fields generalizing k with
    | nil => rfl
    | cons field fields ih => simp [List.zipIdx_cons, ih]
  cases row with
  | nil => rfl
  | cons field row => simp [List.zipIdx_cons, later, line_cons]

theorem writeRow_content {w : CSVWriter} (isOpen : w.isOpen) (row : List Field) :
    (w.writeRow row).1 = true ∧
      (w.writeRow row).2.content = w.content ++ (line w.delimiter row ++ [newline]) ∧
      (w.writeRow row).2.Like w := by
  have written : w.writeRow row = (true, (row.zipIdx.foldl writeNext w).writeField [newline]) := by
    simp [writeRow, isOpen]
  obtain ⟨fields, like⟩ := writeNexts_content isOpen row.zipIdx
  obtain ⟨ended, like'⟩ := writeField_content (like.1.trans isOpen) [newline]
  rw [written]
  refine ⟨rfl, ?_, like'.1.trans like.1, like'.2.trans like.2⟩
  change (writeField _ _).content = _
  rw [ended, fields, pieces_line, List.append_assoc]

theorem writeRowsFrom_content {w : CSVWriter} (isOpen : w.isOpen) (rows : List (List Field)) :
    (w.writeRowsFrom rows).2.content =
      w.content ++ rows.flatMap (fun row => line w.delimiter row ++ [newline]) ∧
      (w.writeRowsFrom rows).2.isOpen := by
  induction rows generalizing w with
  | nil => exact ⟨by simp [writeRowsFrom], isOpen⟩
  | cons row rows ih =>
    obtain ⟨success, written, like⟩ := writeRow_content isOpen row
    obtain ⟨later, stillOpen⟩ := ih (like.1.trans isOpen)
    have step : w.writeRowsFrom (row :: rows) = (w.writeRow row).2.writeRowsFrom rows := by
      simp only [writeRowsFrom, success, if_true]
    rw [step, later, written, like.2, List.flatMap_cons, List.append_assoc]
    exact ⟨rfl, stillOpen⟩

/-- The file of a header and rows. -/
def fileOf (delimiter quoteChar : UInt8) (bufferSize : Nat) (header : List Field)
    (rows : List (List Field)) : List UInt8 :=
  (((make delimiter quoteChar bufferSize).writeHeader header).2.writeRows rows).2.close.file

theorem fileOf_eq (delimiter quoteChar : UInt8) (bufferSize : Nat) (header : List Field)
    (rows : List (List Field)) :
    fileOf delimiter quoteChar bufferSize header rows =
      (header :: rows).flatMap fun row => line delimiter row ++ [newline] := by
  obtain ⟨success, written, like⟩ :=
    @writeRow_content (make delimiter quoteChar bufferSize) rfl header
  let w : CSVWriter :=
    { ((make delimiter quoteChar bufferSize).writeRow header).2 with headerWritten := true }
  have headed : ((make delimiter quoteChar bufferSize).writeHeader header).2 = w := by
    have closed : (make delimiter quoteChar bufferSize).headerWritten = false := rfl
    have isOpen : (make delimiter quoteChar bufferSize).isOpen = true := rfl
    simp only [writeHeader, closed, isOpen, success, Bool.not_true, Bool.false_eq_true,
      if_false, if_true, w]
  have isOpen : w.isOpen = true := like.1
  obtain ⟨later, stillOpen⟩ := writeRowsFrom_content isOpen rows
  have content (w' : CSVWriter) (isOpen : w'.isOpen) : w'.close.file = w'.content := by
    have flushed := (flush_content w').1
    rw [content, flush_writeBuffer isOpen, List.append_nil] at flushed
    exact flushed
  have rowsWritten : (w.writeRows rows).2 = (w.writeRowsFrom rows).2 := by
    simp only [writeRows, isOpen, Bool.not_true, Bool.false_eq_true, if_false]
  have start : w.content = line delimiter header ++ [newline] := written
  have delimited : w.delimiter = delimiter := like.2
  rw [fileOf, headed, rowsWritten, content _ stillOpen, later, start, delimited, List.flatMap_cons]

end CSVWriter
namespace CSVReader
variable {delimiter quoteChar : UInt8}

theorem undouble_sublist (field : List UInt8) : (undouble quoteChar field).Sublist field := by
  induction field using undouble.induct quoteChar with
  | case1 c c' field both ih =>
    rw [undouble, if_pos both]
    obtain ⟨rfl, _⟩ := both
    exact (ih.cons c').cons_cons c
  | case2 c c' field other ih =>
    rw [undouble, if_neg other]
    exact ih.cons_cons c
  | case3 field short =>
    unfold undouble
    split
    · exact absurd rfl (short _ _ _)
    · exact .refl _

/-- Unescaping takes characters away. -/
theorem unescapeField_sublist (field : Field) : (unescapeField quoteChar field).Sublist field := by
  rw [unescapeField]
  split
  · exact .refl _
  · exact (undouble_sublist _).trans ((List.take_sublist _ _).trans (List.drop_sublist _ _))

theorem unescapeField_plain {field : Field} (plain : quoteChar ∉ field) :
    unescapeField quoteChar field = field := by
  rw [unescapeField, if_pos]
  left
  intro first
  exact plain (List.mem_of_head? first)

/-- The characters of some fields, with one for what stands behind each. -/
def weight (fields : List Field) : Nat := (fields.map fun field => field.length + 1).sum

theorem parseLoop_weight (line : List UInt8) (inQuotes : Bool) (currentField : Field)
    (fields : List Field) :
    weight (parseLoop delimiter quoteChar line inQuotes currentField fields) ≤
        weight fields + currentField.length + line.length + 1 ∧
      (quoteChar ∈ line → weight (parseLoop delimiter quoteChar line inQuotes currentField fields) <
        weight fields + currentField.length + line.length + 1) := by
  have close (fields : List Field) (currentField : Field) :
      weight (fields ++ [unescapeField quoteChar currentField]) ≤
        weight fields + currentField.length + 1 := by
    have shorter := (@unescapeField_sublist quoteChar currentField).length_le
    simp only [weight, List.map_append, List.map_singleton, List.sum_append, List.sum_singleton]
    omega
  induction line, inQuotes, currentField, fields using parseLoop.induct delimiter quoteChar with
  | case1 inQuotes currentField fields =>
    rw [parseLoop]
    exact ⟨close fields currentField, fun quoted => nomatch quoted⟩
  | case2 line inQuotes currentField fields doubled ih =>
    rw [parseLoop, if_pos rfl, if_pos doubled]
    have tail : line.tail.length + 1 = line.length := by
      cases line with
      | nil => cases doubled.2
      | cons c line => rfl
    have bound := ih.1
    rw [List.length_append, List.length_singleton] at bound
    rw [List.length_cons]
    exact ⟨by omega, fun _ => by omega⟩
  | case3 line inQuotes currentField fields single ih =>
    rw [parseLoop, if_pos rfl, if_neg single]
    have bound := ih.1
    rw [List.length_cons]
    exact ⟨by omega, fun _ => by omega⟩
  | case4 c line inQuotes currentField fields other ends ih =>
    rw [parseLoop, if_neg other, if_pos ends]
    have closed := close fields currentField
    obtain ⟨bound, strict⟩ := ih
    rw [List.length_nil] at bound strict
    rw [List.length_cons]
    refine ⟨by omega, fun quoted => ?_⟩
    have later := strict ((List.mem_cons.mp quoted).resolve_left (Ne.symm other))
    omega
  | case5 c line inQuotes currentField fields other inside ih =>
    rw [parseLoop, if_neg other, if_neg inside]
    obtain ⟨bound, strict⟩ := ih
    rw [List.length_append, List.length_singleton] at bound strict
    rw [List.length_cons]
    refine ⟨by omega, fun quoted => ?_⟩
    have later := strict ((List.mem_cons.mp quoted).resolve_left (Ne.symm other))
    omega

/-- The fields have only characters of the line. -/
theorem parseLoop_free {x : UInt8} {line : List UInt8} {inQuotes : Bool} {currentField : Field}
    {fields : List Field} (freeLine : x ∉ line) (freeCurrent : x ∉ currentField)
    (freeFields : ∀ field ∈ fields, x ∉ field) :
    ∀ field ∈ parseLoop delimiter quoteChar line inQuotes currentField fields, x ∉ field := by
  have close {fields : List Field} {currentField : Field} (freeCurrent : x ∉ currentField)
      (freeFields : ∀ field ∈ fields, x ∉ field) :
        ∀ field ∈ fields ++ [unescapeField quoteChar currentField], x ∉ field := by
    intro field member
    rcases List.mem_append.mp member with before | last
    · exact freeFields field before
    · rw [List.mem_singleton.mp last]
      exact fun inside => freeCurrent ((unescapeField_sublist currentField).subset inside)
  induction line, inQuotes, currentField, fields using parseLoop.induct delimiter quoteChar with
  | case1 inQuotes currentField fields =>
    rw [parseLoop]
    exact close freeCurrent freeFields
  | case2 line inQuotes currentField fields doubled ih =>
    rw [List.mem_cons, not_or] at freeLine
    rw [parseLoop, if_pos rfl, if_pos doubled]
    refine ih (fun member => freeLine.2 (List.mem_of_mem_tail member)) ?_ freeFields
    simpa [freeCurrent] using freeLine.1
  | case3 line inQuotes currentField fields single ih =>
    rw [List.mem_cons, not_or] at freeLine
    rw [parseLoop, if_pos rfl, if_neg single]
    exact ih freeLine.2 freeCurrent freeFields
  | case4 c line inQuotes currentField fields other ends ih =>
    rw [List.mem_cons, not_or] at freeLine
    rw [parseLoop, if_neg other, if_pos ends]
    exact ih freeLine.2 List.not_mem_nil (close freeCurrent freeFields)
  | case5 c line inQuotes currentField fields other inside ih =>
    rw [List.mem_cons, not_or] at freeLine
    rw [parseLoop, if_neg other, if_neg inside]
    refine ih freeLine.2 ?_ freeFields
    simpa [freeCurrent] using freeLine.1

/-- Without quotes the line is split at the delimiters. -/
theorem parseLoop_plain {line : List UInt8} (plain : quoteChar ∉ line) (currentField : Field)
    (fields : List Field) (plainCurrent : quoteChar ∉ currentField) :
    parseLoop delimiter quoteChar line false currentField fields =
      fields ++ (line.splitOn delimiter).modifyHead (currentField ++ ·) := by
  induction line generalizing currentField fields with
  | nil => rw [parseLoop, unescapeField_plain plainCurrent, List.splitOn_nil, List.modifyHead_cons,
      List.append_nil]
  | cons c line ih =>
    rw [List.mem_cons, not_or] at plain
    rw [parseLoop, if_neg (Ne.symm plain.1), List.splitOn_cons_eq_if_modifyHead]
    obtain ⟨first, rest, split⟩ := List.exists_cons_of_ne_nil (List.splitOn_ne_nil delimiter line)
    by_cases ends : c = delimiter
    · rw [if_pos ⟨ends, Bool.false_ne_true⟩, unescapeField_plain plainCurrent,
        ih plain.2 _ _ List.not_mem_nil, if_pos (beq_iff_eq.mpr ends), split]
      simp
    · have current : quoteChar ∉ currentField ++ [c] := by simpa [plainCurrent] using plain.1
      rw [if_neg fun both => ends both.1, ih plain.2 _ _ current,
        if_neg (by simpa using ends), split]
      simp

/-- No part that a line is split into has the mark. -/
theorem not_mem_splitOn {mark : UInt8} (line : List UInt8) :
    ∀ part ∈ line.splitOn mark, mark ∉ part := by
  induction line with
  | nil => simp
  | cons c line ih =>
    rw [List.splitOn_cons_eq_if_modifyHead]
    obtain ⟨first, rest, split⟩ := List.exists_cons_of_ne_nil (List.splitOn_ne_nil mark line)
    rw [split, List.forall_mem_cons] at ih
    rw [split]
    by_cases ends : c = mark
    · rw [if_pos (beq_iff_eq.mpr ends), List.forall_mem_cons, List.forall_mem_cons]
      exact ⟨List.not_mem_nil, ih⟩
    · rw [if_neg (by simpa using ends), List.modifyHead_cons, List.forall_mem_cons]
      refine ⟨?_, ih.2⟩
      rw [List.mem_cons, not_or]
      exact ⟨Ne.symm ends, ih.1⟩

/-- A field that needs no quotes. -/
def Bare (delimiter quoteChar : UInt8) (field : Field) : Prop :=
  delimiter ∉ field ∧ quoteChar ∉ field

theorem weight_line {row : List Field} (nonempty : row ≠ []) :
    weight row = (CSVWriter.line delimiter row).length + 1 := by
  obtain ⟨field, row, rfl⟩ := List.exists_cons_of_ne_nil nonempty
  have rest :
      (row.flatMap (delimiter :: ·)).length = (row.map fun field => field.length + 1).sum := by
    rw [List.length_flatMap]
    rfl
  rw [CSVWriter.line_cons, weight, List.map_cons, List.sum_cons, List.length_append, rest]
  omega

theorem mem_line {x : UInt8} {row : List Field} (nonempty : row ≠ []) (other : x ≠ delimiter) :
    x ∈ CSVWriter.line delimiter row ↔ ∃ field ∈ row, x ∈ field := by
  obtain ⟨field, row, rfl⟩ := List.exists_cons_of_ne_nil nonempty
  rw [CSVWriter.line_cons, List.mem_append, List.mem_flatMap, List.exists_mem_cons_iff]
  simp [other]

/-- A row comes back from its line just when none of its fields needs quotes. -/
theorem parseLoop_line_iff (distinct : quoteChar ≠ delimiter) {row : List Field}
    (nonempty : row ≠ []) :
    parseLoop delimiter quoteChar (CSVWriter.line delimiter row) false [] [] = row ↔
      ∀ field ∈ row, Bare delimiter quoteChar field := by
  have same (plain : quoteChar ∉ CSVWriter.line delimiter row) :
      parseLoop delimiter quoteChar (CSVWriter.line delimiter row) false [] [] =
        (CSVWriter.line delimiter row).splitOn delimiter := by
    obtain ⟨first, rest, split⟩ :=
      List.exists_cons_of_ne_nil (List.splitOn_ne_nil delimiter (CSVWriter.line delimiter row))
    rw [parseLoop_plain plain [] [] List.not_mem_nil, split]
    rfl
  constructor
  · intro back
    have plain : quoteChar ∉ CSVWriter.line delimiter row := by
      intro quoted
      have lighter :=
        (@parseLoop_weight delimiter _ (CSVWriter.line delimiter row) false [] []).2 quoted
      rw [back, @weight_line delimiter _ nonempty] at lighter
      simp [weight] at lighter
    have unquoted := mt (mem_line nonempty distinct).mpr plain
    rw [same plain] at back
    intro field member
    refine ⟨?_, fun inside => unquoted ⟨field, member, inside⟩⟩
    rw [← back] at member
    exact not_mem_splitOn _ field member
  · intro bare
    have plain : quoteChar ∉ CSVWriter.line delimiter row := by
      rw [mem_line nonempty distinct]
      rintro ⟨field, member, inside⟩
      exact (bare field member).2 inside
    rw [same plain]
    exact List.splitOn_intercalate delimiter (fun field member => (bare field member).1) nonempty

theorem getline_line {line : List UInt8} (free : newline ∉ line) (rest : List UInt8) :
    getline (line ++ newline :: rest) = some (line, rest) := by
  have inside : ∀ c ∈ line, decide (c ≠ newline) = true := by
    intro c member
    simpa using fun same : c = newline => free (same ▸ member)
  rw [getline, if_neg (by simp), List.takeWhile_append_of_pos inside,
    List.dropWhile_append_of_pos inside,
    List.takeWhile_cons_of_neg (by simp), List.dropWhile_cons_of_neg (by simp), List.append_nil]
  rfl

/-- No line has an end of line in it. -/
theorem getline_free {file line rest : List UInt8} (read : getline file = some (line, rest)) :
    newline ∉ line := by
  unfold getline at read
  split at read
  · cases read
  · cases read
    intro inside
    simpa using List.mem_takeWhile_imp inside

theorem readRows_some {r r' : CSVReader} {row : List Field}
    (read : r.readRowInto = (true, row, r')) :
    r.readRows = row :: r'.readRows := by
  rw [readRows]
  split
  · rename_i read'
    rw [read] at read'
    cases read'
    rfl
  · rename_i read'
    rw [read] at read'
    cases read'

theorem readRows_none {r : CSVReader} (read : r.readRowInto.1 = false) : r.readRows = [] := by
  rw [readRows]
  split
  · rename_i read'
    rw [read'] at read
    cases read
  · rfl

theorem parseLineInto_free {r : CSVReader} {line : List UInt8} (free : newline ∉ line) :
    ∀ field ∈ (r.parseLineInto line).2, newline ∉ field := by
  unfold parseLineInto
  split
  · exact nofun
  · exact parseLoop_free free List.not_mem_nil nofun

theorem readHeader_free (file : List UInt8) :
    ∀ field ∈ (make delimiter quoteChar file).readHeader.1, newline ∉ field := by
  unfold readHeader
  split
  · exact nofun
  · split
    · exact nofun
    · split
      · rename_i read
        exact parseLineInto_free (getline_free read)
      · exact nofun

/-- No field has an end of line in it. -/
theorem readRows_free (r : CSVReader) : ∀ row ∈ r.readRows, ∀ field ∈ row, newline ∉ field := by
  induction r using readRows.induct with
  | case1 r row r' read ih =>
    rw [readRows_some read, List.forall_mem_cons]
    refine ⟨?_, ih⟩
    unfold readRowInto at read
    split at read
    · cases read
    · split at read
      · rename_i line rest split
        rw [Prod.mk.injEq, Prod.mk.injEq] at read
        obtain ⟨_, rfl, _⟩ := read
        exact parseLineInto_free (getline_free split)
      · cases read
  | case2 r row r' read =>
    rw [readRows_none (by rw [read])]
    exact nofun

/-- The rows of a file of lines: those of the lines before the first empty one. -/
theorem readRows_lines {lines : List (List UInt8)} (free : ∀ line ∈ lines, newline ∉ line)
    {r : CSVReader} (isOpen : r.isOpen)
    (headerRead : r.headerRead) (rest : r.rest = lines.flatMap (· ++ [newline])) :
    r.readRows = (lines.takeWhile (· ≠ [])).map fun line =>
      parseLoop r.delimiter r.quoteChar line false [] [] := by
  induction lines generalizing r with
  | nil =>
    refine readRows_none ?_
    rw [List.flatMap_nil] at rest
    simp [readRowInto, isOpen, headerRead, rest, getline]
  | cons line lines ih =>
    rw [List.forall_mem_cons] at free
    have split : getline r.rest = some (line, lines.flatMap (· ++ [newline])) := by
      rw [rest, List.flatMap_cons, List.append_assoc]
      exact getline_line free.1 _
    by_cases empty : line = []
    · rw [readRows_none (by simp [readRowInto, isOpen, headerRead, split, parseLineInto, empty])]
      simp [empty]
    · have read : r.readRowInto = (true, parseLoop r.delimiter r.quoteChar line false [] [],
          { r with rest := lines.flatMap (· ++ [newline]) }) := by
        simp [readRowInto, isOpen, headerRead, split, parseLineInto, empty]
      have later :=
        @ih free.2 { r with rest := lines.flatMap (· ++ [newline]) } isOpen headerRead rfl
      rw [readRows_some read, later, List.takeWhile_cons_of_pos (by simpa using empty),
        List.map_cons]

end CSVReader

/-- The reader gets the header and the rows that were written. -/
def RoundTrips (delimiter quoteChar : UInt8) (bufferSize : Nat) (header : List Field)
    (rows : List (List Field)) : Prop :=
  let opened :=
    CSVReader.make delimiter quoteChar (CSVWriter.fileOf delimiter quoteChar bufferSize header rows)
  opened.readHeader.1 = header ∧ opened.readHeader.2.readRows = rows

/-- The line of the row is not empty, and no field has a delimiter, a quote or an end of line. -/
def Unquoted (delimiter quoteChar : UInt8) (row : List Field) : Prop :=
  row ≠ [[]] ∧ ∀ field ∈ row, delimiter ∉ field ∧ quoteChar ∉ field ∧ newline ∉ field

section
variable {delimiter quoteChar : UInt8} {bufferSize : Nat} {header : List Field}
    {rows : List (List Field)}

theorem line_eq_nil_iff {row : List Field} (nonempty : row ≠ []) :
    CSVWriter.line delimiter row = [] ↔ row = [[]] := by
  obtain ⟨field, row, rfl⟩ := List.exists_cons_of_ne_nil nonempty
  rw [CSVWriter.line_cons, List.append_eq_nil_iff, List.flatMap_eq_nil_iff, List.cons.injEq,
    List.eq_nil_iff_forall_not_mem (l := row)]
  simp

theorem line_free_iff (distinct : delimiter ≠ newline) {row : List Field} (nonempty : row ≠ []) :
    newline ∉ CSVWriter.line delimiter row ↔ ∀ field ∈ row, newline ∉ field := by
  rw [CSVReader.mem_line nonempty distinct.symm]
  simp

/-- What is taken and mapped back is all there was. -/
theorem takeWhile_map_eq_iff {α β : Type} (f : α → β) (g : β → α) (p : β → Bool) (l : List α) :
    ((l.map f).takeWhile p).map g = l ↔ ∀ x ∈ l, p (f x) = true ∧ g (f x) = x := by
  induction l with
  | nil => simp
  | cons x l ih =>
    rw [List.map_cons, List.forall_mem_cons, ← ih]
    by_cases taken : p (f x) = true
    · rw [List.takeWhile_cons_of_pos taken, List.map_cons, List.cons.injEq]
      simp [taken]
    · rw [List.takeWhile_cons_of_neg taken]
      simp [taken]

/-- What the reader gets when no field has an end of line. -/
theorem roundTrips_of_free (distinct : delimiter ≠ newline)
    (nonempty : ∀ row ∈ header :: rows, row ≠ [])
    (free : ∀ row ∈ header :: rows, ∀ field ∈ row, newline ∉ field) :
    RoundTrips delimiter quoteChar bufferSize header rows ↔ ∀ row ∈ header :: rows,
      CSVWriter.line delimiter row ≠ [] ∧
        CSVReader.parseLoop delimiter quoteChar (CSVWriter.line delimiter row) false [] [] =
          row := by
  have freeLine : ∀ row ∈ header :: rows, newline ∉ CSVWriter.line delimiter row :=
    fun row member => (line_free_iff distinct (nonempty row member)).mpr (free row member)
  rw [List.forall_mem_cons] at nonempty freeLine
  have split : getline (CSVWriter.fileOf delimiter quoteChar bufferSize header rows) =
      some (CSVWriter.line delimiter header,
        (rows.map (CSVWriter.line delimiter)).flatMap (· ++ [newline])) := by
    rw [CSVWriter.fileOf_eq, List.flatMap_cons, List.append_assoc, List.flatMap_map]
    exact CSVReader.getline_line freeLine.1 _
  let opened :=
    CSVReader.make delimiter quoteChar (CSVWriter.fileOf delimiter quoteChar bufferSize header rows)
  have read : opened.readHeader =
      ((opened.parseLineInto (CSVWriter.line delimiter header)).2,
        { opened with
          headers := (opened.parseLineInto (CSVWriter.line delimiter header)).2, headerRead := true,
          rest := (rows.map (CSVWriter.line delimiter)).flatMap (· ++ [newline]) }) := by
    simp [CSVReader.readHeader, opened, CSVReader.make, split]
  have rowsRead :=
    @CSVReader.readRows_lines (rows.map (CSVWriter.line delimiter)) (by simpa using freeLine.2)
    opened.readHeader.2 (by rw [read]; rfl) (by rw [read]) (by rw [read])
  rw [List.forall_mem_cons]
  refine and_congr ?_ ?_
  · change opened.readHeader.1 = header ↔ _
    rw [read]
    by_cases empty : CSVWriter.line delimiter header = []
    · simp [CSVReader.parseLineInto, empty, Ne.symm nonempty.1]
    · simp [CSVReader.parseLineInto, empty, opened, CSVReader.make]
  · change opened.readHeader.2.readRows = rows ↔ _
    have same :
        opened.readHeader.2.delimiter = delimiter ∧ opened.readHeader.2.quoteChar = quoteChar := by
      rw [read]
      exact ⟨rfl, rfl⟩
    rw [rowsRead, same.1, same.2]
    refine (takeWhile_map_eq_iff (CSVWriter.line delimiter)
      (fun line => CSVReader.parseLoop delimiter quoteChar line false [] []) _ rows).trans ?_
    simp

/-- Whatever the file, the reader gives no field with an end of line. -/
theorem free_of_roundTrips (back : RoundTrips delimiter quoteChar bufferSize header rows) :
    ∀ row ∈ header :: rows, ∀ field ∈ row, newline ∉ field := by
  obtain ⟨headerBack, rowsBack⟩ := back
  rw [List.forall_mem_cons]
  constructor
  · rw [← headerBack]
    exact CSVReader.readHeader_free _
  · rw [← rowsBack]
    exact CSVReader.readRows_free _

/-- The file gives back what was written just when no row needed quotes. -/
theorem round_trip_iff (distinct : quoteChar ≠ delimiter) (mark : delimiter ≠ newline)
    (nonempty : ∀ row ∈ header :: rows, row ≠ []) :
    RoundTrips delimiter quoteChar bufferSize header rows ↔
      ∀ row ∈ header :: rows, Unquoted delimiter quoteChar row := by
  have rowwise : ∀ row ∈ header :: rows, (∀ field ∈ row, newline ∉ field) →
      (CSVWriter.line delimiter row ≠ [] ∧
          CSVReader.parseLoop delimiter quoteChar (CSVWriter.line delimiter row) false [] [] = row ↔
        Unquoted delimiter quoteChar row) := by
    intro row member free
    have some := nonempty row member
    rw [CSVReader.parseLoop_line_iff distinct some, ne_eq, line_eq_nil_iff some]
    refine and_congr_right fun _ => forall₂_congr fun field inside => ?_
    exact ⟨fun bare => ⟨bare.1, bare.2, free field inside⟩, fun plain => ⟨plain.1, plain.2.1⟩⟩
  constructor
  · intro back row member
    have free := free_of_roundTrips back
    exact (rowwise row member (free row member)).mp
      ((roundTrips_of_free mark nonempty free).mp back row member)
  · intro unquoted
    have free : ∀ row ∈ header :: rows, ∀ field ∈ row, newline ∉ field :=
      fun row member field inside => ((unquoted row member).2 field inside).2.2
    rw [roundTrips_of_free mark nonempty free]
    exact fun row member => (rowwise row member (free row member)).mpr (unquoted row member)

end
/-- A comma, double quotes, and no field with either. -/
theorem round_trip_letters :
    RoundTrips 44 34 65536 [[97], [98]] [[[], [99]], [[100]]] ↔
      ∀ row ∈ [[[97], [98]], [[], [99]], [[100]]], Unquoted 44 34 row :=
  round_trip_iff (by decide) (by decide) (by decide)

/-- The field `b,c` comes back as two. -/
theorem field_split :
    ¬ ∀ (delimiter quoteChar : UInt8) (bufferSize : Nat) (header : List Field) (rows :
      List (List Field)),
      delimiter ≠ quoteChar → delimiter ≠ newline → quoteChar ≠ newline → header ≠ [] →
        (∀ row ∈ rows, row ≠ []) →
      RoundTrips delimiter quoteChar bufferSize header rows := by
  intro claim
  have back :=
    claim 44 34 65536 [[97]] [[[98, 44, 99]]] (by decide) (by decide) (by decide)
      (by decide) (by decide)
  have rowBack :=
    (roundTrips_of_free (by decide) (by decide) (by decide)).mp back [[98, 44, 99]] (by decide)
  have bare :=
    (CSVReader.parseLoop_line_iff (by decide) (by decide)).mp rowBack.2 [98, 44, 99] (by decide)
  exact bare.1 (by decide)

end BTrader.Infra
