import Mathlib

/-! `CSVWriter` and `CSVReader`. The file is the bytes that were written to it. -/
namespace BTrader.Infra

abbrev Field := List UInt8

/-- The character `'\n'`. -/
def newline : UInt8 := 10

/-- The character `'\r'`. -/
def carriageReturn : UInt8 := 13

/-- Of the write buffer the first `buffer_pos_` bytes. -/
structure CSVWriter where
  delimiter : UInt8
  quoteChar : UInt8
  bufferSize : Nat
  headerWritten : Bool
  isOpen : Bool
  file : List UInt8
  writeBuffer : List UInt8

namespace CSVWriter

/-- The constructor, when the file opens. -/
def make (delimiter quoteChar : UInt8) (bufferSize : Nat) : CSVWriter :=
  ⟨delimiter, quoteChar, bufferSize, false, true, [], []⟩

def flush (w : CSVWriter) : CSVWriter :=
  if w.isOpen && !w.writeBuffer.isEmpty then
    { w with file := w.file ++ w.writeBuffer, writeBuffer := [] } else w

def writeField (w : CSVWriter) (field : Field) : CSVWriter :=
  let w := if w.bufferSize < w.writeBuffer.length + field.length then w.flush else w
  if field.length ≤ w.bufferSize then { w with writeBuffer := w.writeBuffer ++ field }
  else { w.flush with file := w.flush.file ++ field }

/-- One turn of the loop over the fields, which are written as they are. -/
def writeNext (w : CSVWriter) (entry : Field × Nat) : CSVWriter :=
  (if 0 < entry.2 then w.writeField [w.delimiter] else w).writeField entry.1

def writeRow (w : CSVWriter) (row : List Field) : Bool × CSVWriter :=
  if !w.isOpen then (false, w) else (true, (row.zipIdx.foldl writeNext w).writeField [newline])

def writeHeader (w : CSVWriter) (headers : List Field) : Bool × CSVWriter :=
  if !w.isOpen then (false, w)
  else if w.headerWritten then (false, w)
  else
    let (success, w) := w.writeRow headers
    if success then (true, { w with headerWritten := true }) else (false, w)

/-- The loop of `write_rows`. -/
def writeRowsFrom (w : CSVWriter) : List (List Field) → Bool × CSVWriter
  | [] => (true, w)
  | row :: rows =>
    let (success, w) := w.writeRow row
    if success then w.writeRowsFrom rows else (false, w)

def writeRows (w : CSVWriter) (rows : List (List Field)) : Bool × CSVWriter :=
  if !w.isOpen then (false, w) else w.writeRowsFrom rows

def close (w : CSVWriter) : CSVWriter := { w.flush with isOpen := false }

/-- The characters `memchr` looks for. -/
def needsQuotes (delimiter quoteChar : UInt8) (field : Field) : Bool :=
  field.contains delimiter || field.contains quoteChar || field.contains newline ||
    field.contains carriageReturn

/-- One turn of the loop over the characters of a field that is quoted. -/
def double (quoteChar c : UInt8) : List UInt8 := if c = quoteChar then [quoteChar, c] else [c]

def escapeFieldSv (delimiter quoteChar : UInt8) (field : Field) : Field :=
  if !needsQuotes delimiter quoteChar field then field
  else quoteChar :: field.flatMap (double quoteChar) ++ [quoteChar]

end CSVWriter

/-- What of the file is not read yet stands in `rest`. -/
structure CSVReader where
  delimiter : UInt8
  quoteChar : UInt8
  headers : List Field
  headerRead : Bool
  isOpen : Bool
  rest : List UInt8

/-- `std::getline`: the line, and what follows its end. -/
def getline (file : List UInt8) : Option (List UInt8 × List UInt8) :=
  if file = [] then none
  else some (file.takeWhile (· ≠ newline), (file.dropWhile (· ≠ newline)).drop 1)

theorem getline_shorter {file line rest : List UInt8} (read : getline file = some (line, rest)) :
    rest.length < file.length := by
  unfold getline at read
  split at read
  · cases read
  · rename_i nonempty
    cases read
    have some := List.length_pos_of_ne_nil nonempty
    have shorter := (List.dropWhile_sublist (l := file) (· ≠ newline)).length_le
    rw [List.length_drop]
    omega

namespace CSVReader

def make (delimiter quoteChar : UInt8) (file : List UInt8) : CSVReader :=
  ⟨delimiter, quoteChar, [], false, true, file⟩

/-- Every two quotes that stand together become one. -/
def undouble (quoteChar : UInt8) : List UInt8 → List UInt8
  | c :: c' :: field =>
    if c = quoteChar ∧ c' = quoteChar then quoteChar :: undouble quoteChar field
    else c :: undouble quoteChar (c' :: field)
  | field => field

def unescapeField (quoteChar : UInt8) (field : Field) : Field :=
  if field.head? ≠ some quoteChar ∨ field.getLast? ≠ some quoteChar then field
  else undouble quoteChar ((field.drop 1).take (field.length - 2))

/-- The loop over the characters of a line. -/
def parseLoop (delimiter quoteChar : UInt8) : List UInt8 → Bool → Field → List Field → List Field
  | [], _, currentField, fields => fields ++ [unescapeField quoteChar currentField]
  | c :: line, inQuotes, currentField, fields =>
    if c = quoteChar then
      if inQuotes ∧ line.head? = some quoteChar then
        parseLoop delimiter quoteChar line.tail inQuotes (currentField ++ [quoteChar]) fields
      else parseLoop delimiter quoteChar line (!inQuotes) currentField fields
    else if c = delimiter ∧ ¬ inQuotes then
      parseLoop delimiter quoteChar line inQuotes []
        (fields ++ [unescapeField quoteChar currentField])
    else parseLoop delimiter quoteChar line inQuotes (currentField ++ [c]) fields
termination_by line => line.length
decreasing_by
  all_goals simp only [List.length_tail, List.length_cons]
  all_goals omega

/-- `parse_line_into`: an empty line has no fields. -/
def parseLineInto (r : CSVReader) (line : List UInt8) : Bool × List Field :=
  if line = [] then (false, []) else (true, parseLoop r.delimiter r.quoteChar line false [] [])

def readHeader (r : CSVReader) : List Field × CSVReader :=
  if !r.isOpen then ([], r)
  else if r.headerRead then (r.headers, r)
  else
    match getline r.rest with
    | some (line, rest) =>
      let headers := (r.parseLineInto line).2
      (headers, { r with headers, headerRead := true, rest })
    | none => ([], r)

def readRowInto (r : CSVReader) : Bool × List Field × CSVReader :=
  if !r.isOpen || !r.headerRead then (false, [], r)
  else
    match getline r.rest with
    | some (line, rest) =>
      let (success, row) := r.parseLineInto line
      (success, row, { r with rest })
    | none => (false, [], r)

theorem readRowInto_shorter {r r' : CSVReader} {row : List Field}
    (read : r.readRowInto = (true, row, r')) :
    r'.rest.length < r.rest.length := by
  unfold readRowInto at read
  split at read
  · cases read
  · split at read
    · rename_i line rest split
      rw [Prod.mk.injEq, Prod.mk.injEq] at read
      obtain ⟨_, _, rfl⟩ := read
      exact getline_shorter split
    · cases read

/-- The rows that are read until there is none. -/
def readRows (r : CSVReader) : List (List Field) :=
  match _read : r.readRowInto with
  | (true, row, r') => row :: r'.readRows
  | (false, _, _) => []
termination_by r.rest.length
decreasing_by exact readRowInto_shorter _read

end CSVReader
end BTrader.Infra
