import BTrader.Infra.CsvRoundTrip

/-! The line of escaped fields, parsed. The loop over the characters gives each field as it was;
what it gives is unescaped once more. -/
namespace BTrader.Infra

theorem CSVWriter.escapeFieldSv_eq_nil {delimiter quoteChar : UInt8} {field : Field} :
    escapeFieldSv delimiter quoteChar field = [] ↔ field = [] := by
  cases field with
  | nil => simp [escapeFieldSv, needsQuotes]
  | cons c field =>
    rw [escapeFieldSv]
    split <;> simp

namespace CSVReader
variable {delimiter quoteChar : UInt8}

/-- The quotes of the second unescaping: a field that it takes for a quoted one. -/
def Wrapped (quoteChar : UInt8) (field : Field) : Prop :=
  field.head? = some quoteChar ∧ field.getLast? = some quoteChar

/-- Unescaping leaves a field alone just when it does not look quoted. -/
theorem unescapeField_iff (field : Field) :
    unescapeField quoteChar field = field ↔ ¬ Wrapped quoteChar field := by
  constructor
  · rintro same ⟨first, last⟩
    rw [unescapeField, if_neg (by simp [first, last])] at same
    have shorter := (@undouble_sublist quoteChar ((field.drop 1).take (field.length - 2))).length_le
    have some : field ≠ [] := by
      rintro rfl
      cases first
    have positive := List.length_pos_of_ne_nil some
    rw [same, List.length_take, List.length_drop] at shorter
    omega
  · intro plain
    rw [unescapeField, if_pos]
    by_contra both
    push Not at both
    exact plain both

/-- A field without quotes and delimiters is read as it stands. -/
theorem parseLoop_bare {field : Field} (bare : Bare delimiter quoteChar field) (rest : List UInt8)
    (currentField : Field) (fields : List Field) :
    parseLoop delimiter quoteChar (field ++ rest) false currentField fields =
      parseLoop delimiter quoteChar rest false (currentField ++ field) fields := by
  induction field generalizing currentField with
  | nil => simp
  | cons c field ih =>
    obtain ⟨undelimited, unquoted⟩ := bare
    rw [List.mem_cons, not_or] at undelimited unquoted
    rw [List.cons_append, parseLoop, if_neg (Ne.symm unquoted.1),
      if_neg fun ends => undelimited.1 ends.1.symm,
      ih ⟨undelimited.2, unquoted.2⟩, List.append_assoc, List.singleton_append]

/-- Inside quotes the doubled characters are read as they were, up to the closing quote. -/
theorem parseLoop_doubled (field : Field) {rest : List UInt8} (ended : rest.head? ≠ some quoteChar)
    (currentField : Field) (fields : List Field) :
    parseLoop delimiter quoteChar (field.flatMap (CSVWriter.double quoteChar) ++
      quoteChar :: rest) true currentField fields =
      parseLoop delimiter quoteChar rest false (currentField ++ field) fields := by
  induction field generalizing currentField with
  | nil =>
    rw [List.flatMap_nil, List.nil_append, parseLoop, if_pos rfl, if_neg fun both => ended both.2,
      List.append_nil]
    rfl
  | cons c field ih =>
    rw [List.flatMap_cons, List.append_assoc]
    by_cases quoted : c = quoteChar
    · subst quoted
      rw [CSVWriter.double, if_pos rfl, List.cons_append, parseLoop, if_pos rfl, if_pos ⟨rfl, rfl⟩]
      simp only [List.cons_append, List.nil_append, List.tail_cons]
      rw [ih, List.append_assoc, List.singleton_append]
    · rw [CSVWriter.double, if_neg quoted, List.singleton_append, parseLoop, if_neg quoted,
        if_neg (by simp), ih, List.append_assoc, List.singleton_append]

/-- An escaped field is read as it was before. -/
theorem parseLoop_escaped (field : Field) {rest : List UInt8}
    (ended : rest.head? ≠ some quoteChar) (fields : List Field) :
    parseLoop delimiter quoteChar (CSVWriter.escapeFieldSv delimiter quoteChar field ++ rest) false
      [] fields =
      parseLoop delimiter quoteChar rest false field fields := by
  by_cases quoted : CSVWriter.needsQuotes delimiter quoteChar field = true
  · have escaped : CSVWriter.escapeFieldSv delimiter quoteChar field ++ rest =
        quoteChar :: (field.flatMap (CSVWriter.double quoteChar) ++ quoteChar :: rest) := by
      simp [CSVWriter.escapeFieldSv, quoted]
    rw [escaped, parseLoop, if_pos rfl, if_neg (by simp)]
    exact parseLoop_doubled field ended [] fields
  · have bare : Bare delimiter quoteChar field := by
      simp only [CSVWriter.needsQuotes, Bool.or_eq_true, List.contains_iff_mem, not_or] at quoted
      exact ⟨quoted.1.1.1, quoted.1.1.2⟩
    rw [CSVWriter.escapeFieldSv, if_pos (by simpa using quoted)]
    exact parseLoop_bare bare rest [] fields

/-- The fields that stand behind the first one. -/
theorem parseLoop_escapedRow (distinct : quoteChar ≠ delimiter) (row : List Field) (field : Field)
    (fields : List Field) :
    parseLoop delimiter quoteChar
        ((row.map (CSVWriter.escapeFieldSv delimiter quoteChar)).flatMap (delimiter :: ·)) false
          field fields =
      fields ++ (field :: row).map (unescapeField quoteChar) := by
  induction row generalizing field fields with
  | nil => simp [parseLoop]
  | cons next row ih =>
    have ended :
        ((row.map (CSVWriter.escapeFieldSv delimiter quoteChar)).flatMap (delimiter :: ·)).head? ≠
        some quoteChar := by
      cases row with
      | nil => simp
      | cons _ _ => simpa using Ne.symm distinct
    rw [List.map_cons, List.flatMap_cons, List.cons_append, parseLoop, if_neg (Ne.symm distinct),
      if_pos (by simp), parseLoop_escaped next ended, ih, List.append_assoc]
    rfl

/-- The loop has the fields right, and then each is unescaped. -/
theorem parseLineInto_escaped (r : CSVReader) (distinct : r.quoteChar ≠ r.delimiter)
    {row : List Field} (nonempty : row ≠ []) (some : row ≠ [[]]) :
    r.parseLineInto (CSVWriter.line r.delimiter
      (row.map (CSVWriter.escapeFieldSv r.delimiter r.quoteChar))) =
      (true, row.map (unescapeField r.quoteChar)) := by
  obtain ⟨field, row, rfl⟩ := List.exists_cons_of_ne_nil nonempty
  have printed :
      CSVWriter.line r.delimiter
        ((field :: row).map (CSVWriter.escapeFieldSv r.delimiter r.quoteChar)) ≠ [] := by
    rw [ne_eq, line_eq_nil_iff (by simp)]
    intro empty
    obtain ⟨first, rest⟩ : CSVWriter.escapeFieldSv r.delimiter r.quoteChar field = [] ∧
        row = [] := by
      simpa using empty
    rw [rest, CSVWriter.escapeFieldSv_eq_nil.mp first] at some
    exact some rfl
  have ended :
      ((row.map (CSVWriter.escapeFieldSv r.delimiter r.quoteChar)).flatMap
        (r.delimiter :: ·)).head? ≠
      Option.some r.quoteChar := by
    cases row with
    | nil => simp
    | cons _ _ => simpa using Ne.symm distinct
  rw [parseLineInto, if_neg printed, List.map_cons, CSVWriter.line_cons,
    parseLoop_escaped field ended, parseLoop_escapedRow distinct, List.nil_append]

end CSVReader

/-- The fields come back from their line. -/
def Decodes (r : CSVReader) (row : List Field) : Prop :=
  r.parseLineInto (CSVWriter.line r.delimiter
    (row.map (CSVWriter.escapeFieldSv r.delimiter r.quoteChar))) = (true, row)

/-- A row of escaped fields comes back just when no field both begins and ends with the quote. -/
theorem decodes_iff (r : CSVReader) (distinct : r.quoteChar ≠ r.delimiter) {row : List Field}
    (nonempty : row ≠ [])
    (some : row ≠ [[]]) : Decodes r row ↔ ∀ field ∈ row, ¬ CSVReader.Wrapped r.quoteChar field := by
  have fieldwise : row.map (CSVReader.unescapeField r.quoteChar) = row ↔
      ∀ field ∈ row, CSVReader.unescapeField r.quoteChar field = field := by
    conv_lhs => rhs; rw [← List.map_id row]
    exact List.map_inj_left
  rw [Decodes, CSVReader.parseLineInto_escaped r distinct nonempty some, Prod.mk.injEq, fieldwise]
  simp only [true_and, CSVReader.unescapeField_iff]

/-- A comma and double quotes: a field with both in it, and an empty one. -/
theorem decodes_letters : Decodes (.make 44 34 []) [[97, 34, 44], []] ↔
    ∀ field ∈ [[97, 34, 44], []], ¬ CSVReader.Wrapped 34 field :=
  decodes_iff (.make 44 34 []) (by decide) (by decide) (by decide)

/-- The field `"a"` comes back without its quotes. -/
theorem quotes_lost :
    ¬ ∀ (delimiter quoteChar : UInt8) (row : List Field), delimiter ≠ quoteChar → row ≠ [] →
    row ≠ [[]] → (∀ field ∈ row, newline ∉ field ∧ carriageReturn ∉ field) →
    Decodes (.make delimiter quoteChar []) row := by
  intro claim
  have back := claim 44 34 [[34, 97, 34]] (by decide) (by decide) (by decide) (by decide)
  rw [Decodes, CSVReader.parseLineInto_escaped _ (by decide) (by decide) (by decide)] at back
  exact absurd back (by decide)

end BTrader.Infra
