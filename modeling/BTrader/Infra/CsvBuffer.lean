import BTrader.Lib.Runs
import BTrader.Infra.CsvRoundTrip

/-! `CSVWriter` with the memory of its write buffer, a string of size 0 that is used through its
capacity only. -/
namespace BTrader.Infra

/-- A byte in memory or in the file; `none` where nobody has stored a value. -/
abbrev Cell := Option UInt8

/-- The strings of the library: the capacity of an empty one, and the one it has after a `reserve`
beyond its capacity. -/
structure StringLib where
  initial : Nat
  grow : Nat → Nat → Nat
  enough : ∀ capacity size, size ≤ grow capacity size

/-- `cells` is what `write_buffer_.data()` points to. `overrun` tells whether a store has gone
beyond the capacity. -/
structure BufferedWriter where
  delimiter : UInt8
  bufferSize : Nat
  isOpen : Bool
  file : List Cell
  capacity : Nat
  cells : Nat → Cell
  bufferPos : Nat
  overrun : Bool

namespace BufferedWriter

/-- `write_buffer_.reserve`: what it reallocates has none of the characters behind `size()`, which
is 0. -/
def reserve (lib : StringLib) (w : BufferedWriter) (size : Nat) : BufferedWriter :=
  if size ≤ w.capacity then w
  else { w with capacity := lib.grow w.capacity size, cells := fun _ => none }

/-- The constructor, when the file opens. -/
def make (lib : StringLib) (delimiter : UInt8) (bufferSize : Nat) : BufferedWriter :=
  reserve lib ⟨delimiter, bufferSize, true, [], lib.initial, fun _ => none, 0, false⟩ bufferSize

/-- The bytes that are not in the file yet. -/
def pending (w : BufferedWriter) : List Cell := (List.range w.bufferPos).map w.cells

def flush (w : BufferedWriter) : BufferedWriter :=
  if w.isOpen ∧ 0 < w.bufferPos then { w with file := w.file ++ w.pending, bufferPos := 0 } else w

/-- `memcpy` to `&write_buffer_[buffer_pos_]`. -/
def memcpy (w : BufferedWriter) (field : Field) : BufferedWriter :=
  { w with
    cells := fun i => if w.bufferPos ≤ i ∧ i < w.bufferPos + field.length then
      field[i - w.bufferPos]? else w.cells i
    overrun := w.overrun || decide (w.capacity < w.bufferPos + field.length) }

def writeField (w : BufferedWriter) (field : Field) : BufferedWriter :=
  let w := if w.bufferSize < w.bufferPos + field.length then w.flush else w
  if field.length ≤ w.bufferSize then
    { w.memcpy field with bufferPos := w.bufferPos + field.length }
  else { w.flush with file := w.flush.file ++ field.map some }

/-- One turn of the loop over the fields. -/
def writeNext (w : BufferedWriter) (entry : Field × Nat) : BufferedWriter :=
  (if 0 < entry.2 then w.writeField [w.delimiter] else w).writeField entry.1

def writeRow (w : BufferedWriter) (row : List Field) : BufferedWriter :=
  if !w.isOpen then w else (row.zipIdx.foldl writeNext w).writeField [newline]

/-- The same loop over views of the fields. -/
def writeRowSv (w : BufferedWriter) (row : List Field) : BufferedWriter := w.writeRow row

/-- The estimate `write_rows` reserves by. -/
def avgRowSize (rows : List (List Field)) : Nat :=
  (rows.map fun row => (row.map fun field => field.length + 2).sum + 1).sum / rows.length

def writeRows (lib : StringLib) (w : BufferedWriter) (rows : List (List Field)) : BufferedWriter :=
  if !w.isOpen then w
  else
    let w := if rows.head?.any (!·.isEmpty) then
        w.reserve lib (min (avgRowSize rows * 10) w.bufferSize) else w
    rows.foldl writeRow w

/-- `pubsetbuf` on a file that is open has no effect. -/
def setBufferSize (lib : StringLib) (w : BufferedWriter) (size : Nat) : BufferedWriter :=
  reserve lib { w with bufferSize := size } size

def close (w : BufferedWriter) : BufferedWriter := { w.flush with isOpen := false }

/-- The calls of a writer that is not closed yet. -/
inductive Call where
  | writeRow (row : List Field)
  | writeRowSv (row : List Field)
  | writeRows (rows : List (List Field))
  | setBufferSize (size : Nat)
  | flush

def act (lib : StringLib) (w : BufferedWriter) : Call → BufferedWriter
  | .writeRow row => w.writeRow row
  | .writeRowSv row => w.writeRowSv row
  | .writeRows rows => w.writeRows lib rows
  | .setBufferSize size => w.setBufferSize lib size
  | .flush => w.flush

/-- The fields, delimiters and ends of line of a call. -/
def Call.bytes (delimiter : UInt8) : Call → List UInt8
  | .writeRow row | .writeRowSv row => CSVWriter.line delimiter row ++ [newline]
  | .writeRows rows => rows.flatMap fun row => CSVWriter.line delimiter row ++ [newline]
  | .setBufferSize _ | .flush => []

/-- The call does not make the buffer grow over bytes that are not in the file yet. -/
def Spares (w : BufferedWriter) : Call → Prop
  | .setBufferSize size => size ≤ w.capacity ∨ w.bufferPos = 0
  | _ => True

/-- What is in the file when the buffer is flushed. -/
def content (w : BufferedWriter) : List Cell := w.file ++ w.pending

/-- The buffer has room for what `buffer_size_` admits, and no store went beyond it. -/
structure Sound (w : BufferedWriter) : Prop where
  isOpen : w.isOpen
  room : w.bufferSize ≤ w.capacity
  inside : w.overrun = false

section Contents
variable {w : BufferedWriter}

theorem flush_content (sound : w.Sound) :
    w.flush.content = w.content ∧ w.flush.bufferPos = 0 ∧ w.flush.Sound ∧
      w.flush.delimiter = w.delimiter ∧
      w.flush.bufferSize = w.bufferSize := by
  by_cases some : 0 < w.bufferPos
  · have flushed : w.flush = { w with file := w.file ++ w.pending, bufferPos := 0 } :=
      if_pos ⟨sound.isOpen, some⟩
    rw [flushed]
    exact ⟨by simp [content, pending], rfl, ⟨sound.isOpen, sound.room, sound.inside⟩, rfl, rfl⟩
  · have kept : w.flush = w := if_neg fun both => some both.2
    rw [kept]
    exact ⟨rfl, by omega, sound, rfl, rfl⟩

/-- The copied field follows what was pending. -/
theorem memcpy_pending (w : BufferedWriter) (field : Field) :
    ({ w.memcpy field with bufferPos := w.bufferPos + field.length } : BufferedWriter).pending =
      w.pending ++ field.map some := by
  simp only [pending, memcpy, List.range_add, List.map_append, List.map_map]
  congr 1
  · refine List.map_congr_left fun i member => ?_
    have below := List.mem_range.mp member
    exact if_neg (by omega)
  · refine List.ext_getElem (by simp) fun i bound _ => ?_
    have inside : i < field.length := by simpa using bound
    simp [inside]

/-- From a sound writer to a sound one with these bytes more. -/
structure Appends (w w' : BufferedWriter) (bytes : List UInt8) : Prop where
  content : w'.content = w.content ++ bytes.map some
  sound : w'.Sound
  delimiter : w'.delimiter = w.delimiter

theorem Appends.nil (sound : w.Sound) : Appends w w [] := ⟨by simp, sound, rfl⟩

theorem Appends.trans {u v : BufferedWriter} (first : Appends w u bytes)
    (second : Appends u v more) :
    Appends w v (bytes ++ more) where
  content := by rw [second.content, first.content, List.map_append, List.append_assoc]
  sound := second.sound
  delimiter := second.delimiter.trans first.delimiter

theorem writeField_appends (sound : w.Sound) (field : Field) :
    Appends w (w.writeField field) field := by
  -- Either there is room behind what is pending, or nothing is pending.
  obtain ⟨u, same, sound', delimiter, room, written⟩ :
      ∃ u : BufferedWriter, u.content = w.content ∧ u.Sound ∧
      u.delimiter = w.delimiter ∧ (u.bufferPos = 0 ∨ u.bufferPos + field.length ≤ u.bufferSize) ∧
      w.writeField field =
        if field.length ≤ u.bufferSize then
          { u.memcpy field with bufferPos := u.bufferPos + field.length }
        else { u.flush with file := u.flush.file ++ field.map some } := by
    obtain ⟨same, empty, sound', delimiter, _⟩ := flush_content sound
    by_cases full : w.bufferSize < w.bufferPos + field.length
    · exact ⟨w.flush, same, sound', delimiter, .inl empty, by rw [writeField, if_pos full]⟩
    · exact ⟨w, rfl, sound, rfl, .inr (by omega), by rw [writeField, if_neg full]⟩
  rw [written]
  split
  · rename_i small
    have fits : u.bufferPos + field.length ≤ u.capacity := by
      have := sound'.room
      omega
    refine ⟨?_, ⟨sound'.isOpen, sound'.room, ?_⟩, delimiter⟩
    · rw [content, memcpy_pending, ← List.append_assoc, ← same]
      rfl
    · simp [memcpy, sound'.inside, fits]
  · obtain ⟨flushed, empty, sound'', delimiter', _⟩ := flush_content sound'
    refine ⟨?_, ⟨sound''.isOpen, sound''.room, sound''.inside⟩, delimiter'.trans delimiter⟩
    have none : u.flush.pending = [] := by rw [pending, empty, List.range_zero, List.map_nil]
    have file : u.flush.file = w.content := by
      rw [← same, ← flushed, content, none, List.append_nil]
    change u.flush.file ++ field.map some ++ u.flush.pending = _
    rw [none, List.append_nil, file]

theorem writeNext_appends (sound : w.Sound) (entry : Field × Nat) :
    Appends w (w.writeNext entry) ((if 0 < entry.2 then [w.delimiter] else []) ++ entry.1) := by
  rw [writeNext]
  split
  · have mark := writeField_appends sound [w.delimiter]
    exact mark.trans (writeField_appends mark.sound entry.1)
  · exact writeField_appends sound entry.1

theorem writeNexts_appends (sound : w.Sound) (entries : List (Field × Nat)) :
    Appends w (entries.foldl writeNext w)
      (entries.flatMap fun entry => (if 0 < entry.2 then [w.delimiter] else []) ++ entry.1) := by
  induction entries generalizing w with
  | nil => exact .nil sound
  | cons entry entries ih =>
    have first := writeNext_appends sound entry
    have later := ih first.sound
    rw [first.delimiter] at later
    exact first.trans later

theorem writeRow_appends (sound : w.Sound) (row : List Field) :
    Appends w (w.writeRow row) (CSVWriter.line w.delimiter row ++ [newline]) := by
  have fields := writeNexts_appends sound row.zipIdx
  rw [CSVWriter.pieces_line] at fields
  rw [writeRow, if_neg (by simp [sound.isOpen])]
  exact fields.trans (writeField_appends fields.sound [newline])

theorem writeRows_appends (sound : w.Sound) (rows : List (List Field)) :
    Appends w (rows.foldl writeRow w) (rows.flatMap fun row => CSVWriter.line w.delimiter row ++
      [newline]) := by
  induction rows generalizing w with
  | nil => exact .nil sound
  | cons row rows ih =>
    have first := writeRow_appends sound row
    have later := ih first.sound
    rw [first.delimiter] at later
    exact first.trans later

/-- The reservation of `write_rows` asks for no more than there is. -/
theorem reserve_within (lib : StringLib) (sound : w.Sound) {size : Nat}
    (bound : size ≤ w.bufferSize) :
    w.reserve lib size = w := if_pos (bound.trans sound.room)

end Contents

section Steps
variable (lib : StringLib) {w : BufferedWriter}

theorem setBufferSize_sound (sound : w.Sound) (size : Nat) :
    (w.setBufferSize lib size).Sound ∧ (w.setBufferSize lib size).delimiter = w.delimiter ∧
      (w.setBufferSize lib size).content =
        if size ≤ w.capacity then w.content else w.file ++ List.replicate w.bufferPos none := by
  by_cases fits : size ≤ w.capacity
  · have kept : w.setBufferSize lib size = { w with bufferSize := size } := if_pos fits
    rw [kept, if_pos fits]
    exact ⟨⟨sound.isOpen, fits, sound.inside⟩, rfl, rfl⟩
  · have grown : w.setBufferSize lib size =
        { w with
          bufferSize := size
          capacity := lib.grow w.capacity size
          cells := fun _ => none } := if_neg fits
    rw [grown, if_neg fits]
    refine ⟨⟨sound.isOpen, lib.enough _ _, sound.inside⟩, rfl, ?_⟩
    simp [content, pending, List.map_const']

/-- A call that spares what is pending adds its bytes. -/
theorem act_appends (sound : w.Sound) (c : Call) (spares : Spares w c) :
    Appends w (act lib w c) (c.bytes w.delimiter) := by
  cases c with
  | writeRow row => exact writeRow_appends sound row
  | writeRowSv row => exact writeRow_appends sound row
  | writeRows rows =>
    have reserved : w.writeRows lib rows = rows.foldl writeRow w := by
      have within := reserve_within lib sound (min_le_right (avgRowSize rows * 10) w.bufferSize)
      rw [writeRows, if_neg (by simp [sound.isOpen])]
      simp only [within, ite_self]
    rw [act, reserved]
    exact writeRows_appends sound rows
  | setBufferSize size =>
    obtain ⟨sound', delimiter, content⟩ := setBufferSize_sound lib sound size
    refine ⟨?_, sound', delimiter⟩
    rw [act, content]
    split
    · simp [Call.bytes]
    · rename_i grows
      have empty := spares.resolve_left grows
      simp [Call.bytes, BufferedWriter.content, pending, empty]
  | flush =>
    obtain ⟨same, _, sound', delimiter, _⟩ := flush_content sound
    exact ⟨by simp [act, same, Call.bytes], sound', delimiter⟩

/-- A call that does not loses what is pending. -/
theorem act_grows (sound : w.Sound) (c : Call) (grows : ¬ Spares w c) :
    (act lib w c).Sound ∧ (act lib w c).delimiter = w.delimiter ∧ none ∈ (act lib w c).content := by
  cases c with
  | setBufferSize size =>
    obtain ⟨sound', delimiter, content⟩ := setBufferSize_sound lib sound size
    rw [Spares, not_or] at grows
    rw [if_neg grows.1] at content
    refine ⟨sound', delimiter, ?_⟩
    rw [act, content]
    simp [grows.2]
  | writeRow _ => exact absurd trivial grows
  | writeRowSv _ => exact absurd trivial grows
  | writeRows _ => exact absurd trivial grows
  | flush => exact absurd trivial grows

theorem act_sound (sound : w.Sound) (c : Call) :
    (act lib w c).Sound ∧ (act lib w c).delimiter = w.delimiter := by
  by_cases spares : Spares w c
  · have appended := act_appends lib sound c spares
    exact ⟨appended.sound, appended.delimiter⟩
  · obtain ⟨sound', delimiter, _⟩ := act_grows lib sound c spares
    exact ⟨sound', delimiter⟩

/-- Every byte is one that was stored. -/
def Stored (w : BufferedWriter) : Prop := none ∉ w.content

theorem act_stored (sound : w.Sound) (c : Call) : Stored (act lib w c) ↔ Stored w ∧ Spares w c := by
  by_cases spares : Spares w c
  · rw [Stored, (act_appends lib sound c spares).content, List.mem_append]
    simp [Stored, spares]
  · obtain ⟨_, _, lost⟩ := act_grows lib sound c spares
    simp [Stored, lost, spares]

theorem make_sound (lib : StringLib) (delimiter : UInt8) (bufferSize : Nat) :
    (make lib delimiter bufferSize).Sound ∧ (make lib delimiter bufferSize).delimiter = delimiter ∧
      (make lib delimiter bufferSize).content = [] := by
  by_cases fits : bufferSize ≤ lib.initial
  · have made : make lib delimiter bufferSize =
        ⟨delimiter, bufferSize, true, [], lib.initial, fun _ => none, 0, false⟩ := if_pos fits
    rw [made]
    exact ⟨⟨rfl, fits, rfl⟩, rfl, rfl⟩
  · have made : make lib delimiter bufferSize =
        ⟨delimiter, bufferSize, true, [], lib.grow lib.initial bufferSize, fun _ => none, 0,
          false⟩ := if_neg fits
    rw [made]
    exact ⟨⟨rfl, lib.enough _ _, rfl⟩, rfl, rfl⟩

end Steps

section Runs
variable (lib : StringLib) {w : BufferedWriter}

theorem run_sound (sound : w.Sound) (calls : List Call) :
    ∀ v ∈ Runs.states (act lib) w calls, v.Sound := by
  have kept (v : BufferedWriter) (c : Call) (sound : v.Sound) (_ : True) : (act lib v c).Sound :=
    (act_sound lib sound c).1
  exact Runs.invariant kept sound calls fun _ _ => trivial

/-- The bytes of the calls in their order, when no call loses any. -/
theorem run_appends (sound : w.Sound) {calls : List Call}
    (spares : ∀ move ∈ Runs.moves (act lib) w calls, Spares move.1 move.2) :
    Appends w (calls.foldl (act lib) w) (calls.flatMap (Call.bytes w.delimiter)) := by
  induction calls generalizing w with
  | nil => exact .nil sound
  | cons c calls ih =>
    rw [Runs.moves, List.forall_mem_cons] at spares
    have first := act_appends lib sound c spares.1
    have later := ih first.sound spares.2
    rw [first.delimiter] at later
    exact first.trans later

theorem close_file (sound : w.Sound) : w.close.file = w.content := by
  obtain ⟨same, empty, _⟩ := flush_content sound
  change w.flush.file = _
  rw [← same, content, pending, empty, List.range_zero, List.map_nil, List.append_nil]

end Runs

/-- The file after the calls and `close`. -/
def fileOf (lib : StringLib) (delimiter : UInt8) (bufferSize : Nat) (calls : List Call) :
    List Cell :=
  (calls.foldl (act lib) (make lib delimiter bufferSize)).close.file

section Files
variable (lib : StringLib) (delimiter : UInt8) (bufferSize : Nat) (calls : List Call)

theorem fileOf_content : fileOf lib delimiter bufferSize calls =
    (calls.foldl (act lib) (make lib delimiter bufferSize)).content := by
  have states := run_sound lib (make_sound lib delimiter bufferSize).1 calls
  exact close_file (states _ (Runs.last_mem _ calls))

theorem fileOf_bytes (spares : ∀ move ∈ Runs.moves (act lib) (make lib delimiter bufferSize) calls,
    Spares move.1 move.2) :
      fileOf lib delimiter bufferSize calls = (calls.flatMap (·.bytes delimiter)).map some := by
  obtain ⟨sound, delimited, empty⟩ := make_sound lib delimiter bufferSize
  have appended := run_appends lib sound spares
  rw [delimited] at appended
  rw [fileOf_content, appended.content, empty, List.nil_append]

/-- With one buffer size from the first call to the last, the memory of the buffer may be
forgotten: the file is the one of `CSVWriter`. -/
theorem fileOf_rows (quoteChar : UInt8) (header : List Field) (rows : List (List Field)) :
    fileOf lib delimiter bufferSize [.writeRow header, .writeRows rows] =
      (CSVWriter.fileOf delimiter quoteChar bufferSize header rows).map some := by
  rw [CSVWriter.fileOf_eq, fileOf_bytes]
  · simp [Call.bytes]
  · simp [Runs.moves, Spares]

end Files
end BufferedWriter

/-- No store goes beyond the buffer, and the file has the bytes of the calls in their order just
when no `set_buffer_size` makes the buffer grow while bytes are pending. -/
theorem buffering_iff (lib : StringLib) (delimiter : UInt8) (bufferSize : Nat)
    (calls : List BufferedWriter.Call) :
    let opened := BufferedWriter.make lib delimiter bufferSize
    (∀ w ∈ Runs.states (BufferedWriter.act lib) opened calls, w.overrun = false) ∧
      (BufferedWriter.fileOf lib delimiter bufferSize calls =
        (calls.flatMap (·.bytes delimiter)).map some ↔
        ∀ move ∈ Runs.moves (BufferedWriter.act lib) opened calls,
          BufferedWriter.Spares move.1 move.2) := by
  intro opened
  have sound := (BufferedWriter.make_sound lib delimiter bufferSize).1
  have states := BufferedWriter.run_sound lib sound calls
  refine ⟨fun w member => (states w member).inside, ?_,
    BufferedWriter.fileOf_bytes lib delimiter bufferSize calls⟩
  intro same
  have stored : BufferedWriter.Stored (calls.foldl (BufferedWriter.act lib) opened) := by
    rw [BufferedWriter.Stored, ← BufferedWriter.fileOf_content, same]
    simp
  have run := Runs.final_iff (fun _ c sound => (BufferedWriter.act_sound lib sound c).1)
    (fun _ c sound => BufferedWriter.act_stored lib sound c) sound calls
  exact (run.mp stored).2

theorem doubled_enough (capacity size : Nat) : size ≤ max size (2 * capacity) := le_max_left _ _

/-- Strings that hold 15 characters in place and at least double when they grow. -/
def doublingStrings : StringLib :=
  ⟨15, fun capacity size => max size (2 * capacity), doubled_enough⟩

/-- A row in a buffer of 16 bytes, which then grows to 64: the row is lost. -/
theorem row_lost :
    ¬ ∀ (lib : StringLib) (delimiter : UInt8) (bufferSize : Nat) (calls : List BufferedWriter.Call),
    BufferedWriter.fileOf lib delimiter bufferSize calls =
      (calls.flatMap (·.bytes delimiter)).map some := by
  intro claim
  have same := claim doublingStrings 44 16 [.writeRow [[97], [98]], .setBufferSize 64]
  exact absurd same (by decide)

end BTrader.Infra
