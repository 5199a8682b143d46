import Mathlib

/-! NUL-terminated strings in blocks of bytes of a fixed length, and what is left of a block
when a string is copied over its front without the NUL. -/
namespace CString

/-- The bytes before the first NUL. -/
def chars (bytes : List UInt8) : List UInt8 := bytes.takeWhile (· ≠ 0)

/-- The string a block holds; one without a NUL holds none, a reader runs on behind it. -/
def read (bytes : List UInt8) : Option (List UInt8) :=
  if 0 ∈ bytes then some (chars bytes) else none

/-- Copy the string over the front of the block; what does not fit is not part of it. -/
def overwrite (bytes s : List UInt8) : List UInt8 := s.take bytes.length ++ bytes.drop s.length

theorem chars_plain (bytes : List UInt8) : 0 ∉ chars bytes := by
  intro member
  simpa using List.mem_takeWhile_imp member

theorem chars_length_le (bytes : List UInt8) : (chars bytes).length ≤ bytes.length :=
  (List.takeWhile_prefix _).length_le

theorem chars_append {s : List UInt8} (plain : 0 ∉ s) (rest : List UInt8) :
    chars (s ++ rest) = s ++ chars rest :=
  List.takeWhile_append_of_pos fun c member => by
    have some : c ≠ 0 := fun same => plain (same ▸ member)
    simpa using some

theorem read_terminated {s : List UInt8} (plain : 0 ∉ s) (rest : List UInt8) :
    read (s ++ 0 :: rest) = some s := by
  rw [read, if_pos (by simp), chars_append plain]
  simp [chars]

theorem read_eq_some {bytes s : List UInt8} (read_ : read bytes = some s) :
    0 ∈ bytes ∧ chars bytes = s := by
  simpa [read] using read_

/-- A block that holds a string is the string, a NUL and the rest. -/
theorem exists_rest {bytes s : List UInt8} (read_ : read bytes = some s) :
    ∃ rest, bytes = s ++ 0 :: rest := by
  obtain ⟨member, rfl⟩ := read_eq_some read_
  refine ⟨bytes.drop ((chars bytes).length + 1), ?_⟩
  induction bytes with
  | nil => contradiction
  | cons c bytes ih =>
    by_cases zero : c = 0
    · subst zero
      simp [chars]
    · have later : 0 ∈ bytes := by
        rcases List.mem_cons.mp member with here | later
        · exact absurd here.symm zero
        · exact later
      have more : chars (c :: bytes) = c :: chars bytes :=
        List.takeWhile_cons_of_pos (by simpa using zero)
      rw [more]
      exact congrArg (c :: ·) (ih later (if_pos later))

theorem read_length_lt {bytes s : List UInt8} (read_ : read bytes = some s) :
    s.length < bytes.length := by
  obtain ⟨rest, rfl⟩ := exists_rest read_
  simp

@[simp] theorem overwrite_length (bytes s : List UInt8) :
    (overwrite bytes s).length = bytes.length := by
  simp only [overwrite, List.length_append, List.length_take, List.length_drop]
  omega

theorem overwrite_of_le {bytes s : List UInt8} (short : s.length ≤ bytes.length) :
    overwrite bytes s = s ++ bytes.drop s.length := by
  rw [overwrite, List.take_of_length_le short]

/-- The block holds the string that was copied just when there was a NUL where the string ends. -/
theorem read_overwrite_iff {bytes s : List UInt8} (plain : 0 ∉ s)
    (short : s.length < bytes.length) :
    read (overwrite bytes s) = some s ↔ bytes[s.length]? = some 0 := by
  rw [overwrite_of_le short.le, List.drop_eq_getElem_cons short, List.getElem?_eq_getElem short,
    Option.some_inj]
  constructor
  · intro read_
    obtain ⟨rest, shape⟩ := exists_rest read_
    exact (List.cons.inj (List.append_cancel_left shape)).1
  · intro zero
    rw [zero]
    exact read_terminated plain _

/-- The same through two blocks: a string copied over the first, and what this then holds over
the second. -/
theorem read_overwrite_overwrite_iff {first second s : List UInt8} (plain : 0 ∉ s)
    (short : s.length < first.length) (size : second.length = first.length) :
    read (overwrite second (chars (overwrite first s))) = some s ↔
      first[s.length]? = some 0 ∧ second[s.length]? = some 0 := by
  by_cases zero : first[s.length]? = some 0
  · have passed := (read_eq_some ((read_overwrite_iff plain short).mpr zero)).2
    rw [passed, read_overwrite_iff plain (size ▸ short)]
    simp [zero]
  · simp only [zero, false_and, iff_false]
    intro read_
    obtain ⟨rest, shape⟩ := exists_rest read_
    have next : first[s.length] ≠ 0 := by
      rwa [List.getElem?_eq_getElem short, Option.some_inj] at zero
    have within : (chars (overwrite first s)).length ≤ second.length := by
      rw [size, ← overwrite_length first s]
      exact chars_length_le _
    rw [overwrite_of_le within, overwrite_of_le short.le, chars_append plain,
      List.drop_eq_getElem_cons short, List.append_assoc] at shape
    have longer : chars (first[s.length] :: first.drop (s.length + 1)) =
        first[s.length] :: chars (first.drop (s.length + 1)) :=
          List.takeWhile_cons_of_pos (by simpa using next)
    rw [longer, List.cons_append] at shape
    exact next (List.cons.inj (List.append_cancel_left shape)).1

/-- What a block holds, copied over a block of zeros. -/
theorem overwrite_zeros (bytes : List UInt8) :
    chars (overwrite (List.replicate bytes.length 0) (chars bytes)) = chars bytes ∧
      read (overwrite (List.replicate bytes.length 0) (chars bytes)) = read bytes := by
  by_cases member : 0 ∈ bytes
  · have read_ : read bytes = some (chars bytes) := if_pos member
    have short := read_length_lt read_
    have zero : (List.replicate bytes.length (0 : UInt8))[(chars bytes).length]? = some 0 := by
      rw [List.getElem?_replicate, if_pos short]
    have same := (read_overwrite_iff (chars_plain bytes) (by simpa using short)).mpr zero
    exact ⟨(read_eq_some same).2, same.trans read_.symm⟩
  · have all : chars bytes = bytes := by
      rw [chars, List.takeWhile_eq_self_iff]
      intro c here
      have some : c ≠ 0 := fun zero => member (zero ▸ here)
      simpa using some
    have same : overwrite (List.replicate bytes.length 0) bytes = bytes := by
      rw [overwrite_of_le (by simp), List.drop_of_length_le (by simp), List.append_nil]
    rw [all, same]
    exact ⟨all, rfl⟩

end CString
