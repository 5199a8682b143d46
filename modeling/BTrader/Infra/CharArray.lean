import BTrader.Lib.CString
import BTrader.Lib.Memory

/-! `infra::Array<char, N>`: its assignment from a string, in memory and as a value, and the
records made of such arrays. -/
namespace BTrader.Infra
open ByteMemory

/-- The value of an `Array<char, N>`. -/
structure CharArray (N : Nat) where
  bytes : List UInt8
  length : bytes.length = N
  deriving DecidableEq

namespace CharArray
variable {N : Nat}

/-- What the default constructor makes. -/
def zero (N : Nat) : CharArray N := ⟨List.replicate N 0, List.length_replicate⟩

/-- The bytes up to the first NUL, `strlen` many. -/
def chars (a : CharArray N) : List UInt8 := CString.chars a.bytes

/-- An array without a NUL has no string of its own: `std::string` reads on behind it. -/
def toString (a : CharArray N) : Option (List UInt8) := CString.read a.bytes

/-- The stores of `operator=(const T *)` on the array at the address, for the string at the
pointer. From the array itself nothing is copied. -/
def assignAt (address : Nat) (s : List UInt8) : List StoreOp := copyBytes address s

/-- What the stores leave of the array's value. -/
def assign (a : CharArray N) (s : List UInt8) : CharArray N :=
  ⟨CString.overwrite a.bytes s, by rw [CString.overwrite_length, a.length]⟩

/-- `operator=(const Array &)`. -/
def assignFrom (a other : CharArray N) : CharArray N := a.assign other.chars

/-- The array in memory. -/
def ofMemory (m : Memory) (address N : Nat) : CharArray N := ⟨m.slice address N, slice_length _ _ _⟩

@[ext] theorem ext {a b : CharArray N} (same : a.bytes = b.bytes) : a = b := by
  cases a
  cases b
  simpa using same

theorem chars_plain (a : CharArray N) : 0 ∉ a.chars := CString.chars_plain _

theorem toString_chars {a : CharArray N} {s : List UInt8} (read : a.toString = some s) :
    a.chars = s :=
  (CString.read_eq_some read).2

theorem chars_length_lt {a : CharArray N} {s : List UInt8} (read : a.toString = some s) :
    a.chars.length < N := by
  have short := CString.read_length_lt read
  rwa [← toString_chars read, a.length] at short

/-- An array's string, assigned to a new array. -/
theorem zero_assignFrom (a : CharArray N) :
    ((zero N).assignFrom a).chars = a.chars ∧ ((zero N).assignFrom a).toString = a.toString := by
  have zeros := CString.overwrite_zeros a.bytes
  rw [a.length] at zeros
  exact zeros

theorem ofMemory_assign (m : Memory) (address N : Nat) (s : List UInt8) :
    ofMemory (m.execAll (assignAt address s)) address N = (ofMemory m address N).assign s := by
  apply ext
  refine List.ext_getElem (by simp [ofMemory, assign]) fun i left right => ?_
  have bound : i < N := by simpa [ofMemory] using left
  rw [show (ofMemory (m.execAll (assignAt address s)) address N).bytes[i] =
    m.execAll (assignAt address s) (address + i) from
    slice_get _ _ _ _ _, assignAt, execAll_copyBytes]
  by_cases inside : i < s.length
  · rw [write_at m ⟨address, s⟩ i inside]
    have taken : i < (s.take N).length := by
      rw [List.length_take]
      omega
    simp [assign, CString.overwrite, ofMemory, List.getElem_append_left taken]
  · have apart : ¬ (⟨address, s⟩ : Store).Touches (address + i) := by
      rintro ⟨_, upper⟩
      exact inside (by simpa using upper)
    rw [write_frame m _ apart]
    have behind : (s.take N).length ≤ i := by
      rw [List.length_take]
      omega
    have index : s.length + (i - (s.take N).length) = i := by
      rw [List.length_take]
      omega
    simp only [assign, CString.overwrite, ofMemory, slice_length, List.getElem_append_right behind,
      List.getElem_drop, index, slice_get]

theorem ofMemory_get (m : Memory) (address : Nat) {i : Nat} (bound : i < N) :
    (ofMemory m address N).bytes[i]? = some (m (address + i)) := by
  rw [List.getElem?_eq_getElem (by rwa [(ofMemory m address N).length])]
  exact congrArg some (slice_get _ _ _ _ _)

/-- The stores stay inside the array just when the string is no longer than it. -/
theorem assignAt_inside_iff (address N : Nat) (s : List UInt8) :
    (∀ op ∈ assignAt address s, ∀ m x, (op m).Touches x → address ≤ x ∧ x < address + N) ↔
      s.length ≤ N := by
  constructor
  · intro inside
    by_contra long
    have bound : N < s.length := not_le.mp long
    let m : Memory := fun _ => s[N] + 1
    have kept : m.execAll (assignAt address s) (address + N) = s[N] + 1 :=
      execAll_frame (fun op member m' touched => by have := inside op member m' _ touched; omega) m
    rw [assignAt, execAll_copyBytes, write_at m ⟨address, s⟩ N bound] at kept
    exact absurd kept (by simp)
  · intro short op member m x touched
    have reach := copyBytes_touches member touched
    omega

theorem toString_assign_iff {a : CharArray N} {s : List UInt8} (plain : 0 ∉ s)
    (short : s.length < N) :
    (a.assign s).toString = some s ↔ a.bytes[s.length]? = some 0 :=
  CString.read_overwrite_iff plain (by rwa [a.length])

end CharArray
end BTrader.Infra
