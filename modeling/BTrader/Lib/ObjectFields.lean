import BTrader.Lib.CString
import BTrader.Lib.Memory

/-! The members of an object in memory: members copied from another object, strings in it, and
what assigning one member leaves of the others. -/
namespace ByteMemory.Object

variable {size a b : Nat}

/-- The bytes in place of those at the offset; what would go beyond the object is dropped. -/
def splice (o : Object size) (offset : Nat) (bytes : List UInt8) : Object size where
  bytes :=
    o.bytes.take offset ++ (bytes.take (size - offset) ++ o.bytes.drop (offset + bytes.length))
  length := by
    have := o.length
    simp only [List.length_append, List.length_take, List.length_drop]
    omega

/-- Copy members that lie together. -/
def copy (o other : Object size) (offset count : Nat) : Object size :=
  o.splice offset ((other.bytes.drop offset).take count)

/-- The string at the offset, as far as the object goes. -/
def string (o : Object size) (offset : Nat) : List UInt8 := CString.chars (o.bytes.drop offset)

/-- Copy the string of a member, without its NUL. -/
def assignString (o other : Object size) (offset : Nat) : Object size :=
  o.splice offset (other.string offset)

def load8 (o : Object size) (offset : Nat) : UInt8 := o.bytes[offset]?.getD 0

/-- A word assigned further in front leaves a member alone. -/
theorem load64_store64_front (o : Object size) (fits : b + 8 ≤ size) (value : UInt64)
    (before : b + 8 ≤ a) :
    (o.store64 b fits value).load64 a = o.load64 a := by
  have length : (o.bytes.take b ++ toLE 8 value.toNat).length = b + 8 := by
    rw [List.length_append, List.length_take, toLE_length, o.length]
    omega
  have field : (o.store64 b fits value).bytes.drop a = o.bytes.drop a := by
    obtain ⟨n, rfl⟩ := Nat.exists_eq_add_of_le before
    change (o.bytes.take b ++ toLE 8 value.toNat ++ o.bytes.drop (b + 8)).drop (b + 8 + n) = _
    rw [← List.drop_drop, List.drop_left' length, List.drop_drop]
  rw [load64, field, load64]

/-- A word assigned behind a NUL leaves the string before it alone. -/
theorem string_store64_behind (o : Object size) (fits : b + 8 ≤ size) (value : UInt64)
    (terminated : 0 ∈ (o.bytes.drop a).take (b - a)) (before : a ≤ b) :
    (o.store64 b fits value).string a = o.string a := by
  have split (rest : List UInt8) : CString.chars ((o.bytes.drop a).take (b - a) ++ rest) =
      CString.chars ((o.bytes.drop a).take (b - a)) := by
    obtain ⟨tail, shape⟩ := CString.exists_rest (if_pos terminated : CString.read _ = some _)
    have read_ :=
      CString.read_terminated (CString.chars_plain ((o.bytes.drop a).take (b - a))) (tail ++ rest)
    rw [← List.cons_append, ← List.append_assoc, ← shape] at read_
    exact (CString.read_eq_some read_).2
  have length : (o.bytes.take b).length = b := by
    rw [List.length_take, o.length]
    omega
  have left : (o.store64 b fits value).bytes.drop a = (o.bytes.drop a).take (b - a) ++
      (toLE 8 value.toNat ++ o.bytes.drop (b + 8)) := by
    rw [store64_bytes, List.drop_append_of_le_length (by omega), List.drop_take]
  have right : o.bytes.drop a = (o.bytes.drop a).take (b - a) ++ o.bytes.drop b := by
    conv_lhs =>
      rw [← List.take_append_drop (b - a) (o.bytes.drop a), List.drop_drop,
        Nat.add_sub_cancel' before]
  calc (o.store64 b fits value).string a
      _ = CString.chars ((o.bytes.drop a).take (b - a) ++
        (toLE 8 value.toNat ++ o.bytes.drop (b + 8))) := congrArg _ left
      _ = CString.chars ((o.bytes.drop a).take (b - a) ++ o.bytes.drop b) :=
        (split _).trans (split _).symm
      _ = o.string a := congrArg _ right.symm

end ByteMemory.Object
