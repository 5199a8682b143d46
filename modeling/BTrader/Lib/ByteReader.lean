import BTrader.Lib.Memory
import BTrader.Lib.Procedure

/-! Decoders of a byte buffer: they take bytes from its front, throw, or would read behind its
end. A round trip is put together from those of the parts, and so is the number of bytes a
decoder needs. -/
namespace ByteReader
open ByteMemory Procedure

inductive Failure where
  /-- The bytes asked for are not all in the buffer. -/
  | outside
  | thrown (what : String)
  deriving DecidableEq, Repr

/-- The state is what is left of the buffer. -/
abbrev Decoder := EStateM Failure (List UInt8)

/-- A block of bytes of a fixed length. -/
structure Block (n : Nat) where
  bytes : List UInt8
  length : bytes.length = n

def block (n : Nat) : Decoder (Block n) := fun rest =>
  if enough : n ≤ rest.length then .ok ⟨rest.take n, List.length_take_of_le enough⟩ (rest.drop n)
  else .error .outside rest

def word8 : Decoder UInt8 := do return UInt8.ofNat (ofLE (← block 1).bytes)

def word32 : Decoder UInt32 := do return UInt32.ofNat (ofLE (← block 4).bytes)

def word64 : Decoder UInt64 := do return UInt64.ofNat (ofLE (← block 8).bytes)

def int32 : Decoder Int32 := do return (← word32).toInt32

def int64 : Decoder Int64 := do return (← word64).toInt64

/-- A string behind its length. -/
def sized : Decoder (List UInt8) := do
  let length ← word32
  return (← block length.toNat).bytes

/-- The body again and again, on what it made of the value before. -/
def loop {σ : Type} (body : σ → Decoder σ) : Nat → σ → Decoder σ
  | 0, s => pure s
  | n + 1, s => do loop body n (← body s)

section
variable {α β σ : Type} {r : Decoder α} {f : α → Decoder β} {encoded encoded' : List UInt8}
    {a : α} {b : β}

/-- The decoder takes just these bytes from the front of any buffer, and makes this of them. -/
def Reads (r : Decoder α) (encoded : List UInt8) (a : α) : Prop :=
  ∀ rest, r (encoded ++ rest) = .ok a rest

theorem Reads.of_eq {a' : α} (reads : Reads r encoded a) (same : a = a') :
    Reads r encoded a' := same ▸ reads

theorem reads_pure (a : α) : Reads (pure a) [] a := fun _ => rfl

theorem Reads.bind (first : Reads r encoded a) (second : Reads (f a) encoded' b) :
    Reads (r >>= f) (encoded ++ encoded') b := by
  intro rest
  rw [List.append_assoc, bind_ok (first _), second]

theorem Reads.map (first : Reads r encoded a) (g : α → β) :
    Reads (do return g (← r)) encoded (g a) := by
  have both := first.bind (f := fun a => pure (g a)) (reads_pure (g a))
  rwa [List.append_nil] at both

theorem reads_block {n : Nat} (b : Block n) : Reads (block n) b.bytes b := by
  intro rest
  have enough : n ≤ (b.bytes ++ rest).length := by
    rw [List.length_append, b.length]
    exact Nat.le_add_right _ _
  have front : (b.bytes ++ rest).take n = b.bytes := List.take_left' b.length
  have behind : (b.bytes ++ rest).drop n = rest := List.drop_left' b.length
  simp only [block, dif_pos enough, front, behind]

/-- The little-endian bytes of a number as a block. -/
def Block.ofLE (width value : Nat) : Block width := ⟨toLE width value, toLE_length _ _⟩

theorem reads_word8 (x : UInt8) : Reads word8 (toLE 1 x.toNat) x := by
  have read :=
    (reads_block (Block.ofLE 1 x.toNat)).map fun b => UInt8.ofNat (ByteMemory.ofLE b.bytes)
  have small : x.toNat < 256 ^ 1 := x.toNat_lt
  rwa [Block.ofLE, ofLE_toLE, Nat.mod_eq_of_lt small, UInt8.ofNat_toNat] at read

theorem reads_word32 (x : UInt32) : Reads word32 (toLE 4 x.toNat) x := by
  have read :=
    (reads_block (Block.ofLE 4 x.toNat)).map fun b => UInt32.ofNat (ByteMemory.ofLE b.bytes)
  have small : x.toNat < 256 ^ 4 := x.toNat_lt
  rwa [Block.ofLE, ofLE_toLE, Nat.mod_eq_of_lt small, UInt32.ofNat_toNat] at read

theorem word32_eq {rest : List UInt8} (enough : 4 ≤ rest.length) :
    word32 rest = .ok (UInt32.ofNat (ByteMemory.ofLE (rest.take 4))) (rest.drop 4) := by
  have read := reads_block ⟨rest.take 4, List.length_take_of_le enough⟩ (rest.drop 4)
  rw [List.take_append_drop] at read
  rw [word32, bind_ok read]
  rfl

theorem reads_word64 (x : UInt64) : Reads word64 (toLE 8 x.toNat) x := by
  have read :=
    (reads_block (Block.ofLE 8 x.toNat)).map fun b => UInt64.ofNat (ByteMemory.ofLE b.bytes)
  have small : x.toNat < 256 ^ 8 := x.toNat_lt
  rwa [Block.ofLE, ofLE_toLE, Nat.mod_eq_of_lt small, UInt64.ofNat_toNat] at read

theorem reads_int32 (x : Int32) : Reads int32 (toLE 4 x.toUInt32.toNat) x := by
  have read := (reads_word32 x.toUInt32).map UInt32.toInt32
  rwa [Int32.toInt32_toUInt32] at read

theorem reads_int64 (x : Int64) : Reads int64 (toLE 8 x.toUInt64.toNat) x := by
  have read := (reads_word64 x.toUInt64).map UInt64.toInt64
  rwa [Int64.toInt64_toUInt64] at read

theorem reads_sized {s : List UInt8} (short : s.length < 2 ^ 32) :
    Reads sized (toLE 4 s.length ++ s) s := by
  have length : (UInt32.ofNat s.length).toNat = s.length := UInt32.toNat_ofNat_of_lt' short
  have first := reads_word32 (UInt32.ofNat s.length)
  rw [length] at first
  exact first.bind ((reads_block ⟨s, length.symm⟩).map Block.bytes)

/-- A loop reads the encodings of a list, one element a round. -/
theorem reads_loop {γ : Type} {body : σ → Decoder σ} {encode : γ → List UInt8}
    {step : σ → γ → σ} (l : List γ)
    (round : ∀ s, ∀ x ∈ l, Reads (body s) (encode x) (step s x)) (s : σ) :
    Reads (loop body l.length s) (l.flatMap encode) (l.foldl step s) := by
  induction l generalizing s with
  | nil => exact reads_pure s
  | cons x l ih =>
    rw [List.flatMap_cons]
    exact (round s x List.mem_cons_self).bind
      (ih (fun s y member => round s y (List.mem_cons_of_mem _ member)) _)

/-- The decoder takes as many bytes from any buffer that has them and where they are good; where
they are not, and from a shorter buffer, it reads outside. -/
structure Takes (n : Nat) (good : List UInt8 → Prop) (r : Decoder α) : Prop where
  reads : ∀ b : List UInt8, b.length = n → good b → ∃ a, Reads r b a
  bad : ∀ b : List UInt8, b.length = n → ¬ good b →
    ∀ rest, ∃ left, r (b ++ rest) = .error .outside left
  short : ∀ rest : List UInt8, rest.length < n → ∃ left, r rest = .error .outside left

/-- Any bytes will do. -/
def Needs (n : Nat) (r : Decoder α) : Prop := Takes n (fun _ => True) r

theorem needs_pure (a : α) : Needs 0 (pure a : Decoder α) where
  reads b none _ := ⟨a, by rw [List.length_eq_zero_iff.mp none]; exact reads_pure a⟩
  bad _ _ not := absurd trivial not
  short rest less := absurd less (Nat.not_lt_zero _)

theorem Takes.bind {n m : Nat} {good good' : List UInt8 → Prop} (first : Takes n good r)
    (second : ∀ a, Takes m good' (f a)) :
    Takes (n + m) (fun b => good (b.take n) ∧ good' (b.drop n)) (r >>= f) := by
  have parts {b : List UInt8} (length : b.length = n + m) :
      (b.take n).length = n ∧ (b.drop n).length = m := by
    rw [List.length_take, List.length_drop, length]
    omega
  constructor
  · intro b length fine
    obtain ⟨front, behind⟩ := parts length
    obtain ⟨a, read⟩ := first.reads _ front fine.1
    obtain ⟨a', read'⟩ := (second a).reads _ behind fine.2
    have both := read.bind read'
    rw [List.take_append_drop] at both
    exact ⟨a', both⟩
  · intro b length not rest
    obtain ⟨front, behind⟩ := parts length
    rw [← List.take_append_drop n b, List.append_assoc]
    by_cases fine : good (b.take n)
    · obtain ⟨a, read⟩ := first.reads _ front fine
      rw [bind_ok (read _)]
      exact (second a).bad _ behind (fun fine' => not ⟨fine, fine'⟩) rest
    · obtain ⟨left, failed⟩ := first.bad _ front fine (b.drop n ++ rest)
      exact ⟨left, by rw [bind_error failed]⟩
  · intro rest less
    by_cases some : n ≤ rest.length
    · have front : (rest.take n).length = n := List.length_take_of_le some
      rw [← List.take_append_drop n rest]
      by_cases fine : good (rest.take n)
      · obtain ⟨a, read⟩ := first.reads _ front fine
        rw [bind_ok (read _)]
        exact (second a).short _ (by rw [List.length_drop]; omega)
      · obtain ⟨left, failed⟩ := first.bad _ front fine (rest.drop n)
        exact ⟨left, by rw [bind_error failed]⟩
    · obtain ⟨left, failed⟩ := first.short rest (not_le.mp some)
      exact ⟨left, by rw [bind_error failed]⟩

theorem Takes.congr {n : Nat} {good good' : List UInt8 → Prop} (takes : Takes n good r)
    (same : ∀ b : List UInt8, b.length = n → (good b ↔ good' b)) : Takes n good' r where
  reads b length fine := takes.reads b length ((same b length).mpr fine)
  bad b length not := takes.bad b length (mt (same b length).mp not)
  short := takes.short

theorem Needs.bind {n m : Nat} (first : Needs n r) (second : ∀ a, Needs m (f a)) :
    Needs (n + m) (r >>= f) :=
  (Takes.bind first second).congr fun _ _ => and_self_iff

theorem needs_block (n : Nat) : Needs n (block n) where
  reads b length _ := ⟨⟨b, length⟩, reads_block ⟨b, length⟩⟩
  bad _ _ not := absurd trivial not
  short rest less := ⟨rest, dif_neg (not_le.mpr less)⟩

theorem Needs.map {n : Nat} (first : Needs n r) (g : α → β) : Needs n (do return g (← r)) :=
  first.bind fun _ => needs_pure _

theorem needs_word8 : Needs 1 word8 := (needs_block 1).map _

theorem needs_word32 : Needs 4 word32 := (needs_block 4).map _

theorem needs_word64 : Needs 8 word64 := (needs_block 8).map _

theorem needs_int64 : Needs 8 int64 := needs_word64.map _

/-- What was read is used only if it meets a condition. -/
theorem Needs.guarded {n : Nat} (first : Needs n r) (met : α → Prop) [DecidablePred met]
    (g : α → β) :
    Takes n (fun b => ∃ a, Reads r b a ∧ met a) (r >>= fun a => if met a then pure (g a)
      else throw .outside) where
  reads b _ fine := by
    obtain ⟨a, read, meets⟩ := fine
    have checked : Reads (if met a then pure (g a) else throw .outside : Decoder β) [] (g a) := by
      rw [if_pos meets]
      exact reads_pure _
    have both := read.bind (f := fun a => if met a then pure (g a) else throw .outside) checked
    rw [List.append_nil] at both
    exact ⟨g a, both⟩
  bad b length not rest := by
    obtain ⟨a, read⟩ := first.reads b length trivial
    have fails : ¬ met a := fun meets => not ⟨a, read, meets⟩
    refine ⟨rest, ?_⟩
    rw [bind_ok (read rest), if_neg fails]
    rfl
  short rest less := by
    obtain ⟨left, failed⟩ := first.short rest less
    exact ⟨left, by rw [bind_error failed]⟩

theorem takes_loop {n : Nat} {good : List UInt8 → Prop} {body : σ → Decoder σ}
    (round : ∀ s, Takes n good (body s)) (count : Nat) (s : σ) :
    Takes (count * n) (fun b => ∀ i < count, good ((b.drop (i * n)).take n))
      (loop body count s) := by
  induction count generalizing s with
  | zero =>
    rw [Nat.zero_mul]
    exact (needs_pure s).congr fun _ _ => by simp
  | succ count ih =>
    rw [Nat.succ_mul, Nat.add_comm]
    refine ((round s).bind ih).congr fun b _ => ?_
    have later (i : Nat) : (b.drop n).drop (i * n) = b.drop ((i + 1) * n) := by
      rw [List.drop_drop, Nat.succ_mul, Nat.add_comm]
    simp only [later]
    constructor
    · rintro ⟨first, others⟩ i bound
      cases i with
      | zero => simpa using first
      | succ i => exact others i (by omega)
    · intro all
      exact ⟨by simpa using all 0 (by omega), fun i bound => all (i + 1) (by omega)⟩

theorem Takes.outside_iff {n : Nat} {good : List UInt8 → Prop} (takes : Takes n good r)
    (rest : List UInt8) :
    (∃ left, r rest = .error .outside left) ↔ ¬ (n ≤ rest.length ∧ good (rest.take n)) := by
  constructor
  · rintro ⟨left, failed⟩ ⟨enough, fine⟩
    obtain ⟨a, read⟩ := takes.reads _ (List.length_take_of_le enough) fine
    have ran := read (rest.drop n)
    rw [List.take_append_drop, failed] at ran
    contradiction
  · intro not
    by_cases enough : n ≤ rest.length
    · have failed :=
        takes.bad _ (List.length_take_of_le enough) (fun fine => not ⟨enough, fine⟩) (rest.drop n)
      rwa [List.take_append_drop] at failed
    · exact takes.short rest (not_le.mp enough)

end
end ByteReader
