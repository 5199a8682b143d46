import Mathlib

/-! Byte-addressed memory, little-endian words and sequences of stores. Every
write is one `Store`; a read is a function of the bytes of its own range, so
each frame fact follows from `Set.EqOn` on that range. -/
namespace ByteMemory

abbrev Memory := Nat → UInt8

/-- The `width` little-endian bytes of `value`; higher bytes are dropped. -/
def toLE : Nat → Nat → List UInt8
  | 0, _ => []
  | width + 1, value => UInt8.ofNat value :: toLE width (value / 256)

def ofLE : List UInt8 → Nat
  | [] => 0
  | byte :: rest => byte.toNat + 256 * ofLE rest

@[simp] theorem toLE_length (width value : Nat) : (toLE width value).length = width := by
  induction width generalizing value with
  | zero => rfl
  | succ width ih => simp only [toLE, List.length_cons, ih]

theorem ofLE_toLE (width value : Nat) : ofLE (toLE width value) = value % 256 ^ width := by
  induction width generalizing value with
  | zero => simp only [toLE, ofLE, Nat.pow_zero, Nat.mod_one]
  | succ width ih =>
    have byte : (UInt8.ofNat value).toNat = value % 256 := by simp
    rw [toLE, ofLE, ih, byte, Nat.pow_succ', Nat.mod_mul]

/-- The `count` bytes from `address` on. -/
def Memory.slice (m : Memory) (address : Nat) : Nat → List UInt8
  | 0 => []
  | count + 1 => m address :: Memory.slice m (address + 1) count

@[simp] theorem slice_length (m : Memory) (address count : Nat) :
    (m.slice address count).length = count := by
  induction count generalizing address with
  | zero => rfl
  | succ count ih => simp only [Memory.slice, List.length_cons, ih]

theorem slice_ext {m m' : Memory} (same : ∀ i < count, m (a + i) = m' (b + i)) :
    m.slice a count = m'.slice b count := by
  induction count generalizing a b with
  | zero => rfl
  | succ count ih =>
    have head := same 0 (by omega)
    have tail := ih (a := a + 1) (b := b + 1) (fun i hi => by
      simpa only [Nat.add_assoc, Nat.add_comm 1 i] using same (i + 1) (by omega))
    simp only [Memory.slice, tail]
    simpa using head

theorem slice_congr {m m' : Memory} (same : Set.EqOn m m' (Set.Ico address (address + count))) :
    m.slice address count = m'.slice address count :=
  slice_ext (fun _ hi => same ⟨by omega, by omega⟩)

/-- One atomic store: the bytes land at consecutive addresses. -/
structure Store where
  address : Nat
  bytes : List UInt8

def Memory.write (m : Memory) (s : Store) : Memory := fun x =>
  if x < s.address then m x else s.bytes[x - s.address]?.getD (m x)

def Store.Touches (s : Store) (x : Nat) : Prop := s.address ≤ x ∧ x < s.address + s.bytes.length

theorem write_frame (m : Memory) (s : Store) (outside : ¬ s.Touches x) : m.write s x = m x := by
  unfold Memory.write
  split
  · rfl
  · rename_i above
    have beyond : s.bytes.length ≤ x - s.address := by
      by_contra within
      exact outside ⟨by omega, by omega⟩
    rw [List.getElem?_eq_none beyond, Option.getD_none]

theorem write_at (m : Memory) (s : Store) (i : Nat) (bound : i < s.bytes.length) :
    m.write s (s.address + i) = s.bytes[i] := by
  have index : s.address + i - s.address = i := by omega
  rw [Memory.write, if_neg (by omega), index, List.getElem?_eq_getElem bound, Option.getD_some]

theorem write_eqOn (m : Memory) (s : Store)
    (apart : address + count ≤ s.address ∨ s.address + s.bytes.length ≤ address) :
    Set.EqOn (m.write s) m (Set.Ico address (address + count)) := by
  intro x hx
  apply write_frame
  rintro ⟨lower, upper⟩
  have := hx.1
  have := hx.2
  omega

theorem slice_eq_of_get {m : Memory} {bytes : List UInt8}
    (get : ∀ i (h : i < bytes.length), m (address + i) = bytes[i]) :
    m.slice address bytes.length = bytes := by
  induction bytes generalizing address with
  | nil => rfl
  | cons byte rest ih =>
    have head := get 0 (by simp)
    have tail : m.slice (address + 1) rest.length = rest := ih (fun i h => by
      have := get (i + 1) (by simpa using h)
      simpa only [List.getElem_cons_succ, Nat.add_assoc, Nat.add_comm 1 i] using this)
    simp only [List.length_cons, Memory.slice, tail]
    simpa using head

theorem slice_get (m : Memory) (address count i : Nat)
    (bound : i < (m.slice address count).length) :
    (m.slice address count)[i] = m (address + i) := by
  induction count generalizing address i with
  | zero => simp [Memory.slice] at bound
  | succ count ih =>
    cases i with
    | zero => rfl
    | succ i =>
      simp only [Memory.slice, List.getElem_cons_succ]
      rw [ih (address + 1) i (by simpa [Memory.slice] using bound)]
      congr 1
      omega

theorem slice_write_self (m : Memory) (s : Store) :
    (m.write s).slice s.address s.bytes.length = s.bytes :=
  slice_eq_of_get (fun i h => write_at m s i h)

/-! Words. -/

def Memory.load32 (m : Memory) (address : Nat) : UInt32 := UInt32.ofNat (ofLE (m.slice address 4))

def Memory.load64 (m : Memory) (address : Nat) : UInt64 := UInt64.ofNat (ofLE (m.slice address 8))

def Store.word32 (address : Nat) (value : UInt32) : Store := ⟨address, toLE 4 value.toNat⟩

def Store.word64 (address : Nat) (value : UInt64) : Store := ⟨address, toLE 8 value.toNat⟩

@[simp] theorem word32_address (address : Nat) (value : UInt32) :
    (Store.word32 address value).address = address := rfl

@[simp] theorem word64_address (address : Nat) (value : UInt64) :
    (Store.word64 address value).address = address := rfl

@[simp] theorem word32_length (address : Nat) (value : UInt32) :
    (Store.word32 address value).bytes.length = 4 := toLE_length _ _

@[simp] theorem word64_length (address : Nat) (value : UInt64) :
    (Store.word64 address value).bytes.length = 8 := toLE_length _ _

@[simp] theorem load32_write_word (m : Memory) (address : Nat) (value : UInt32) :
    (m.write (.word32 address value)).load32 address = value := by
  have bytes := slice_write_self m (.word32 address value)
  have small : value.toNat < 256 ^ 4 := value.toNat_lt
  rw [word32_address, word32_length] at bytes
  rw [Memory.load32, bytes, Store.word32, ofLE_toLE, Nat.mod_eq_of_lt small, UInt32.ofNat_toNat]

@[simp] theorem load64_write_word (m : Memory) (address : Nat) (value : UInt64) :
    (m.write (.word64 address value)).load64 address = value := by
  have bytes := slice_write_self m (.word64 address value)
  have small : value.toNat < 256 ^ 8 := value.toNat_lt
  rw [word64_address, word64_length] at bytes
  rw [Memory.load64, bytes, Store.word64, ofLE_toLE, Nat.mod_eq_of_lt small, UInt64.ofNat_toNat]

theorem load32_ext {m m' : Memory} (same : ∀ i < 4, m (a + i) = m' (b + i)) :
    m.load32 a = m'.load32 b := by
  rw [Memory.load32, slice_ext same, Memory.load32]

theorem load64_ext {m m' : Memory} (same : ∀ i < 8, m (a + i) = m' (b + i)) :
    m.load64 a = m'.load64 b := by
  rw [Memory.load64, slice_ext same, Memory.load64]

theorem load32_congr {m m' : Memory} (same : Set.EqOn m m' (Set.Ico address (address + 4))) :
    m.load32 address = m'.load32 address := by
  rw [Memory.load32, slice_congr same, Memory.load32]

theorem load64_congr {m m' : Memory} (same : Set.EqOn m m' (Set.Ico address (address + 8))) :
    m.load64 address = m'.load64 address := by
  rw [Memory.load64, slice_congr same, Memory.load64]

theorem load32_write_of_apart (m : Memory) (s : Store)
    (apart : address + 4 ≤ s.address ∨ s.address + s.bytes.length ≤ address) :
    (m.write s).load32 address = m.load32 address :=
  load32_congr (write_eqOn m s apart)

theorem load64_write_of_apart (m : Memory) (s : Store)
    (apart : address + 8 ≤ s.address ∨ s.address + s.bytes.length ≤ address) :
    (m.write s).load64 address = m.load64 address :=
  load64_congr (write_eqOn m s apart)

theorem slice_zero {m : Memory} (zero : Set.EqOn m 0 (Set.Ico address (address + count))) :
    m.slice address count = List.replicate count 0 := by
  induction count generalizing address with
  | zero => rfl
  | succ count ih =>
    have head := zero (x := address) ⟨le_refl _, by omega⟩
    have tail : m.slice (address + 1) count = List.replicate count 0 := ih (fun x hx =>
      zero ⟨by have := hx.1; omega, by have := hx.2; omega⟩)
    simp only [Memory.slice, head, tail, List.replicate_succ, Pi.zero_apply]

theorem load32_zero {m : Memory} (zero : Set.EqOn m 0 (Set.Ico address (address + 4))) :
    m.load32 address = 0 := by
  rw [Memory.load32, slice_zero zero]
  rfl

theorem load64_zero {m : Memory} (zero : Set.EqOn m 0 (Set.Ico address (address + 8))) :
    m.load64 address = 0 := by
  rw [Memory.load64, slice_zero zero]
  rfl

/-! Sequences of stores. A store may depend on the memory it is made in. -/

abbrev StoreOp := Memory → Store

def Memory.exec (m : Memory) (op : StoreOp) : Memory := m.write (op m)

def Memory.execAll (m : Memory) (ops : List StoreOp) : Memory := ops.foldl Memory.exec m

@[simp] theorem execAll_nil (m : Memory) : m.execAll [] = m := rfl

@[simp] theorem execAll_cons (m : Memory) (op : StoreOp) (ops : List StoreOp) :
    m.execAll (op :: ops) = (m.exec op).execAll ops := rfl

theorem execAll_append (m : Memory) (first second : List StoreOp) :
    m.execAll (first ++ second) = (m.execAll first).execAll second :=
  List.foldl_append

/-- Stores that never touch `x` leave it alone, whatever memory they meet. -/
theorem execAll_frame {ops : List StoreOp} (outside : ∀ op ∈ ops, ∀ m, ¬ (op m).Touches x)
    (m : Memory) :
    m.execAll ops x = m x := by
  induction ops generalizing m with
  | nil => rfl
  | cons op ops ih =>
    rw [execAll_cons, ih (fun o h => outside o (List.mem_cons_of_mem _ h)), Memory.exec,
      write_frame _ _ (outside op List.mem_cons_self m)]

/-- `memcpy`: the bytes one after another, each its own store. -/
def copyBytes (address : Nat) : List UInt8 → List StoreOp
  | [] => []
  | byte :: rest => (fun _ => ⟨address, [byte]⟩) :: copyBytes (address + 1) rest

/-- `memset` to zero. -/
def clearBytes (address count : Nat) : List StoreOp := copyBytes address (List.replicate count 0)

theorem copyBytes_touches {op : StoreOp} (member : op ∈ copyBytes address bytes)
    (touched : (op m).Touches x) : address ≤ x ∧ x < address + bytes.length := by
  induction bytes generalizing address with
  | nil => simp [copyBytes] at member
  | cons byte rest ih =>
    simp only [copyBytes, List.mem_cons] at member
    rcases member with rfl | member
    · simp only [Store.Touches, List.length_cons, List.length_nil] at touched ⊢
      omega
    · have := ih member
      simp only [List.length_cons]
      omega

theorem execAll_copyBytes (m : Memory) (address : Nat) (bytes : List UInt8) :
    m.execAll (copyBytes address bytes) = m.write ⟨address, bytes⟩ := by
  induction bytes generalizing m address with
  | nil =>
    funext x
    simp [copyBytes, Memory.write]
  | cons byte rest ih =>
    rw [copyBytes, execAll_cons, ih]
    funext x
    simp only [Memory.write, Memory.exec]
    by_cases below : x < address
    · rw [if_pos (by omega), if_pos below, if_pos below]
    · rw [if_neg below, if_neg below]
      by_cases here : x = address
      · subst here
        simp
      · obtain ⟨i, rfl⟩ : ∃ i, x = address + 1 + i := ⟨x - address - 1, by omega⟩
        rw [if_neg (by omega), show address + 1 + i - (address + 1) = i by omega,
          show address + 1 + i - address = i + 1 by omega]
        simp

theorem clearBytes_slot (m : Memory) (lower : address ≤ x) (upper : x < address + count) :
    m.execAll (clearBytes address count) x = 0 := by
  obtain ⟨i, rfl⟩ := Nat.exists_eq_add_of_le lower
  rw [clearBytes, execAll_copyBytes]
  have stored := write_at m ⟨address, List.replicate count 0⟩ i (by
    simp only [List.length_replicate]
    omega)
  simpa using stored

/-- The object representation of a value of a type of that size. -/
structure Object (size : Nat) where
  bytes : List UInt8
  length : bytes.length = size

/-- The object at an address. -/
def Memory.object (m : Memory) (address size : Nat) : Object size :=
  ⟨m.slice address size, slice_length _ _ _⟩

namespace Object

variable {size a b : Nat}

/-- Assign a field of eight bytes. -/
def store64 (o : Object size) (offset : Nat) (fits : offset + 8 ≤ size) (value : UInt64) :
    Object size where
  bytes := o.bytes.take offset ++ toLE 8 value.toNat ++ o.bytes.drop (offset + 8)
  length := by
    have := o.length
    simp
    omega

theorem store64_bytes (o : Object size) (fits : a + 8 ≤ size) (value : UInt64) :
    (o.store64 a fits value).bytes =
      o.bytes.take a ++ (toLE 8 value.toNat ++ o.bytes.drop (a + 8)) :=
  List.append_assoc _ _ _

def load64 (o : Object size) (offset : Nat) : UInt64 :=
  UInt64.ofNat (ofLE ((o.bytes.drop offset).take 8))

@[simp] theorem load64_store64 (o : Object size) (fits : a + 8 ≤ size) (value : UInt64) :
    (o.store64 a fits value).load64 a = value := by
  have length : (o.bytes.take a).length = a := by
    rw [List.length_take, o.length]
    omega
  have field : ((o.store64 a fits value).bytes.drop a).take 8 = toLE 8 value.toNat := by
    rw [store64_bytes, List.drop_left' length, List.take_left' (toLE_length 8 _)]
  have small : value.toNat % 256 ^ 8 = value.toNat := Nat.mod_eq_of_lt value.toNat_lt
  rw [load64, field, ofLE_toLE, small, UInt64.ofNat_toNat]

end Object

end ByteMemory
