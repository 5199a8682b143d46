import BTrader.Infra.MemIPC

/-! Which lengths the channel gives out memory for, beside the memory it has. -/
namespace BTrader.Infra.MemIPC

/-- The constructor, where the sum is a `size_t`. It throws where it gets no memory: `ftruncate`
takes no length from 2 ^ 63 on, and `mmap` none of 0. -/
def construct (memSize : UInt64) (contents : Nat → UInt8) (dataLen : Nat) : Option MemIPC :=
  let size := (memSize + UInt64.ofNat sizeofLength).toNat
  if size = 0 ∨ 2 ^ 63 ≤ size then none
  else some ⟨size, size, (List.range size).map contents, dataLen, 0, 0⟩

/-- What is done with a channel. The other process stores bytes too, and posts a length of its
own. -/
inductive Use where
  | openData (len : UInt64)
  | closeData (len : UInt64)
  | fill (i : Nat) (byte : UInt8)
  | read
  | posted (len : Nat)

def use (c : MemIPC) : Use → MemIPC
  | .openData len => (c.openData len.toNat).2
  | .closeData len =>
    match c.closeData len.toNat with
    | some closed => { closed with sem := closed.sem + 1 }
    | none => c
  | .fill i byte => c.fill i byte
  | .read => { c with sem := c.sem - 1 }
  | .posted len => { c with dataLen := len, sem := c.sem + 1 }

/-- What is given out lies in the memory behind the length, and all lengths up to `MemSize` are
given out. -/
structure Bounded (c : MemIPC) (memSize len : UInt64) : Prop where
  inside : ∀ p, (c.openData len.toNat).1 = some p → sizeofLength ≤ p ∧
    p + len.toNat ≤ c.sharedMem.length
  opens : 1 ≤ len.toNat → len.toNat ≤ memSize.toNat → c.openDataLen = 0 →
    (c.openData len.toNat).1.isSome = true

/-- The length is none of the eight that are admitted and do not fit behind `MemSize`. Where the
sum with the room of the length is beyond a `size_t`, no length up to `MemSize` does. -/
def Admits (c : MemIPC) (memSize len : UInt64) : Prop :=
  c.openDataLen = 0 → 0 < len.toNat →
    if memSize.toNat + sizeofLength < 2 ^ 64 then
      len.toNat ≤ memSize.toNat ∨ memSize.toNat + sizeofLength < len.toNat
    else memSize.toNat < len.toNat

/-- The memory has the size that the channel was made with. -/
structure Sized (c : MemIPC) (size : Nat) : Prop where
  memSize : c.memSize = size
  remainSize : c.remainSize = size
  sharedMem : c.sharedMem.length = size

variable {c : MemIPC} {size : Nat} {memSize : UInt64}

theorem use_sized (c : MemIPC) (what : Use) (sized : c.Sized size) : (c.use what).Sized size := by
  cases what with
  | openData len =>
    simp only [use, MemIPC.openData]
    split
    · exact sized
    · exact ⟨sized.memSize, sized.remainSize, sized.sharedMem⟩
  | closeData len =>
    simp only [use, MemIPC.closeData]
    split
    · rename_i closed accepted
      split at accepted
      · contradiction
      · cases accepted
        exact ⟨sized.memSize, sized.remainSize, sized.sharedMem⟩
    · exact sized
  | fill i byte => exact ⟨sized.memSize, sized.remainSize, List.length_set.trans sized.sharedMem⟩
  | read => exact ⟨sized.memSize, sized.remainSize, sized.sharedMem⟩
  | posted len => exact ⟨sized.memSize, sized.remainSize, sized.sharedMem⟩

theorem Sized.openData_eq (sized : c.Sized size) (len : Nat) : (c.openData len).1 =
    if c.openDataLen ≠ 0 ∨ size < len ∨ len = 0 then none else some sizeofLength := by
  have used : c.usedSize = sizeofLength := by
    rw [usedSize, sized.memSize, sized.remainSize]
    omega
  unfold MemIPC.openData
  rw [sized.remainSize, used]
  split <;> rfl

/-- What is given out is right just when the length is not one that goes beyond the memory. -/
theorem Sized.bounded_iff (sized : c.Sized ((memSize.toNat + sizeofLength) % 2 ^ 64))
    (len : UInt64) :
    c.Bounded memSize len ↔ c.Admits memSize len := by
  have opened := sized.openData_eq len.toNat
  have room := sized.sharedMem
  have small := memSize.toNat_lt
  have word : sizeofLength = 8 := rfl
  by_cases active : c.openDataLen ≠ 0 ∨ len.toNat = 0
  · have refused : (c.openData len.toNat).1 = none := by
      rw [opened, if_pos]
      tauto
    refine iff_of_true ⟨fun p found => ?_, fun positive _ free => ?_⟩ fun free positive => ?_
    · rw [refused] at found
      contradiction
    · omega
    · omega
  · obtain ⟨free, positive⟩ : c.openDataLen = 0 ∧ 0 < len.toNat := by omega
    unfold Admits
    simp only [free, positive, true_implies]
    by_cases beyond : (memSize.toNat + sizeofLength) % 2 ^ 64 < len.toNat
    · have refused : (c.openData len.toNat).1 = none := by rw [opened, if_pos (.inr (.inl beyond))]
      constructor
      · intro bounded
        have opens := bounded.opens positive
        rw [refused] at opens
        have large : memSize.toNat < len.toNat :=
          not_le.mp fun le => Bool.false_ne_true (opens le free)
        split <;> omega
      · intro admits
        refine ⟨fun p found => ?_, fun _ le _ => ?_⟩
        · rw [refused] at found
          contradiction
        · split at admits <;> omega
    · have given : (c.openData len.toNat).1 = some sizeofLength := by rw [opened, if_neg (by omega)]
      constructor
      · intro bounded
        have inside := (bounded.inside _ given).2
        split <;> omega
      · intro admits
        refine ⟨fun p found => ?_, fun _ _ _ => by rw [given]; rfl⟩
        obtain rfl : sizeofLength = p := Option.some.inj (given.symm.trans found)
        split at admits <;> omega

theorem construct_sized {contents : Nat → UInt8} {dataLen : Nat}
    (made : construct memSize contents dataLen = some c) :
    c.Sized ((memSize.toNat + sizeofLength) % 2 ^ 64) := by
  have size :
      (memSize + UInt64.ofNat sizeofLength).toNat = (memSize.toNat + sizeofLength) % 2 ^ 64 :=
    UInt64.toNat_add memSize (UInt64.ofNat sizeofLength)
  simp only [construct, size] at made
  split at made
  · contradiction
  · cases made
    exact ⟨rfl, rfl, by simp⟩

/-- In every state, for every length: what is given out is right just when the length is admitted.
-/
theorem run_bounded_iff {contents : Nat → UInt8} {dataLen : Nat}
    (made : construct memSize contents dataLen = some c)
    (uses : List Use) : ∀ s ∈ Runs.states use c uses, ∀ len, s.Bounded memSize len ↔
      s.Admits memSize len := by
  have kept (c : MemIPC) (what : Use) (sized : c.Sized ((memSize.toNat + sizeofLength) % 2 ^ 64))
      (_ : True) :
      (c.use what).Sized ((memSize.toNat + sizeofLength) % 2 ^ 64) := use_sized c what sized
  intro s visited len
  have sized := Runs.invariant kept (construct_sized made) uses (fun _ _ => trivial) s visited
  exact sized.bounded_iff len

/-- A channel for 8 bytes. -/
def eightBytes : MemIPC := ⟨16, 16, List.replicate 16 0, 0, 0, 0⟩

theorem eightBytes_made : construct 8 (fun _ => 0) 0 = some eightBytes := rfl

/-- A message of 8 is given out and closed, and then one of 3 is asked for. -/
theorem run_bounded_eight :
    ((eightBytes.use (.openData 8)).use (.closeData 8)).Bounded 8 3 ↔
      ((eightBytes.use (.openData 8)).use (.closeData 8)).Admits 8 3 := by
  have visited : (eightBytes.use (.openData 8)).use (.closeData 8) ∈
      Runs.states use eightBytes [.openData 8, .closeData 8] :=
    List.mem_cons_of_mem _ (List.mem_cons_of_mem _ List.mem_cons_self)
  exact run_bounded_iff eightBytes_made [.openData 8, .closeData 8] _ visited 3

/-- A message of 9 is given out behind the length, and ends outside of the 16 bytes there are. -/
theorem nine_given : ¬ ∀ (memSize : UInt64) (contents : Nat → UInt8) (dataLen : Nat) (c : MemIPC),
    construct memSize contents dataLen = some c → ∀ (uses : List Use), ∀ s ∈ Runs.states use c uses,
      ∀ len, s.Bounded memSize len := by
  intro bounded
  have inside :=
    (bounded 8 _ 0 eightBytes eightBytes_made [] eightBytes List.mem_cons_self 9).inside 8 rfl
  exact absurd inside.2 (by decide)

end BTrader.Infra.MemIPC
