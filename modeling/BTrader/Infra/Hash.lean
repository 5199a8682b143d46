import Mathlib

/-! MurmurHash3 (x86, 32 bit) and the two entry points the code hashes with. -/
namespace BTrader.Infra

def hashSeed : UInt32 := 42

def rotl32 (x r : UInt32) : UInt32 := (x <<< r) ||| (x >>> (32 - r))

def fmix32 (h : UInt32) : UInt32 :=
  let h := h ^^^ (h >>> 16)
  let h := h * 0x85ebca6b
  let h := h ^^^ (h >>> 13)
  let h := h * 0xc2b2ae35
  h ^^^ (h >>> 16)

def murmurScramble (k : UInt32) : UInt32 := rotl32 (k * 0xcc9e2d51) 15 * 0x1b873593

def getblock32 (a b c d : UInt8) : UInt32 :=
  a.toUInt32 ||| (b.toUInt32 <<< 8) ||| (c.toUInt32 <<< 16) ||| (d.toUInt32 <<< 24)

/-- The body over the four-byte blocks, then the tail of at most three bytes. -/
def murmurBody (h : UInt32) : List UInt8 → UInt32
  | a :: b :: c :: d :: rest =>
    murmurBody (rotl32 (h ^^^ murmurScramble (getblock32 a b c d)) 13 * 5 + 0xe6546b64) rest
  | [a, b, c] => h ^^^ murmurScramble ((c.toUInt32 <<< 16) ^^^ (b.toUInt32 <<< 8) ^^^ a.toUInt32)
  | [a, b] => h ^^^ murmurScramble ((b.toUInt32 <<< 8) ^^^ a.toUInt32)
  | [a] => h ^^^ murmurScramble a.toUInt32
  | [] => h

def murmurHash3X86_32 (key : List UInt8) (seed : UInt32) : UInt32 :=
  fmix32 (murmurBody seed key ^^^ UInt32.ofNat key.length)

def hash32 (key : List UInt8) : UInt32 := murmurHash3X86_32 key hashSeed

def hashStr32 (key : String) : UInt32 := hash32 key.toUTF8.toList

/-- Two exclusive ors agree when they agree regrouped. -/
theorem xor_eq_xor_iff (a b c d : UInt32) : a ^^^ b = c ^^^ d ↔ b ^^^ d = a ^^^ c := by
  have regrouped : a ^^^ b ^^^ (c ^^^ d) = b ^^^ d ^^^ (a ^^^ c) := by ac_rfl
  rw [← UInt32.xor_eq_zero_iff, ← UInt32.xor_eq_zero_iff (a := b ^^^ d), regrouped]

/-- Where the hash tells the parts apart, the exclusive or of the hashes of two parts tells the
things apart just when it tells those apart that share neither part. -/
theorem xor_key_injOn_iff {α S : Type*} {h : S → UInt32} {f g : α → S} {things : Set α}
    (parts : ∀ a b, f a = f b → g a = g b → a = b)
    (injective : Set.InjOn h {s | ∃ a ∈ things, s = f a ∨ s = g a}) :
    Set.InjOn (fun a => h (g a) ^^^ h (f a)) things ↔
      ∀ a ∈ things, ∀ b ∈ things, f a ≠ f b → g a ≠ g b →
        h (f a) ^^^ h (f b) ≠ h (g a) ^^^ h (g b) := by
  constructor
  · intro distinct a here b there first _ clash
    have same := distinct here there ((xor_eq_xor_iff _ _ _ _).mpr clash)
    exact first (congrArg f same)
  · intro apart a here b there same
    have clash := (xor_eq_xor_iff _ _ _ _).mp same
    by_cases first : f a = f b
    · rw [first, UInt32.xor_self, eq_comm, UInt32.xor_eq_zero_iff] at clash
      exact parts a b first (injective ⟨a, here, .inr rfl⟩ ⟨b, there, .inr rfl⟩ clash)
    · by_cases second : g a = g b
      · rw [second, UInt32.xor_self, UInt32.xor_eq_zero_iff] at clash
        exact absurd (injective ⟨a, here, .inl rfl⟩ ⟨b, there, .inl rfl⟩ clash) first
      · exact absurd clash (apart a here b there first second)

end BTrader.Infra
