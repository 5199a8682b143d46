import BTrader.Core.MessageRoundTrip

/-! Which bytes the constructor of a position book reads. -/
namespace BTrader.Messages
open ByteMemory ByteReader Infra Procedure RecordStores

/-- The constructor reads no byte outside what it reads from. -/
def Contained {α : Type} (r : Decoder α) (data : List UInt8) : Prop :=
  ¬ ∃ left, r data = .error .outside left

namespace PositionBook
variable {data : List UInt8}

/-! The two counts a buffer starts with. -/

def longSize (data : List UInt8) : UInt32 := UInt32.ofNat (ofLE (data.take 4))

def shortSize (data : List UInt8) : UInt32 := UInt32.ofNat (ofLE ((data.drop 4).take 4))

def positions (data : List UInt8) : Nat := (longSize data).toNat + (shortSize data).toNat

/-- The bytes of the `i`-th entry. -/
def entryAt (data : List UInt8) (i : Nat) : List UInt8 := ((data.drop 8).drop (i * 100)).take 100

/-- The entry's position holds strings. -/
def Terminated (data : List UInt8) (i : Nat) : Prop :=
  ∃ p, Reads Position.read ((entryAt data i).drop 4) p ∧ p.Terminated

theorem needs_charArray (n : Nat) : Needs n (charArray n) := (needs_block n).map _

theorem needs_position : Needs sizeofPosition Position.read :=
  needs_int64.bind fun _ => (needs_charArray 9).bind fun _ => (needs_charArray 32).bind fun _ =>
    needs_word8.bind fun _ =>
    (needs_charArray 16).bind fun _ => needs_word8.bind fun _ => (needs_block 5).bind fun _ =>
      needs_word64.bind fun _ =>
      needs_word64.bind fun _ => needs_word64.bind fun _ => needs_pure _

theorem readEntry_takes (entries : Entries UInt32 PositionString.size PositionData) :
    Takes 100 (fun _ => True) (readEntry assign entries) :=
  needs_word32.bind fun _ => needs_position.map _

theorem readEntry_checked_takes (entries : Entries UInt32 PositionString.size PositionData) :
    Takes 100 (fun b => ∃ p, Reads Position.read (b.drop 4) p ∧ p.Terminated)
      (readEntry assignChecked entries) :=
  (Takes.bind needs_word32 fun key =>
    needs_position.guarded Record.Terminated fun p => entries.set key p).congr fun _ _ => by simp

theorem expectedSize_toNat :
    (expectedSize (longSize data) (shortSize data)).toNat =
      (8 + positions data * 100) % 2 ^ 32 := by
  have sum : 4 * 2 + (longSize data).toNat * (4 + sizeofPosition) + (shortSize data).toNat *
      (4 + sizeofPosition) =
      8 + positions data * 100 := by
    simp only [positions, sizeofPosition]
    omega
  rw [expectedSize, sum]
  rfl

/-- The loops read all entries or outside. -/
theorem loops_takes {good : List UInt8 → Prop} {store : Assign}
    (round : ∀ entries, Takes 100 good (readEntry store entries)) (long short : Nat) :
    Takes ((long + short) * 100)
      (fun b => ∀ i < long + short, good ((b.drop (i * 100)).take 100)) (do
      let longPositions ← loop (readEntry store) long fun _ => none
      let shortPositions ← loop (readEntry store) short fun _ => none
      return (⟨longPositions, shortPositions⟩ : RecordStores.PositionBook PositionData)) := by
  have loops := Takes.bind (takes_loop round long fun _ => none) fun longPositions =>
    Takes.bind (takes_loop round short fun _ => none) fun shortPositions =>
      needs_pure (⟨longPositions, shortPositions⟩ : RecordStores.PositionBook PositionData)
  rw [show long * 100 + (short * 100 + 0) = (long + short) * 100 by omega] at loops
  refine loops.congr fun b length => ?_
  have front (i : Nat) (bound : i < long) :
      ((b.take (long * 100)).drop (i * 100)).take 100 = (b.drop (i * 100)).take 100 := by
    rw [List.drop_take, List.take_take, Nat.min_eq_left (by omega)]
  have behind (i : Nat) (bound : i < short) :
      (((b.drop (long * 100)).take (short * 100)).drop (i * 100)).take 100 =
        (b.drop ((long + i) * 100)).take 100 := by
    rw [List.drop_take, List.take_take, Nat.min_eq_left (by omega), List.drop_drop, Nat.add_mul]
  constructor
  · rintro ⟨first, second, _⟩ i bound
    by_cases inLong : i < long
    · rw [← front i inLong]
      exact first i inLong
    · obtain ⟨j, rfl⟩ := Nat.exists_eq_add_of_le (not_lt.mp inLong)
      rw [← behind j (by omega)]
      exact second j (by omega)
  · intro all
    refine ⟨fun i bound => ?_, fun i bound => ?_, trivial⟩
    · rw [front i bound]
      exact all i (by omega)
    · rw [behind i bound]
      exact all (long + i) (by omega)

/-- The constructor stays inside a buffer that is too short, or shorter than expected, or that
has all entries, where each of them does. -/
theorem contained_readBy_iff {good : List UInt8 → Prop} {store : Assign}
    (round : ∀ entries, Takes 100 good (readEntry store entries)) (short : data.length < 2 ^ 32) :
    Contained (readBy store (UInt32.ofNat data.length)) data ↔
      data.length < 8 ∨ data.length < (8 + positions data * 100) % 2 ^ 32 ∨
        8 + positions data * 100 ≤ data.length ∧ ∀ i < positions data, good (entryAt data i) := by
  have length : (UInt32.ofNat data.length).toNat = data.length := UInt32.toNat_ofNat_of_lt' short
  rw [Contained, readBy]
  by_cases header : data.length < 8
  · have less : UInt32.ofNat data.length < 4 * 2 := by
      rw [UInt32.lt_iff_toNat_lt, length]
      exact header
    rw [if_pos less]
    refine iff_of_true ?_ (.inl header)
    rintro ⟨left, failed⟩
    cases failed
  · have enough : ¬ UInt32.ofNat data.length < 4 * 2 := by
      rw [UInt32.lt_iff_toNat_lt, length]
      exact header
    have first : word32 data = .ok (longSize data) (data.drop 4) := word32_eq (by omega)
    have second : word32 (data.drop 4) = .ok (shortSize data) (data.drop 8) := by
      rw [word32_eq (by rw [List.length_drop]; omega), List.drop_drop]
      rfl
    rw [if_neg enough, bind_ok first, bind_ok second]
    have compare : UInt32.ofNat data.length < expectedSize (longSize data) (shortSize data) ↔
        data.length < (8 + positions data * 100) % 2 ^ 32 := by
      rw [UInt32.lt_iff_toNat_lt, length, expectedSize_toNat]
    by_cases less : data.length < (8 + positions data * 100) % 2 ^ 32
    · rw [if_pos (compare.mpr less)]
      refine iff_of_true ?_ (.inr (.inl less))
      rintro ⟨left, failed⟩
      cases failed
    · rw [if_neg (mt compare.mp less), (loops_takes round _ _).outside_iff, not_not]
      have room :
          positions data * 100 ≤ (data.drop 8).length ↔ 8 + positions data * 100 ≤ data.length := by
        rw [List.length_drop]
        omega
      have inside (i : Nat) (bound : i < positions data) :
          (((data.drop 8).take (positions data * 100)).drop (i * 100)).take 100 =
            entryAt data i := by
        rw [List.drop_take, List.take_take, Nat.min_eq_left (by omega), entryAt]
      rw [← positions, room]
      simp only [header, less, false_or]
      exact and_congr_right fun _ => forall₂_congr fun i bound => by rw [inside i bound]

/-- For every buffer: the constructor throws or reads only its bytes, if and only if the size
of all entries does not wrap, or wraps to more than there is; and where every string without a
NUL is read behind its array, just when besides no such string is in a book that is loaded. -/
theorem contained_iff (data : List UInt8) (short : data.length < 2 ^ 32) :
    (Contained (read (UInt32.ofNat data.length)) data ↔
      data.length < 8 ∨ 8 + positions data * 100 < 2 ^ 32 ∨
        data.length < (8 + positions data * 100) % 2 ^ 32) ∧
    (Contained (readBy assignChecked (UInt32.ofNat data.length)) data ↔
      data.length < 8 ∨ data.length < (8 + positions data * 100) % 2 ^ 32 ∨
        8 + positions data * 100 < 2 ^ 32 ∧ ∀ i < positions data, Terminated data i) := by
  have wraps :
      data.length < (8 + positions data * 100) % 2 ^ 32 ∨ 8 + positions data * 100 ≤ data.length ↔
      8 + positions data * 100 < 2 ^ 32 ∨ data.length < (8 + positions data * 100) % 2 ^ 32 := by
    omega
  constructor
  · rw [read, contained_readBy_iff readEntry_takes short]
    simp only [implies_true, and_true, wraps]
  · rw [contained_readBy_iff readEntry_checked_takes short]
    refine or_congr_right ?_
    constructor
    · rintro (less | ⟨room, terminated⟩)
      · exact .inl less
      · exact .inr ⟨lt_of_le_of_lt room short, terminated⟩
    · rintro (less | ⟨noWrap, terminated⟩)
      · exact .inl less
      · rw [Nat.mod_eq_of_lt noWrap]
        rcases Nat.lt_or_ge data.length (8 + positions data * 100) with less | room
        · exact .inl less
        · exact .inr ⟨room, terminated⟩

/-- A book with a long and a short position is read to its end. -/
theorem contained_iff_twoSided :
    Contained (read 208) twoSided.toString ∧
      Contained (readBy assignChecked 208) twoSided.toString := by
  have length : twoSided.toString.length = 208 := twoSided.toString_length
  obtain ⟨any, strings⟩ := contained_iff twoSided.toString (by rw [length]; decide)
  have count : positions twoSided.toString = 2 := by decide +kernel
  rw [length, count] at any strings
  have again (direction : UInt8) : (Record.put none (Position.held direction)).Terminated := by
    have terminated := Position.held_terminated direction
    have returns : (Record.put none (Position.held direction)).Returns (Position.held direction) :=
      (Record.put_returns_iff terminated).mpr (by simp)
    exact fun i => (returns.2 i).symm ▸ terminated i
  have first : (entryAt twoSided.toString 0).drop 4 = Position.object (.held 0) := by decide +kernel
  have second : (entryAt twoSided.toString 1).drop 4 = Position.object (.held 1) := by
    decide +kernel
  refine ⟨any.mpr (.inr (.inl (by decide))),
    strings.mpr (.inr (.inr ⟨by decide, fun i bound => ?_⟩))⟩
  match i with
  | 0 => exact ⟨_, first ▸ Position.reads _, again 0⟩
  | 1 => exact ⟨_, second ▸ Position.reads _, again 1⟩

/-- The size of 42949673 entries wraps to twelve. -/
theorem wrapped_outside :
    ¬ ∀ data : List UInt8, data.length < 2 ^ 32 →
      Contained (read (UInt32.ofNat data.length)) data := by
  intro contained
  have inside := contained [41, 92, 143, 2, 0, 0, 0, 0, 0, 0, 0, 0] (by decide)
  rw [read, contained_readBy_iff readEntry_takes (by decide)] at inside
  have count : positions [41, 92, 143, 2, 0, 0, 0, 0, 0, 0, 0, 0] = 42949673 := by decide
  rw [count] at inside
  simp at inside

end PositionBook
end BTrader.Messages
