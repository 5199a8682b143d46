import Mathlib

/-! The file descriptors of the journals, written into one string by the mentor and read from it
by the engines. A string is the list of its characters. -/
namespace BTrader

abbrev Text := List Char

namespace Mentor

/-- `std::to_string` of an `int` -/
def stringOfInt (n : Int32) : Text := (toString n.toInt).toList

/-- `fds_val`, from the names of the journals with the file descriptors of their indicators. -/
def fdsVal (journals : List (Text × Int32)) : Text :=
  journals.zipIdx.foldl (fun fds entry =>
    fds ++ entry.1.1 ++ [':'] ++ stringOfInt entry.1.2 ++ if entry.2 ≠ journals.length - 1 then
      [':'] else []) []

end Mentor

/-- `std::map<std::string, int>` -/
abbrev FdsMap := Text → Option Int32

namespace FdsMap

/-- How the map may fail to be read: an index is outside of the vector, or `std::stoi` throws. -/
inductive Fault where
  | outside | invalidArgument | outOfRange
  deriving DecidableEq, Repr

def split (str : Text) (deli : Char) : List Text :=
  match found : str.findIdx? (· = deli) with
  | some pos => str.take pos :: split (str.drop (pos + 1)) deli
  | none => if str ≠ [] then [str] else []
termination_by str.length
decreasing_by
  have bound := (List.findIdx?_eq_some_iff_getElem.mp found).1
  rw [List.length_drop]
  omega

/-- `isspace` -/
def isSpace (c : Char) : Bool := c = ' ' || ('\t' ≤ c && c ≤ '\r')

/-- The sign, if there is one, and the rest. -/
def signOf : Text → Bool × Text
  | '-' :: rest => (true, rest)
  | '+' :: rest => (false, rest)
  | text => (false, text)

/-- `std::stoi`: blanks, a sign, and digits as far as they go. -/
def stoi (text : Text) : Except Fault Int32 :=
  let (negative, rest) := signOf (text.dropWhile isSpace)
  let digits := rest.takeWhile Char.isDigit
  if digits = [] then .error .invalidArgument
  else
    let value : Int := Nat.ofDigitChars 10 digits 0
    let value := if negative then -value else value
    if -2 ^ 31 ≤ value ∧ value < 2 ^ 31 then .ok (Int32.ofInt value) else .error .outOfRange

/-- `fds_vec.size() - 1`, a `size_t`. -/
def lastIndex (size : ℕ) : ℕ := if size = 0 then 2 ^ 64 - 1 else size - 1

/-- The loop over the vector, from `i` on. -/
def readFds (fdsVec : List Text) (i : ℕ) (name2fd : FdsMap) : Except Fault FdsMap :=
  if i < lastIndex fdsVec.length then
    match fdsVec[i + 1]?, fdsVec[i]? with
    | some number, some name =>
      match stoi number with
      | .ok fd => readFds fdsVec (i + 2) (Function.update name2fd name (some fd))
      | .error fault => .error fault
    | _, _ => .error .outside
  else .ok name2fd
termination_by lastIndex fdsVec.length - i

/-- `get_fds_map`, from the string that the environment has. -/
def getFdsMap (fdsData : Text) : Except Fault FdsMap := readFds (split fdsData ':') 0 fun _ => none

end FdsMap

section Numbers
open FdsMap Mentor

theorem stringOfInt_eq (n : Int32) : stringOfInt n =
    (if 0 ≤ n.toInt then [] else ['-']) ++ Nat.toDigits 10 n.toInt.natAbs := by
  rw [stringOfInt, Int.toString_eq_repr, Int.repr_eq_if]
  split
  · rename_i nonneg
    rw [Nat.toList_repr, List.nil_append]
    congr 1
    omega
  · rename_i negative
    rw [String.toList_append, Nat.toList_repr]
    have same : (-n.toInt).toNat = n.toInt.natAbs := by omega
    rw [same]
    rfl

theorem digit_of_mem {n : ℕ} {c : Char} (member : c ∈ Nat.toDigits 10 n) : c.isDigit = true :=
  Nat.isDigit_of_mem_toDigits (by norm_num) (by norm_num) member

theorem colon_notMem_stringOfInt (n : Int32) : ':' ∉ stringOfInt n := by
  rw [stringOfInt_eq, List.mem_append, not_or]
  constructor
  · split <;> decide
  · intro member
    exact absurd (digit_of_mem member) (by decide)

theorem stringOfInt_ne_nil (n : Int32) : stringOfInt n ≠ [] := by
  rw [stringOfInt_eq]
  exact List.append_ne_nil_of_right_ne_nil _ Nat.toDigits_ne_nil

theorem isSpace_digit {c : Char} (digit : c.isDigit = true) : isSpace c = false := by
  simp only [Char.isDigit, Bool.and_eq_true, decide_eq_true_eq, UInt32.le_iff_toNat_le] at digit
  simp only [isSpace, Bool.or_eq_false_iff, Bool.and_eq_false_iff,
    decide_eq_false_iff_not, Char.le_def, UInt32.le_iff_toNat_le]
  constructor
  · rintro rfl
    exact absurd digit (by decide)
  · right
    have low : '0'.val.toNat = 48 := rfl
    have high : '\r'.val.toNat = 13 := rfl
    omega

theorem signOf_digit {c : Char} (digit : c.isDigit = true) (rest : Text) :
    signOf (c :: rest) = (false, c :: rest) := by
  unfold signOf
  split
  · rename_i same
    cases same
    exact absurd digit (by decide)
  · rename_i same
    cases same
    exact absurd digit (by decide)
  · rfl

/-- What the mentor writes of a number is read as that number. -/
theorem stoi_stringOfInt (n : Int32) : stoi (stringOfInt n) = .ok n := by
  have digits :
      (Nat.toDigits 10 n.toInt.natAbs).takeWhile Char.isDigit = Nat.toDigits 10 n.toInt.natAbs :=
    List.takeWhile_eq_self_iff.mpr fun c member => digit_of_mem member
  have signed : signOf ((stringOfInt n).dropWhile isSpace) =
      (decide (n.toInt < 0), Nat.toDigits 10 n.toInt.natAbs) := by
    obtain ⟨first, rest, shape⟩ :=
      List.exists_cons_of_ne_nil (Nat.toDigits_ne_nil (n := n.toInt.natAbs) (b := 10))
    have lead : first.isDigit = true :=
      digit_of_mem (n := n.toInt.natAbs) (by rw [shape]; exact List.mem_cons_self)
    rw [stringOfInt_eq]
    split
    · rename_i nonneg
      rw [List.nil_append, shape, List.dropWhile_cons_of_neg (by simp [isSpace_digit lead]),
        signOf_digit lead]
      simp [nonneg]
    · rename_i negative
      have dash : isSpace '-' = false := by decide
      rw [List.singleton_append, List.dropWhile_cons_of_neg (by simp [dash])]
      simp [signOf, not_le.mp negative]
  have value : (if decide (n.toInt < 0) = true then -(n.toInt.natAbs : ℤ) else n.toInt.natAbs) =
      n.toInt := by
    by_cases negative : n.toInt < 0
    · rw [if_pos (decide_eq_true negative)]
      omega
    · rw [if_neg (by simpa using negative)]
      omega
  have lower := n.le_toInt
  have upper := n.toInt_lt
  simp only [stoi, signed, digits, Nat.toDigits_ne_nil, if_false,
    Nat.ofDigitChars_ten_toDigits, value]
  rw [if_pos ⟨lower, upper⟩, Int32.ofInt_toInt]

end Numbers

section Splitting
open FdsMap Mentor
variable {deli : Char} {piece : Text}

theorem find_none (free : deli ∉ piece) : piece.findIdx? (· = deli) = none := by
  rw [List.findIdx?_eq_none_iff]
  exact fun c member => decide_eq_false fun same => free (same ▸ member)

theorem split_piece (free : deli ∉ piece) (rest : Text) :
    split (piece ++ deli :: rest) deli = piece :: split rest deli := by
  have found : (piece ++ deli :: rest).findIdx? (· = deli) = some piece.length := by
    rw [List.findIdx?_append, find_none free]
    simp [List.findIdx?_cons]
  rw [split]
  split
  · rename_i pos here
    obtain rfl : piece.length = pos := Option.some.inj (found.symm.trans here)
    rw [List.take_left, ← List.drop_drop, List.drop_left]
    rfl
  · rename_i none
    rw [found] at none
    contradiction

theorem split_last (free : deli ∉ piece) (filled : piece ≠ []) : split piece deli = [piece] := by
  have none := find_none free
  rw [split]
  split
  · rename_i pos here
    rw [none] at here
    contradiction
  · exact if_pos filled

/-- Nothing is split off the empty string alone. -/
theorem split_eq_nil (str : Text) : split str deli = [] ↔ str = [] := by
  rw [split]
  split
  · rename_i pos found
    refine iff_of_false (List.cons_ne_nil _ _) ?_
    rintro rfl
    contradiction
  · by_cases filled : str ≠ []
    · rw [if_pos filled]
      exact iff_of_false (List.cons_ne_nil _ _) filled
    · rw [if_neg filled]
      exact iff_of_true rfl (not_not.mp filled)

/-- The name and the number of a journal, as the mentor writes them. -/
def Mentor.written (journal : Text × Int32) : Text := journal.1 ++ [':'] ++ stringOfInt journal.2

/-- The loop of the mentor puts a separator between any two entries. -/
theorem fdsVal_eq (journals : List (Text × Int32)) :
    fdsVal journals = [':'].intercalate (journals.map written) := by
  have loop (rest : List (Text × Int32)) (i : ℕ) (fds : Text)
      (size : i + rest.length = journals.length) :
      (rest.zipIdx i).foldl (fun fds entry =>
        fds ++ entry.1.1 ++ [':'] ++ stringOfInt entry.1.2 ++ if entry.2 ≠ journals.length - 1 then
          [':'] else []) fds =
      fds ++ [':'].intercalate (rest.map written) := by
    induction rest generalizing i fds with
    | nil => simp
    | cons journal rest ih =>
      rw [List.zipIdx_cons, List.foldl_cons, ih (i + 1) _ (by rw [← size, List.length_cons]; omega)]
      cases rest with
      | nil =>
        have last : i = journals.length - 1 := by simp at size; omega
        simp [last, written]
      | cons next rest =>
        have more : i ≠ journals.length - 1 := by simp at size; omega
        simp [more, written, List.intercalate]
  exact loop journals 0 [] (by simp)

/-- The vector has the name and the number of each journal. -/
theorem split_fdsVal {journals : List (Text × Int32)}
    (free : ∀ journal ∈ journals, ':' ∉ journal.1) :
    split (fdsVal journals) ':' = journals.flatMap fun journal =>
      [journal.1, stringOfInt journal.2] := by
  rw [fdsVal_eq]
  induction journals with
  | nil => exact (split_eq_nil _).mpr rfl
  | cons journal rest ih =>
    have own := free journal List.mem_cons_self
    have later := ih fun other member => free other (List.mem_cons_of_mem _ member)
    have number := colon_notMem_stringOfInt journal.2
    cases rest with
    | nil =>
      have single : [':'].intercalate ([journal].map written) =
          journal.1 ++ ':' :: stringOfInt journal.2 := by
        simp [written]
      rw [single, split_piece own, split_last number (stringOfInt_ne_nil _)]
      rfl
    | cons next rest =>
      have more : [':'].intercalate ((journal :: next :: rest).map written) =
          journal.1 ++ ':' ::
            (stringOfInt journal.2 ++ ':' :: [':'].intercalate ((next :: rest).map written)) := by
        simp [written, List.intercalate]
      rw [more, split_piece own, split_piece number, later]
      rfl

end Splitting

section Reading
open FdsMap Mentor

theorem stoi_inside (text : Text) : stoi text ≠ .error .outside := by
  intro outside
  simp only [stoi] at outside
  split_ifs at outside
  all_goals simp only [reduceCtorEq, Except.error.injEq] at outside

/-- A vector that is not empty is read inside of its bounds. -/
theorem readFds_inside {fdsVec : List Text} (filled : fdsVec ≠ []) (i : ℕ) (name2fd : FdsMap) :
    readFds fdsVec i name2fd ≠ .error .outside := by
  have positive := List.length_pos_of_ne_nil filled
  fun_induction readFds fdsVec i name2fd with
  | case1 i name2fd _ number name _ _ fd _ ih => exact ih
  | case2 i name2fd _ number name _ _ fault read =>
    intro same
    exact stoi_inside number (read.trans (congrArg Except.error (Except.error.inj same)))
  | case3 i name2fd below outside =>
    rw [lastIndex, if_neg positive.ne'] at below
    have second : fdsVec[i + 1]? = some fdsVec[i + 1] := List.getElem?_eq_getElem (by omega)
    have first : fdsVec[i]? = some fdsVec[i] := List.getElem?_eq_getElem (by omega)
    exact (outside _ _ second first).elim
  | case4 i name2fd _ =>
    intro same
    cases same

/-- The string is read inside of the vector just when it is not empty. -/
theorem getFdsMap_inside_iff (fdsData : Text) :
    getFdsMap fdsData ≠ .error .outside ↔ fdsData ≠ [] := by
  constructor
  · rintro inside rfl
    apply inside
    rw [getFdsMap, (split_eq_nil []).mpr rfl, readFds]
    rfl
  · intro filled
    exact readFds_inside ((split_eq_nil fdsData).not.mpr filled) 0 _

/-- The map with the file descriptors put in, one after another. -/
def putAll (name2fd : FdsMap) (journals : List (Text × Int32)) : FdsMap :=
  journals.foldl (fun name2fd journal => Function.update name2fd journal.1 (some journal.2)) name2fd

theorem putAll_get {journals : List (Text × Int32)} (distinct : (journals.map Prod.fst).Nodup)
    (name2fd : FdsMap) (name : Text) (fd : Int32) : putAll name2fd journals name = some fd ↔
      (name, fd) ∈ journals ∨ name ∉ journals.map Prod.fst ∧ name2fd name = some fd := by
  induction journals generalizing name2fd with
  | nil => simp [putAll]
  | cons journal rest ih =>
    rw [List.map_cons, List.nodup_cons] at distinct
    have later := ih distinct.2 (Function.update name2fd journal.1 (some journal.2))
    rw [putAll, List.foldl_cons, ← putAll, later, List.map_cons]
    by_cases own : name = journal.1
    · subst own
      have once : (journal.1, fd) ∉ rest :=
        fun member => distinct.1 (List.mem_map.mpr ⟨_, member, rfl⟩)
      simp [once, distinct.1, Prod.ext_iff, eq_comm]
    · have apart : (name, fd) ≠ journal := fun same => own (congrArg Prod.fst same)
      simp [own, apart]

theorem readFds_journals (front : List Text) (journals : List (Text × Int32))
    (filled : front ≠ [] ∨ journals ≠ []) (name2fd : FdsMap) :
    readFds (front ++ journals.flatMap fun journal =>
      [journal.1, stringOfInt journal.2]) front.length name2fd =
      .ok (putAll name2fd journals) := by
  induction journals generalizing front name2fd with
  | nil =>
    have positive : front.length ≠ 0 := by simpa using filled
    rw [List.flatMap_nil, List.append_nil, readFds, lastIndex, if_neg positive, if_neg (by omega)]
    rfl
  | cons journal rest ih =>
    have longer : front ++ [journal.1, stringOfInt journal.2] ≠ [] := by simp
    have later := ih (front ++ [journal.1, stringOfInt journal.2]) (.inl longer)
      (Function.update name2fd journal.1 (some journal.2))
    rw [List.append_assoc, List.length_append] at later
    have below (size : ℕ) : front.length < lastIndex (front.length + (2 + size)) := by
      rw [lastIndex, if_neg (by omega)]
      omega
    have second (more : List Text) :
        (front ++ ([journal.1, stringOfInt journal.2] ++ more))[front.length + 1]? =
        some (stringOfInt journal.2) := by simp
    have first (more : List Text) :
        (front ++ ([journal.1, stringOfInt journal.2] ++ more))[front.length]? =
        some journal.1 := by simp
    rw [readFds, List.flatMap_cons]
    simp only [second, first, stoi_stringOfInt]
    rw [List.length_append, List.length_append]
    exact (if_pos (below _)).trans later

/-- A list of journals is read as it was written just when there is one, and a string is read
inside of its vector just when it is not empty. -/
theorem fds_iff {journals : List (Text × Int32)} (free : ∀ journal ∈ journals, ':' ∉ journal.1)
    (distinct : (journals.map Prod.fst).Nodup) (fdsData : Text) :
    ((∃ name2fd, getFdsMap (fdsVal journals) = .ok name2fd ∧
        ∀ name fd, name2fd name = some fd ↔ (name, fd) ∈ journals) ↔ journals ≠ []) ∧
      (getFdsMap fdsData ≠ .error .outside ↔ fdsData ≠ []) := by
  refine ⟨?_, getFdsMap_inside_iff fdsData⟩
  constructor
  · rintro ⟨name2fd, read, -⟩ rfl
    have inside : getFdsMap (fdsVal []) ≠ .error .outside := by
      rw [read]
      simp
    exact (getFdsMap_inside_iff _).mp inside rfl
  · intro filled
    refine ⟨putAll (fun _ => none) journals, ?_, fun name fd => ?_⟩
    · rw [getFdsMap, split_fdsVal free]
      exact readFds_journals [] journals (.inr filled) _
    · rw [putAll_get distinct]
      simp

/-- Two journals. -/
theorem fds_two : ((∃ name2fd, getFdsMap (fdsVal [(['a'], 7), (['b'], 8)]) = .ok name2fd ∧
      ∀ name fd, name2fd name = some fd ↔ (name, fd) ∈ [(['a'], (7 : Int32)), (['b'], 8)]) ↔
        [(['a'], (7 : Int32)), (['b'], 8)] ≠ []) ∧
    (getFdsMap [':'] ≠ .error .outside ↔ [':'] ≠ []) :=
  fds_iff (by decide) (by decide) [':']

/-- Without journals, the bound of the loop is the greatest `size_t`, and the vector is empty. -/
theorem no_journals :
    ¬ ∀ (journals : List (Text × Int32)) (fdsData : Text), (∀ journal ∈ journals, ':' ∉ journal.1) →
    (journals.map Prod.fst).Nodup →
    (∃ name2fd, getFdsMap (fdsVal journals) = .ok name2fd ∧ ∀ name fd, name2fd name = some fd ↔
      (name, fd) ∈ journals) ∧
      getFdsMap fdsData ≠ .error .outside := by
  intro right
  have inside := (right [] [] (by simp) List.nodup_nil).2
  exact (getFdsMap_inside_iff []).mp inside rfl

end Reading

end BTrader
