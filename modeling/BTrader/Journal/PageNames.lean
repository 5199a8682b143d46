import BTrader.Core.FdsMap
import BTrader.Journal.Page
import BTrader.Lib.Digits
import BTrader.Lib.Sorting

/-! The page files of all journals of a location lie in one directory. What is listed for one
destination are its own pages. -/
namespace BTrader
open FdsMap Infra

/-- `path::stem` and `path::extension` of a file name: the last dot parts them, unless it is the
first character. -/
def splitName (name : Text) : Text × Text :=
  match name.reverse.dropWhile (· ≠ '.') with
  | [] | [_] => (name, [])
  | _ :: stem =>
    if name = ['.', '.'] then (name, [])
    else (stem.reverse, '.' :: (name.reverse.takeWhile (· ≠ '.')).reverse)

/-- `std::atoi`, which is undefined for a number that is no `int`. -/
def atoi (text : Text) : Option Int32 :=
  let (negative, rest) := signOf (text.dropWhile isSpace)
  let value : Int := Digits.read 10 (Digits.leading 10 rest)
  let value := if negative then -value else value
  if -2 ^ 31 ≤ value ∧ value < 2 ^ 31 then some (Int32.ofInt value) else none

/-- A `0x` before a digit is left out. -/
def dropPrefix16 : Text → Text
  | '0' :: x :: c :: more =>
    if (x = 'x' ∨ x = 'X') ∧ (Digits.value c).isSome then c :: more else '0' :: x :: c :: more
  | text => text

/-- `std::stoul` with the base 16, cut to 32 bits; it throws where there is no digit and where the
number is too large. -/
def stoul16 (text : Text) : Option UInt32 :=
  let (negative, rest) := signOf (text.dropWhile isSpace)
  let digits := Digits.leading 16 (dropPrefix16 rest)
  let value := Digits.read 16 digits
  if digits = [] ∨ 2 ^ 64 ≤ value then none
  else some (if negative then 0 - (UInt64.ofNat value).toUInt32 else (UInt64.ofNat value).toUInt32)

def journalExtension : Text := ['.', 'j', 'o', 'u', 'r', 'n', 'a', 'l']

namespace JLocator

/-- One round of the loop over the regular files below the directory. A name without a page id
leaves `c_str() + 1` behind the string. -/
def addPageId (destId : UInt32) (result : List UInt32) (file : Text) : Option (List UInt32) :=
  let (basename, extension) := splitName file
  let (stem, pageId) := splitName basename
  if extension = journalExtension ∧ stem = (hex08 destId).toList then
    match pageId with
    | [] => none
    | _ :: digits => (atoi digits).map fun index => result ++ [index.toUInt32]
  else some result

def listPageId (dir : List Text) (destId : UInt32) : Option (List UInt32) :=
  (dir.foldlM (addPageId destId) []).map fun result => result.mergeSort (· ≤ ·)

def addDest (set : List UInt32) (file : Text) : Option (List UInt32) :=
  let (basename, extension) := splitName file
  if extension = journalExtension then (stoul16 (splitName basename).1).map fun dest =>
    set.insert dest else some set

def listLocationDest (dir : List Text) : Option (List UInt32) := dir.foldlM addDest []

end JLocator

/-- The name of the file that a page is loaded from. -/
def pageFile (destId : UInt32) (pageId : Nat) : Text :=
  (hex08 destId).toList ++ '.' :: Nat.toDigits 10 pageId ++ journalExtension

theorem getPagePath_eq (location : JLocation) (destId : UInt32) (pageId : Nat) :
    PageUnit.getPagePath location destId pageId =
      joinPath location.layoutDir (String.ofList (pageFile destId pageId)) := by
  have named : hex08 destId ++ "." ++ toString pageId ++ ".journal" =
      String.ofList (pageFile destId pageId) := by
    apply String.toList_injective
    have number : (toString pageId).toList = Nat.toDigits 10 pageId := Nat.toList_repr
    have dot : ".".toList = ['.'] := by decide
    have extension : ".journal".toList = journalExtension := by decide
    rw [String.toList_append, String.toList_append, String.toList_append, number, dot, extension,
      String.toList_ofList, pageFile]
    simp only [List.append_assoc, List.nil_append, List.cons_append]
  rw [PageUnit.getPagePath, JLocation.layoutFile, named]

section Names

theorem joinPath_inj {front name other : String} :
    joinPath front name = joinPath front other ↔ name = other := by
  refine ⟨fun same => ?_, congrArg (joinPath front)⟩
  unfold joinPath at same
  apply String.toList_injective
  split at same
  · simpa using congrArg String.toList same
  · simpa using congrArg String.toList same

theorem splitName_dot {stem more : Text} (named : stem ≠ []) (plain : '.' ∉ more)
    (kind : more ≠ []) :
    splitName (stem ++ '.' :: more) = (stem, '.' :: more) := by
  have back : (stem ++ '.' :: more).reverse = more.reverse ++ '.' :: stem.reverse := by simp
  have free : ∀ c ∈ more.reverse, decide (c ≠ '.') = true := by
    intro c member
    refine decide_eq_true fun same => plain ?_
    rw [← same]
    exact List.mem_reverse.mp member
  have front : (stem ++ '.' :: more).reverse.dropWhile (· ≠ '.') = '.' :: stem.reverse := by
    rw [back, List.dropWhile_append_of_pos free]
    simp
  have tail : (stem ++ '.' :: more).reverse.takeWhile (· ≠ '.') = more.reverse := by
    rw [back, List.takeWhile_append_of_pos free]
    simp
  obtain ⟨c, rest, shape⟩ := List.exists_cons_of_ne_nil (List.reverse_ne_nil_iff.mpr named)
  have dots : stem ++ '.' :: more ≠ ['.', '.'] := by
    intro same
    have length := congrArg List.length same
    simp only [List.length_append, List.length_cons, List.length_nil] at length
    have one := List.length_pos_of_ne_nil named
    have other := List.length_pos_of_ne_nil kind
    omega
  unfold splitName
  rw [front, shape]
  simp only [if_neg dots, tail]
  rw [← shape, List.reverse_reverse, List.reverse_reverse]

theorem hex08_toList (destId : UInt32) :
    ∃ zeros, (hex08 destId).toList = List.replicate zeros '0' ++ Nat.toDigits 16 destId.toNat :=
  ⟨_, String.toList_ofList⟩

theorem hex08_read (destId : UInt32) : Digits.read 16 (hex08 destId).toList = destId.toNat := by
  obtain ⟨zeros, shape⟩ := hex08_toList destId
  rw [shape, Digits.read_replicate_zero, Digits.read_toDigits (by norm_num) (le_refl _)]

theorem hex08_inj {destId other : UInt32} :
    (hex08 destId).toList = (hex08 other).toList ↔ destId = other := by
  constructor
  · intro same
    have values := congrArg (Digits.read 16) same
    rw [hex08_read, hex08_read] at values
    exact UInt32.toNat_inj.mp values
  · intro same
    rw [same]

theorem hex08_digits (destId : UInt32) :
    ∀ c ∈ (hex08 destId).toList, (Digits.value c).any (· < 16) = true := by
  obtain ⟨zeros, shape⟩ := hex08_toList destId
  intro c member
  rw [shape] at member
  rcases List.mem_append.mp member with zero | digit
  · rw [List.eq_of_mem_replicate zero]
    decide
  · exact Digits.digit_toDigits (by norm_num) (le_refl _) _ c digit

theorem hex08_ne_nil (destId : UInt32) : (hex08 destId).toList ≠ [] := by
  obtain ⟨zeros, shape⟩ := hex08_toList destId
  rw [shape]
  exact List.append_ne_nil_of_right_ne_nil _ Nat.toDigits_ne_nil

theorem splitName_pageFile (destId : UInt32) (pageId : Nat) :
    splitName (pageFile destId pageId) =
      ((hex08 destId).toList ++ '.' :: Nat.toDigits 10 pageId, journalExtension) := by
  refine splitName_dot ?_ (by decide) (by decide)
  simp

theorem splitName_basename (destId : UInt32) (pageId : Nat) :
    splitName ((hex08 destId).toList ++ '.' :: Nat.toDigits 10 pageId) =
      ((hex08 destId).toList, '.' :: Nat.toDigits 10 pageId) := by
  refine splitName_dot (hex08_ne_nil destId) (fun member => ?_) Nat.toDigits_ne_nil
  exact absurd (digit_of_mem member) (by decide)

/-- What a number is written as is read as the number. -/
theorem atoi_toDigits {n : Nat} (small : n < 2 ^ 31) :
    atoi (Nat.toDigits 10 n) = some (Int32.ofInt n) := by
  obtain ⟨first, rest, shape⟩ := List.exists_cons_of_ne_nil (Nat.toDigits_ne_nil (n := n) (b := 10))
  have lead : first.isDigit = true :=
    digit_of_mem (n := n) (by rw [shape]; exact List.mem_cons_self)
  have signed : signOf ((Nat.toDigits 10 n).dropWhile isSpace) = (false, Nat.toDigits 10 n) := by
    rw [shape, List.dropWhile_cons_of_neg (by simp [isSpace_digit lead]), signOf_digit lead]
  have digits :=
    Digits.leading_digits (Digits.digit_toDigits (by norm_num : 1 < 10) (by norm_num) n)
  simp only [atoi, signed, digits,
    Digits.read_toDigits (by norm_num : 1 < 10) (by norm_num : 10 ≤ 16)]
  rw [if_pos]
  · simp
  · simp only [Bool.false_eq_true, if_false]
    omega

theorem pageFile_inj {destId other : UInt32} {p q : Nat} :
    pageFile destId p = pageFile other q ↔ destId = other ∧ p = q := by
  constructor
  · intro same
    have names := congrArg splitName same
    rw [splitName_pageFile, splitName_pageFile, Prod.mk.injEq] at names
    have parts := congrArg splitName names.1
    rw [splitName_basename, splitName_basename, Prod.mk.injEq, List.cons.injEq] at parts
    have values := congrArg (Digits.read 10) parts.2.2
    rw [Digits.read_toDigits (by norm_num) (by norm_num),
      Digits.read_toDigits (by norm_num) (by norm_num)] at values
    exact ⟨hex08_inj.mp parts.1, values⟩
  · rintro ⟨rfl, rfl⟩
    rfl

end Names

/-- `open` with `O_CREAT` in the directory. -/
def openPage (dir : List Text) (page : UInt32 × Nat) : List Text :=
  if pageFile page.1 page.2 ∈ dir then dir else dir ++ [pageFile page.1 page.2]

/-- What it does to the files of one destination. -/
def openFor (destId : UInt32) (files : JournalFiles) (page : UInt32 × Nat) : JournalFiles :=
  if page.1 = destId then files.create page.2 else files

namespace JLocator
variable {destId : UInt32} {dir : List Text} {file : Text}

theorem addPageId_append (destId : UInt32) (result : List UInt32) (file : Text) :
    addPageId destId result file = (addPageId destId [] file).map (result ++ ·) := by
  simp only [addPageId]
  split
  · split
    · rfl
    · simp [Option.map_map, Function.comp_def]
  · simp

/-- The id that a file adds. -/
def adds (destId : UInt32) (page : UInt32 × Nat) : List UInt32 :=
  if page.1 = destId then [UInt32.ofNat page.2] else []

theorem addPageId_page {page : UInt32 × Nat} (small : page.2 < 2 ^ 31) :
    addPageId destId [] (pageFile page.1 page.2) = some (adds destId page) := by
  have index : (Int32.ofInt page.2).toUInt32 = UInt32.ofNat page.2 := by
    rw [Int32.ofInt_eq_ofNat, Int32.toUInt32_ofNat']
  simp only [addPageId, splitName_pageFile, splitName_basename, atoi_toDigits small, hex08_inj,
    true_and, adds, Option.map_some, index, List.nil_append]
  split <;> rfl

theorem addPageId_foreign (foreign : (splitName file).2 ≠ journalExtension) :
    addPageId destId [] file = some [] := by
  simp only [addPageId, foreign, false_and, if_false]

/-- The loop puts together what the files add. -/
theorem foldlM_addPageId {found : Text → List UInt32}
    (each : ∀ file ∈ dir, addPageId destId [] file = some (found file)) (result : List UInt32) :
      dir.foldlM (addPageId destId) result = some (result ++ dir.flatMap found) := by
  induction dir generalizing result with
  | nil => simp
  | cons file dir ih =>
    have own := each file List.mem_cons_self
    have rest :=
      ih (fun other member => each other (List.mem_cons_of_mem _ member)) (result ++ found file)
    rw [List.foldlM_cons, addPageId_append, own]
    simpa using rest

/-- The ids of the directory, in its order. -/
def found (destId : UInt32) (file : Text) : List UInt32 := (addPageId destId [] file).getD []

/-- The directory holds the pages that were opened, and those of each destination are its files. -/
structure Holds (opens : List (UInt32 × Nat)) (dir : List Text) : Prop where
  opened : ∀ file ∈ dir, ∃ page ∈ opens, file = pageFile page.1 page.2
  present : ∀ page ∈ opens, pageFile page.1 page.2 ∈ dir
  ids : ∀ destId, (dir.flatMap (found destId)).map UInt32.toNat =
    (opens.foldl (openFor destId) JournalFiles.fresh).ids

theorem found_page {page : UInt32 × Nat} (small : page.2 < 2 ^ 31) (destId : UInt32) :
    found destId (pageFile page.1 page.2) = adds destId page := by
  rw [found, addPageId_page small]
  rfl

theorem adds_toNat {page : UInt32 × Nat} (small : page.2 < 2 ^ 31) (destId : UInt32) :
    (adds destId page).map UInt32.toNat = if page.1 = destId then [page.2] else [] := by
  unfold adds
  split
  · simp only [List.map_cons, List.map_nil, UInt32.toNat_ofNat']
    rw [Nat.mod_eq_of_lt (by omega)]
  · rfl

/-- The files that were created for a destination. -/
theorem mem_ids (opens : List (UInt32 × Nat)) (destId : UInt32) (p : Nat) :
    p ∈ (opens.foldl (openFor destId) JournalFiles.fresh).ids ↔ (destId, p) ∈ opens := by
  induction opens using List.reverseRecOn with
  | nil => simp [JournalFiles.fresh]
  | append_singleton opens page ih =>
    rw [List.foldl_append, List.foldl_cons, List.foldl_nil, List.mem_append, List.mem_singleton,
      ← ih, openFor]
    by_cases own : page.1 = destId
    · subst own
      rw [if_pos rfl, JournalFiles.create]
      by_cases there : page.2 ∈ (opens.foldl (openFor page.1) JournalFiles.fresh).ids
      · rw [if_pos there]
        refine ⟨.inl, ?_⟩
        rintro (old | new)
        · exact old
        · obtain rfl : p = page.2 := congrArg Prod.snd new
          exact there
      · rw [if_neg there, List.mem_append, List.mem_singleton]
        simp [Prod.ext_iff]
    · rw [if_neg own]
      refine ⟨.inl, ?_⟩
      rintro (old | new)
      · exact old
      · exact absurd (congrArg Prod.fst new).symm own

theorem holds (opens : List (UInt32 × Nat)) (small : ∀ page ∈ opens, page.2 < 2 ^ 31) :
    Holds opens (opens.foldl openPage []) := by
  induction opens using List.reverseRecOn with
  | nil => exact ⟨by simp, by simp, fun destId => rfl⟩
  | append_singleton opens page ih =>
    obtain ⟨opened, present, ids⟩ :=
      ih fun other member => small other (List.mem_append_left _ member)
    have own := small page (List.mem_append_right _ List.mem_cons_self)
    simp only [List.foldl_append, List.foldl_cons, List.foldl_nil]
    have here : pageFile page.1 page.2 ∈ opens.foldl openPage [] ↔ page ∈ opens := by
      refine ⟨fun member => ?_, present page⟩
      obtain ⟨other, listed, same⟩ := opened _ member
      obtain ⟨dest, id⟩ := pageFile_inj.mp same
      rwa [Prod.ext dest id]
    rw [openPage]
    by_cases old : page ∈ opens
    · rw [if_pos (here.mpr old)]
      refine ⟨fun file member => ?_, fun other member => ?_, fun destId => ?_⟩
      · obtain ⟨other, listed, same⟩ := opened file member
        exact ⟨other, List.mem_append_left _ listed, same⟩
      · rcases List.mem_append.mp member with before | last
        · exact present other before
        · rw [List.mem_singleton.mp last]
          exact here.mpr old
      · rw [ids, List.foldl_append, List.foldl_cons, List.foldl_nil]
        by_cases same : page.1 = destId
        · rw [openFor, if_pos same, JournalFiles.create, if_pos]
          rw [mem_ids, ← same]
          exact old
        · rw [openFor, if_neg same]
    · rw [if_neg (fun member => old (here.mp member))]
      refine ⟨fun file member => ?_, fun other member => ?_, fun destId => ?_⟩
      · rcases List.mem_append.mp member with before | last
        · obtain ⟨other, listed, same⟩ := opened file before
          exact ⟨other, List.mem_append_left _ listed, same⟩
        · exact ⟨page, List.mem_append_right _ List.mem_cons_self, List.mem_singleton.mp last⟩
      · rcases List.mem_append.mp member with before | last
        · exact List.mem_append_left _ (present other before)
        · rw [List.mem_singleton.mp last]
          exact List.mem_append_right _ List.mem_cons_self
      · rw [List.flatMap_append, List.map_append, ids, List.flatMap_singleton, found_page own,
          adds_toNat own, List.foldl_append, List.foldl_cons, List.foldl_nil]
        by_cases same : page.1 = destId
        · have absent : page.2 ∉ (opens.foldl (openFor destId) JournalFiles.fresh).ids := by
            rw [mem_ids, ← same]
            exact old
          rw [openFor, if_pos same, if_pos same, JournalFiles.create, if_neg absent]
        · rw [openFor, if_neg same, if_neg same, List.append_nil]

/-- A hexadecimal digit is no blank, no sign and no `x`. -/
theorem hex_plain {c : Char} (digit : (Digits.value c).isSome) :
    isSpace c = false ∧ c ≠ '-' ∧ c ≠ '+' ∧ c ≠ 'x' ∧ c ≠ 'X' := by
  have other (x : Char) (none : (Digits.value x).isSome = false) : c ≠ x := by
    rintro rfl
    rw [digit] at none
    contradiction
  refine ⟨?_, other _ (by decide), other _ (by decide), other _ (by decide), other _ (by decide)⟩
  by_cases decimal : c.isDigit = true
  · exact isSpace_digit decimal
  · simp only [isSpace, Bool.or_eq_false_iff, Bool.and_eq_false_iff, decide_eq_false_iff_not]
    refine ⟨other ' ' (by decide), .inr fun low => ?_⟩
    have blank : ¬ 'a' ≤ c ∧ ¬ 'A' ≤ c := by
      simp only [Char.le_def, UInt32.le_iff_toNat_le] at low ⊢
      have high : '\r'.val.toNat = 13 := rfl
      have small : 'a'.val.toNat = 97 := rfl
      have large : 'A'.val.toNat = 65 := rfl
      omega
    rw [Digits.value, if_neg decimal, if_neg fun both => blank.1 both.1,
      if_neg fun both => blank.2 both.1] at digit
    contradiction

theorem stoul16_hex08 (destId : UInt32) : stoul16 (hex08 destId).toList = some destId := by
  have digits := hex08_digits destId
  have valued : ∀ c ∈ (hex08 destId).toList, (Digits.value c).isSome := by
    intro c member
    have digit := digits c member
    cases value : Digits.value c with
    | none => simp [value] at digit
    | some n => rfl
  have value := hex08_read destId
  have filled := hex08_ne_nil destId
  generalize (hex08 destId).toList = text at *
  obtain ⟨first, rest, rfl⟩ := List.exists_cons_of_ne_nil filled
  have lead := hex_plain (valued first List.mem_cons_self)
  have signed : signOf ((first :: rest).dropWhile isSpace) = (false, first :: rest) := by
    rw [List.dropWhile_cons_of_neg (by simp [lead.1])]
    unfold signOf
    split
    · rename_i same
      exact absurd (List.cons.inj same).1 lead.2.1
    · rename_i same
      exact absurd (List.cons.inj same).1 lead.2.2.1
    · rfl
  have unprefixed : dropPrefix16 (first :: rest) = first :: rest := by
    unfold dropPrefix16
    split
    · rename_i x c more same
      have second := hex_plain (valued x (by rw [same]; simp))
      rw [if_neg, same]
      rintro ⟨small | large, _⟩
      · exact second.2.2.2.1 small
      · exact second.2.2.2.2 large
    · rfl
  have bound : destId.toNat < 2 ^ 64 := destId.toNat_lt.trans (by norm_num)
  simp only [stoul16, signed, unprefixed, Digits.leading_digits digits, value]
  rw [if_neg (by simp; omega)]
  simp

theorem addDest_page (set : List UInt32) (page : UInt32 × Nat) :
    addDest set (pageFile page.1 page.2) = some (set.insert page.1) := by
  simp [addDest, splitName_pageFile, splitName_basename, stoul16_hex08]

theorem addDest_foreign (set : List UInt32) (foreign : (splitName file).2 ≠ journalExtension) :
    addDest set file = some set := by
  simp [addDest, foreign]

/-- The set of the destinations, for page files and others in any order. -/
theorem foldlM_addDest
    (pages : ∀ file ∈ dir, (∃ page : UInt32 × Nat, file = pageFile page.1 page.2) ∨
      (splitName file).2 ≠ journalExtension) (set : List UInt32) (distinct : set.Nodup) :
    ∃ dests, dir.foldlM addDest set = some dests ∧ dests.Nodup ∧
      ∀ d, d ∈ dests ↔ d ∈ set ∨ ∃ p, pageFile d p ∈ dir := by
  induction dir generalizing set with
  | nil => exact ⟨set, rfl, distinct, by simp⟩
  | cons file dir ih =>
    have later := ih fun other member => pages other (List.mem_cons_of_mem _ member)
    rcases pages file List.mem_cons_self with ⟨page, rfl⟩ | foreign
    · obtain ⟨dests, ran, single, all⟩ := later (set.insert page.1) (distinct.insert)
      refine ⟨dests, ?_, single, fun d => ?_⟩
      · rw [List.foldlM_cons, addDest_page]
        exact ran
      · rw [all, List.mem_insert_iff]
        simp only [List.mem_cons, pageFile_inj]
        constructor
        · rintro ((rfl | old) | ⟨p, there⟩)
          · exact .inr ⟨page.2, .inl ⟨rfl, rfl⟩⟩
          · exact .inl old
          · exact .inr ⟨p, .inr there⟩
        · rintro (old | ⟨p, ⟨rfl, rfl⟩ | there⟩)
          · exact .inl (.inr old)
          · exact .inl (.inl rfl)
          · exact .inr ⟨p, there⟩
    · obtain ⟨dests, ran, single, all⟩ := later set distinct
      refine ⟨dests, ?_, single, fun d => ?_⟩
      · rw [List.foldlM_cons, addDest_foreign set foreign]
        exact ran
      · rw [all]
        have other (p : Nat) : pageFile d p ≠ file := by
          rintro rfl
          exact foreign (by rw [splitName_pageFile])
        simp [other]

end JLocator

/-- Whatever order the system lists the directory in, and whatever else lies in it: the pages listed
for a destination are those of its files, the destinations listed are those with a page, and no two
pages have one path. -/
theorem directory_refines (opens : List (UInt32 × Nat)) (small : ∀ page ∈ opens, page.2 < 2 ^ 31)
    (others : List Text)
    (foreign : ∀ file ∈ others, (splitName file).2 ≠ journalExtension) {dir : List Text}
    (order : dir.Perm (others ++ opens.foldl openPage [])) :
    (∀ destId, (JLocator.listPageId dir destId).map (List.map UInt32.toNat) =
      some (PageUnit.listPageId (opens.foldl (openFor destId) JournalFiles.fresh))) ∧
    (∃ dests, JLocator.listLocationDest dir = some dests ∧ dests.Nodup ∧ ∀ d, d ∈ dests ↔
      ∃ p, (d, p) ∈ opens) ∧
    ∀ location d p d' p', PageUnit.getPagePath location d p = PageUnit.getPagePath location d' p' ↔
      d = d' ∧ p = p' := by
  have holds := JLocator.holds opens small
  have kinds : ∀ file ∈ dir, (∃ page ∈ opens, file = pageFile page.1 page.2) ∨
      (splitName file).2 ≠ journalExtension := by
    intro file member
    rcases List.mem_append.mp (order.mem_iff.mp member) with other | page
    · exact .inr (foreign file other)
    · exact .inl (holds.opened file page)
  refine ⟨fun destId => ?_, ?_, fun location d p d' p' => ?_⟩
  · have each :
      ∀ file ∈ dir, JLocator.addPageId destId [] file = some (JLocator.found destId file) := by
      intro file member
      rcases kinds file member with ⟨page, listed, rfl⟩ | other
      · rw [JLocator.found_page (small page listed), JLocator.addPageId_page (small page listed)]
      · rw [JLocator.found, JLocator.addPageId_foreign other]
        rfl
    have skipped : others.flatMap (JLocator.found destId) = [] := by
      rw [List.flatMap_eq_nil_iff]
      intro file member
      rw [JLocator.found, JLocator.addPageId_foreign (foreign file member)]
      rfl
    have found := (order.flatMap_right (JLocator.found destId)).map UInt32.toNat
    rw [List.flatMap_append, skipped, List.nil_append, holds.ids] at found
    have sorted : ((dir.flatMap (JLocator.found destId)).mergeSort (· ≤ ·)).map UInt32.toNat =
        ((dir.flatMap (JLocator.found destId)).map UInt32.toNat).mergeSort (· ≤ ·) := by
      apply List.map_mergeSort
      intro p _ q _
      simp only [UInt32.le_iff_toNat_le]
    rw [JLocator.listPageId, JLocator.foldlM_addPageId each, List.nil_append, Option.map_some,
      Option.map_some, sorted]
    exact congrArg some (Sorting.mergeSort_perm found)
  · have pages : ∀ file ∈ dir, (∃ page : UInt32 × Nat, file = pageFile page.1 page.2) ∨
        (splitName file).2 ≠ journalExtension := by
      intro file member
      rcases kinds file member with ⟨page, _, same⟩ | other
      · exact .inl ⟨page, same⟩
      · exact .inr other
    obtain ⟨dests, ran, distinct, all⟩ := JLocator.foldlM_addDest pages [] List.nodup_nil
    refine ⟨dests, ran, distinct, fun d => ?_⟩
    rw [all]
    simp only [List.not_mem_nil, false_or]
    refine exists_congr fun p => ⟨fun member => ?_, fun listed => ?_⟩
    · rcases kinds _ member with ⟨page, listed, same⟩ | other
      · obtain ⟨dest, id⟩ := pageFile_inj.mp same
        rwa [show (d, p) = page from Prod.ext dest id]
      · exact absurd (by rw [splitName_pageFile]) other
    · exact order.mem_iff.mpr (List.mem_append_right _ (holds.present (d, p) listed))
  · rw [getPagePath_eq, getPagePath_eq, joinPath_inj, String.ofList_inj, pageFile_inj]

/-- Two pages of one journal and one of another, listed with a file of the database. -/
theorem directory_refines_three :
    (JLocator.listPageId (["trades.db".toList] ++ [(7, 2), (8, 1), (7, 1)].foldl openPage []) 7).map
      (List.map UInt32.toNat) =
      some (PageUnit.listPageId ([(7, 2), (8, 1), (7, 1)].foldl (openFor 7) JournalFiles.fresh)) :=
  (directory_refines [(7, 2), (8, 1), (7, 1)] (by decide) ["trades.db".toList] (by decide)
    (List.Perm.refl _)).1 7

end BTrader
