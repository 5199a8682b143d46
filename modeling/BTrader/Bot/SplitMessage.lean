import Mathlib

/-! A long message, split into messages that the chat takes. A text is the list of its characters.
-/
namespace BTrader.Bot

/-- Where the bound of a slice lies: a negative one counts from the end. -/
def place (length : ℕ) (bound : ℤ) : ℕ :=
  if bound < 0 then (bound + length).toNat else min bound.toNat length

/-- The last place of the character among the first ones; -1 where there is none. -/
def lastBefore (text : List Char) (c : Char) : ℕ → ℤ
  | 0 => -1
  | stop + 1 => if text[stop]? = some c then stop else lastBefore text c stop

/-- `text.rfind(c, 0, stop)` -/
def rfind (text : List Char) (c : Char) (stop : ℤ) : ℤ := lastBefore text c (place text.length stop)

def lstrip (text : List Char) : List Char := text.dropWhile (· = '\n')

def splitPos (maxMessageLength : ℤ) (text : List Char) : ℤ :=
  let found := rfind text '\n' (maxMessageLength - 100)
  if found = -1 then maxMessageLength - 100 else found

/-- The loop of `_split_message`; none where the fuel runs out. -/
def splitLoop (maxMessageLength : ℤ) : ℕ → List Char → List (List Char) → Option (List (List Char))
  | 0, _, _ => none
  | fuel + 1, text, messages =>
    if text.length > maxMessageLength then
      let cut := place text.length (splitPos maxMessageLength text)
      splitLoop maxMessageLength fuel (lstrip (text.drop cut)) (messages ++ [text.take cut])
    else some (if text ≠ [] then messages ++ [text] else messages)

/-- The loop ends with the messages, whatever fuel beyond enough it has. -/
def Returns (maxMessageLength : ℤ) (text : List Char) (messages : List (List Char)) : Prop :=
  ∃ enough, ∀ fuel ≥ enough, splitLoop maxMessageLength fuel text [] = some messages

theorem Returns.unique {maxMessageLength : ℤ} {text : List Char}
    {messages others : List (List Char)} (first : Returns maxMessageLength text messages)
    (second : Returns maxMessageLength text others) :
    messages = others := by
  obtain ⟨enough, ends⟩ := first
  obtain ⟨enough', ends'⟩ := second
  have both := (ends (max enough enough') (le_max_left _ _)).symm.trans (ends' _ (le_max_right _ _))
  exact Option.some.inj both

/-- The text is the messages, and newlines behind those that were cut off a text that is too long.
-/
def Joined (maxMessageLength : ℤ) : List (List Char) → List Char → Prop
  | [], text => text = []
  | message :: messages, text =>
    messages = [] ∧ text = message ∨
      text.length > maxMessageLength ∧ ∃ gap rest, (∀ c ∈ gap, c = '\n') ∧
        text = message ++ (gap ++ rest) ∧
        Joined maxMessageLength messages rest

/-- The text is split into messages that the chat takes, and that lose nothing. -/
structure Splits (maxMessageLength : ℤ) (text : List Char)
    (messages : List (List Char)) : Prop where
  returns : Returns maxMessageLength text messages
  nonempty : ∀ message ∈ messages, message ≠ []
  short : ∀ message ∈ messages, message.length ≤ maxMessageLength
  joined : Joined maxMessageLength messages text

/-- A long text that starts with a newline has another one to be cut at. -/
def Cuttable (maxMessageLength : ℤ) (text : List Char) : Prop :=
  text.length > maxMessageLength → text[0]? = some '\n' →
    ∃ i : ℕ, 1 ≤ i ∧ i < maxMessageLength - 100 ∧ text[i]? = some '\n'

section Cuts
variable {maxMessageLength : ℤ} {text : List Char}

theorem lastBefore_spec (text : List Char) (c : Char) (stop : ℕ) :
    (lastBefore text c stop = -1 ∧ ∀ i < stop, text[i]? ≠ some c) ∨
      ∃ last < stop, lastBefore text c stop = last ∧ text[last]? = some c ∧
        ∀ i, last < i → i < stop → text[i]? ≠ some c := by
  induction stop with
  | zero => exact .inl ⟨rfl, fun i below => absurd below (Nat.not_lt_zero i)⟩
  | succ stop ih =>
    rw [lastBefore]
    by_cases here : text[stop]? = some c
    · rw [if_pos here]
      exact .inr ⟨stop, Nat.lt_succ_self stop, rfl, here, fun i after below => by omega⟩
    · rw [if_neg here]
      have beyond {i : ℕ} (below : i < stop + 1) (earlier : i < stop → text[i]? ≠ some c) :
          text[i]? ≠ some c := by
        rcases Nat.lt_succ_iff_lt_or_eq.mp below with less | same
        · exact earlier less
        · rwa [same]
      rcases ih with ⟨none, absent⟩ | ⟨last, bound, found, there, later⟩
      · exact .inl ⟨none, fun i below => beyond below (absent i)⟩
      · exact .inr ⟨last, Nat.lt_succ_of_lt bound, found, there,
          fun i after below => beyond below (later i after)⟩

theorem place_of_le {length : ℕ} {bound : ℤ} (nonneg : 0 ≤ bound) (le : bound ≤ length) :
    (place length bound : ℤ) = bound := by
  unfold place
  rw [if_neg (by omega)]
  omega

/-- The cut is within the limit, and at the very start just when the only newline is there. -/
theorem cut_spec (large : 100 < maxMessageLength) (long : text.length > maxMessageLength) :
    (place text.length (splitPos maxMessageLength text) : ℤ) ≤ maxMessageLength - 100 ∧
      (place text.length (splitPos maxMessageLength text) = 0 ↔
        text[0]? = some '\n' ∧ ∀ i : ℕ, 1 ≤ i → i < maxMessageLength - 100 →
          text[i]? ≠ some '\n') := by
  have stop : (place text.length (maxMessageLength - 100) : ℤ) = maxMessageLength - 100 :=
    place_of_le (by omega) (by omega)
  unfold splitPos rfind
  dsimp only
  rcases lastBefore_spec text '\n' (place text.length (maxMessageLength - 100)) with
    ⟨none, absent⟩ | ⟨last, bound, found, there, later⟩
  · rw [none, if_pos rfl]
    refine ⟨stop.le, iff_of_false (by omega) fun first => ?_⟩
    exact absent 0 (by omega) first.1
  · rw [found, if_neg (by omega)]
    have same : (place text.length (last : ℤ) : ℤ) = last := place_of_le (by omega) (by omega)
    refine ⟨by omega, ?_⟩
    constructor
    · intro zero
      obtain rfl : last = 0 := by omega
      exact ⟨there, fun i after below => later i (by omega) (by omega)⟩
    · rintro ⟨-, alone⟩
      by_contra positive
      exact alone last (by omega) (by omega) there

theorem lstrip_head (text : List Char) : (lstrip text)[0]? ≠ some '\n' := by
  induction text with
  | nil => simp [lstrip]
  | cons c text ih =>
    rw [lstrip, List.dropWhile_cons]
    split
    · exact ih
    · rename_i other
      simpa using other

/-- What is stripped is newlines. -/
theorem lstrip_split (text : List Char) :
    ∃ gap, (∀ c ∈ gap, c = '\n') ∧ text = gap ++ lstrip text := by
  refine ⟨text.takeWhile (· = '\n'), fun c member => ?_, List.takeWhile_append_dropWhile.symm⟩
  simpa using List.mem_takeWhile_imp member

theorem lstrip_length_le (text : List Char) : (lstrip text).length ≤ text.length :=
  (List.dropWhile_sublist _).length_le

/-- A cut makes the text shorter, if only by the newline it starts with. -/
theorem rest_shorter (large : 100 < maxMessageLength) (long : text.length > maxMessageLength) :
    (lstrip (text.drop (place text.length (splitPos maxMessageLength text)))).length <
      text.length := by
  by_cases start : place text.length (splitPos maxMessageLength text) = 0
  · have first := ((cut_spec large long).2.mp start).1
    rw [start, List.drop_zero]
    cases text with
    | nil => simp at first
    | cons c text =>
      obtain rfl : c = '\n' := by simpa using first
      have stripped : lstrip ('\n' :: text) = lstrip text := List.dropWhile_cons_of_pos rfl
      rw [stripped]
      exact Nat.lt_succ_of_le (lstrip_length_le text)
  · have shorter :=
      lstrip_length_le (text.drop (place text.length (splitPos maxMessageLength text)))
    rw [List.length_drop] at shorter
    omega

end Cuts

section Loop
variable {maxMessageLength : ℤ}

/-- The loop cuts the text into these pieces once its fuel exceeds the length of the text. They
are short and lose nothing, and are filled just when the text is cuttable. -/
structure Pieces (maxMessageLength : ℤ) (text : List Char) (pieces : List (List Char)) : Prop where
  runs : ∀ fuel > text.length, ∀ messages, splitLoop maxMessageLength fuel text messages =
    some (messages ++ pieces)
  filled : (∀ piece ∈ pieces, piece ≠ []) ↔ Cuttable maxMessageLength text
  short : ∀ piece ∈ pieces, piece.length ≤ maxMessageLength
  joined : Joined maxMessageLength pieces text

/-- A text that is not long is one piece, or none. -/
theorem pieces_whole {text : List Char} (fits : ¬ text.length > maxMessageLength) :
    Pieces maxMessageLength text (if text ≠ [] then [text] else []) := by
  have cuttable : Cuttable maxMessageLength text := fun exceeds => absurd exceeds fits
  refine ⟨?_, iff_of_true ?_ cuttable, ?_, ?_⟩
  · intro fuel enough messages
    obtain ⟨fuel, rfl⟩ := Nat.exists_eq_add_one.mpr (Nat.zero_lt_of_lt enough)
    rw [splitLoop, if_neg fits]
    split
    · rfl
    · rw [List.append_nil]
  · split
    · rename_i filled
      exact List.forall_mem_singleton.mpr filled
    · exact List.forall_mem_nil _
  · split
    · exact List.forall_mem_singleton.mpr (not_lt.mp fits)
    · exact List.forall_mem_nil _
  · split
    · exact .inl ⟨rfl, rfl⟩
    · rename_i empty
      exact not_not.mp empty

/-- What is cut off a long text comes before the pieces of the rest, which has no newline in
front. -/
theorem Pieces.cut {text : List Char} {pieces : List (List Char)} {cut : ℕ}
    (large : 100 < maxMessageLength) (long : text.length > maxMessageLength)
    (atCut : place text.length (splitPos maxMessageLength text) = cut)
    (rest : Pieces maxMessageLength (lstrip (text.drop cut)) pieces) :
    Pieces maxMessageLength text (text.take cut :: pieces) := by
  obtain ⟨within, start⟩ := cut_spec large long
  have shorter := rest_shorter large long
  rw [atCut] at within start shorter
  constructor
  · intro fuel enough messages
    obtain ⟨fuel, rfl⟩ := Nat.exists_eq_add_one.mpr (Nat.zero_lt_of_lt enough)
    rw [splitLoop, if_pos long]
    dsimp only
    rw [atCut, rest.runs fuel (by omega), List.append_assoc]
    rfl
  · have later : ∀ piece ∈ pieces, piece ≠ [] :=
      rest.filled.mpr fun _ first => absurd first (lstrip_head _)
    have present : text ≠ [] := by
      rintro rfl
      simp at long
      omega
    have cuttable : Cuttable maxMessageLength text ↔ ¬ (text[0]? = some '\n' ∧
        ∀ i : ℕ, 1 ≤ i → i < maxMessageLength - 100 → text[i]? ≠ some '\n') := by
      unfold Cuttable
      push Not
      exact ⟨fun cut first => cut long first, fun cut _ first => cut first⟩
    rw [List.forall_mem_cons, and_iff_left later, Ne, List.take_eq_nil_iff, or_iff_left present,
      start, cuttable]
  · refine List.forall_mem_cons.mpr ⟨?_, rest.short⟩
    rw [List.length_take]
    omega
  · obtain ⟨gap, newlines, parts⟩ := lstrip_split (text.drop cut)
    have whole : text = text.take cut ++ (gap ++ lstrip (text.drop cut)) := by
      rw [← parts, List.take_append_drop]
    exact .inr ⟨long, gap, _, newlines, whole, rest.joined⟩

/-- Every text is cut into pieces, as each cut leaves a shorter one. -/
theorem exists_pieces (large : 100 < maxMessageLength) (text : List Char) :
    ∃ pieces, Pieces maxMessageLength text pieces := by
  induction size : text.length using Nat.strong_induction_on generalizing text with
  | _ n ih =>
    subst size
    by_cases long : text.length > maxMessageLength
    · obtain ⟨pieces, rest⟩ := ih _ (rest_shorter large long) _ rfl
      exact ⟨_, rest.cut large long rfl⟩
    · exact ⟨_, pieces_whole long⟩

/-- A text is split as it should be just when it need not be cut at the newline it starts with. -/
theorem splits_iff (large : 100 < maxMessageLength) (text : List Char) :
    (∃ messages, Splits maxMessageLength text messages) ↔ Cuttable maxMessageLength text := by
  obtain ⟨pieces, cuts⟩ := exists_pieces large text
  have returns : Returns maxMessageLength text pieces :=
    ⟨text.length + 1, fun fuel enough => cuts.runs fuel enough []⟩
  constructor
  · rintro ⟨messages, splits⟩
    obtain rfl := splits.returns.unique returns
    exact cuts.filled.mp splits.nonempty
  · intro cuttable
    exact ⟨pieces, returns, cuts.filled.mpr cuttable, cuts.short, cuts.joined⟩

/-- Behind a newline come 101 letters. -/
def newlineFirst : List Char := '\n' :: List.replicate 101 'a'

theorem newlineFirst_returns : Returns 101 newlineFirst [[], List.replicate 101 'a'] := by
  refine ⟨2, fun fuel enough => ?_⟩
  obtain ⟨fuel, rfl⟩ := Nat.exists_eq_add_of_le enough
  rw [Nat.add_comm]
  rfl

/-- The text is cut at the newline, before which there is nothing. -/
theorem newline_first : ¬ ∀ (maxMessageLength : ℤ) (text : List Char), 100 < maxMessageLength →
    ∃ messages, Splits maxMessageLength text messages := by
  intro right
  obtain ⟨messages, splits⟩ := right 101 newlineFirst (by decide)
  obtain rfl := splits.returns.unique newlineFirst_returns
  exact splits.nonempty [] List.mem_cons_self rfl

/-- Two lines, of which the second is too long. -/
def twoLines : List Char := List.replicate 5 'a' ++ '\n' :: List.replicate 120 'b'

/-- They are cut at the newline, and the second again behind its first ten letters. -/
theorem splits_twice :
    splitLoop 110 3 twoLines [] =
      some [List.replicate 5 'a', List.replicate 10 'b', List.replicate 110 'b'] ∧
      ∃ messages, Splits 110 twoLines messages :=
  ⟨by decide +kernel, (splits_iff (by decide) twoLines).mpr fun _ first => absurd first (by decide)⟩

end Loop

end BTrader.Bot
