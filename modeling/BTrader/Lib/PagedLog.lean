import Mathlib

/-! An append-only log cut into pages of the same room. An entry that does not fit
behind the entries of the last page seals that page and opens the next one. -/

structure PagedLog (α σ : Type) where
  closed : List (List α × σ)
  current : List α

namespace PagedLog

variable {α σ : Type} {size : α → Nat} {room : Nat}

def empty : PagedLog α σ := ⟨[], []⟩

/-- The entries in append order. -/
def contents (log : PagedLog α σ) : List α := log.closed.flatMap Prod.fst ++ log.current

/-- The pages in order, each with its entries. -/
def pages (log : PagedLog α σ) : List (List α) := log.closed.map Prod.fst ++ [log.current]

theorem pages_closed {log : PagedLog α σ} {i : Nat} (page : log.closed[i]? = some (xs, mark)) :
    log.pages[i]? = some xs := by
  have bound := (List.getElem?_eq_some_iff.mp page).1
  rw [pages, List.getElem?_append_left (by simpa using bound), List.getElem?_map, page]
  rfl

@[simp] theorem pages_length (log : PagedLog α σ) : log.pages.length = log.closed.length + 1 := by
  simp [pages]

def used (size : α → Nat) (xs : List α) : Nat := (xs.map size).sum

def Fits (size : α → Nat) (room : Nat) (log : PagedLog α σ) (x : α) : Prop :=
  used size log.current + size x < room

instance (log : PagedLog α σ) (x : α) : Decidable (Fits size room log x) :=
  inferInstanceAs (Decidable (_ < _))

def append (size : α → Nat) (room : Nat) (log : PagedLog α σ) (x : α) (mark : σ) : PagedLog α σ :=
  if Fits size room log x then ⟨log.closed, log.current ++ [x]⟩
  else ⟨log.closed ++ [(log.current, mark)], [x]⟩

def appendAll (size : α → Nat) (room : Nat) (log : PagedLog α σ) (xs : List (α × σ)) :
    PagedLog α σ :=
  xs.foldl (fun log x => log.append size room x.1 x.2) log

@[simp] theorem contents_empty : (empty : PagedLog α σ).contents = [] := rfl

@[simp] theorem used_nil : used size [] = 0 := rfl

@[simp] theorem used_append (xs ys : List α) :
    used size (xs ++ ys) = used size xs + used size ys := by
  simp [used]

@[simp] theorem used_singleton (x : α) : used size [x] = size x := by
  simp [used]

theorem append_of_fits {log : PagedLog α σ} (fits : Fits size room log x) (mark : σ) :
    log.append size room x mark = ⟨log.closed, log.current ++ [x]⟩ := if_pos fits

theorem append_of_not_fits {log : PagedLog α σ} (full : ¬ Fits size room log x) (mark : σ) :
    log.append size room x mark = ⟨log.closed ++ [(log.current, mark)], [x]⟩ := if_neg full

@[simp] theorem contents_append (log : PagedLog α σ) (x : α) (mark : σ) :
    (log.append size room x mark).contents = log.contents ++ [x] := by
  by_cases fits : Fits size room log x
  · simp [append_of_fits fits, contents]
  · simp [append_of_not_fits fits, contents]

theorem contents_pages (log : PagedLog α σ) : log.pages.flatten = log.contents := by
  simp [pages, contents, List.flatMap_def]

@[simp] theorem appendAll_nil (log : PagedLog α σ) : log.appendAll size room [] = log := rfl

@[simp] theorem appendAll_cons (log : PagedLog α σ) (x : α × σ) (xs : List (α × σ)) :
    log.appendAll size room (x :: xs) = (log.append size room x.1 x.2).appendAll size room xs := rfl

theorem appendAll_append (log : PagedLog α σ) (xs ys : List (α × σ)) :
    log.appendAll size room (xs ++ ys) = (log.appendAll size room xs).appendAll size room ys :=
  List.foldl_append

theorem contents_appendAll (log : PagedLog α σ) (xs : List (α × σ)) :
    (log.appendAll size room xs).contents = log.contents ++ xs.map Prod.fst := by
  induction xs generalizing log with
  | nil => simp
  | cons x xs ih => simp [ih]

/-- The entry appended last is on the last page. -/
theorem current_append_ne_nil (log : PagedLog α σ) (x : α) (mark : σ) :
    (log.append size room x mark).current ≠ [] := by
  by_cases fits : Fits size room log x
  · simp [append_of_fits fits]
  · simp [append_of_not_fits fits]

theorem current_appendAll_ne_nil (log : PagedLog α σ) {xs : List (α × σ)} (some : xs ≠ []) :
    (log.appendAll size room xs).current ≠ [] := by
  rw [← List.dropLast_concat_getLast some, appendAll_append]
  exact current_append_ne_nil _ _ _

/-- Every page keeps within the room. -/
structure Bounded (size : α → Nat) (room : Nat) (log : PagedLog α σ) : Prop where
  closed : ∀ page ∈ log.closed, used size page.1 < room
  current : used size log.current < room

theorem Bounded.empty (positive : 0 < room) : Bounded size room (empty : PagedLog α σ) :=
  ⟨by simp [PagedLog.empty], positive⟩

theorem Bounded.append {log : PagedLog α σ} (bounded : Bounded size room log)
    (small : size x < room) (mark : σ) : Bounded size room (log.append size room x mark) := by
  by_cases fits : Fits size room log x
  · rw [append_of_fits fits]
    exact ⟨bounded.closed, by simpa [Fits] using fits⟩
  · rw [append_of_not_fits fits]
    refine ⟨?_, by simpa using small⟩
    intro page member
    rcases List.mem_append.mp member with member | member
    · exact bounded.closed page member
    · rw [List.mem_singleton.mp member]
      exact bounded.current

theorem Bounded.page {log : PagedLog α σ} (bounded : Bounded size room log) {page : List α}
    (member : page ∈ log.pages) : used size page < room := by
  rw [pages, List.mem_append, List.mem_map, List.mem_singleton] at member
  rcases member with ⟨entry, closed, rfl⟩ | rfl
  · exact bounded.closed entry closed
  · exact bounded.current

/-- A page that was closed stays as it is. -/
theorem closed_prefix_append (log : PagedLog α σ) (x : α) (mark : σ) :
    log.closed <+: (log.append size room x mark).closed := by
  by_cases fits : Fits size room log x
  · have kept : (log.append size room x mark).closed = log.closed := by rw [append_of_fits fits]
    exact kept ▸ List.prefix_refl _
  · rw [append_of_not_fits fits]
    exact List.prefix_append _ _

theorem closed_prefix_appendAll (log : PagedLog α σ) (xs : List (α × σ)) :
    log.closed <+: (log.appendAll size room xs).closed := by
  induction xs generalizing log with
  | nil => exact List.prefix_refl _
  | cons x xs ih => exact (closed_prefix_append log x.1 x.2).trans (ih _)

/-- No page is closed exactly when all entries fit the first page. -/
theorem appendAll_one_page {log : PagedLog α σ} (one : log.closed = [])
    (bounded : used size log.current < room) {xs : List (α × σ)} :
    (log.appendAll size room xs).closed = [] ↔
      used size log.current + used size (xs.map Prod.fst) < room := by
  induction xs generalizing log with
  | nil => simp [one, bounded]
  | cons x xs ih =>
    by_cases fits : Fits size room log x.1
    · have room' : used size (log.current ++ [x.1]) < room := by simpa [Fits] using fits
      have rest :
          ((⟨log.closed, log.current ++ [x.1]⟩ : PagedLog α σ).appendAll size room xs).closed = [] ↔
          used size (log.current ++ [x.1]) + used size (xs.map Prod.fst) < room := ih one room'
      rw [appendAll_cons, append_of_fits fits, rest]
      simp [used, Nat.add_assoc]
    · rw [appendAll_cons, append_of_not_fits fits]
      let sealed' : PagedLog α σ := ⟨log.closed ++ [(log.current, x.2)], [x.1]⟩
      have closed : sealed'.closed <+: (sealed'.appendAll size room xs).closed :=
        closed_prefix_appendAll sealed' xs
      constructor
      · intro none
        rw [none] at closed
        simp [sealed'] at closed
      · intro total
        simp only [Fits, List.map_cons, used, List.sum_cons] at fits total
        omega

/-- A page that is there stays in place; at most entries are added to it. -/
theorem pages_append {log : PagedLog α σ} {i : Nat} (page : log.pages[i]? = some xs)
    (x : α) (mark : σ) :
    ∃ more, (log.append size room x mark).pages[i]? = some (xs ++ more) := by
  have bound := (List.getElem?_eq_some_iff.mp page).1
  simp only [pages, List.length_append, List.length_map, List.length_singleton] at bound
  by_cases fits : Fits size room log x
  · rw [append_of_fits fits]
    by_cases last : i = log.closed.length
    · subst last
      obtain rfl : log.current = xs := by simpa [pages] using page
      exact ⟨[x], by simp [pages]⟩
    · refine ⟨[], ?_⟩
      rw [pages, List.getElem?_append_left (by simp; omega)] at page
      rw [List.append_nil, pages, List.getElem?_append_left (by simp; omega), page]
  · refine ⟨[], ?_⟩
    have extended : (log.append size room x mark).pages = log.pages ++ [[x]] := by
      rw [append_of_not_fits fits]
      simp [pages]
    rw [extended, List.append_nil, List.getElem?_append_left (by simp [pages]; omega), page]

theorem pages_appendAll {log : PagedLog α σ} {i : Nat} (page : log.pages[i]? = some xs)
    (entries : List (α × σ)) :
    ∃ more, (log.appendAll size room entries).pages[i]? = some (xs ++ more) := by
  induction entries generalizing log xs with
  | nil => exact ⟨[], by simpa using page⟩
  | cons x entries ih =>
    obtain ⟨more, page⟩ := pages_append page x.1 x.2
    obtain ⟨rest, page⟩ := ih page
    exact ⟨more ++ rest, by simpa using page⟩

/-- No page is left without entries once there is a second one. -/
structure Filled (log : PagedLog α σ) : Prop where
  closed : ∀ page ∈ log.closed, page.1 ≠ []
  current : log.closed ≠ [] → log.current ≠ []

theorem Filled.empty : Filled (empty : PagedLog α σ) :=
  ⟨by simp [PagedLog.empty], by simp [PagedLog.empty]⟩

theorem Filled.append {log : PagedLog α σ} (filled : Filled log)
    (small : size x < room) (mark : σ) :
    Filled (log.append size room x mark) := by
  refine ⟨?_, fun _ => current_append_ne_nil log x mark⟩
  by_cases fits : Fits size room log x
  · rw [append_of_fits fits]
    exact filled.closed
  · rw [append_of_not_fits fits]
    intro page member
    rcases List.mem_append.mp member with old | new
    · exact filled.closed page old
    · rw [List.mem_singleton.mp new]
      rintro (nothing : log.current = [])
      rw [Fits, nothing, used_nil] at fits
      omega

theorem Filled.appendAll {log : PagedLog α σ} (filled : Filled log) {entries : List (α × σ)}
    (small : ∀ entry ∈ entries, size entry.1 < room) :
      Filled (log.appendAll size room entries) := by
  induction entries generalizing log with
  | nil => exact filled
  | cons x entries ih =>
    exact ih (filled.append (small x List.mem_cons_self) x.2)
      fun entry member => small entry (List.mem_cons_of_mem _ member)

theorem Filled.page {log : PagedLog α σ} {page : List α} (filled : Filled log)
    (more : log.closed ≠ []) (member : page ∈ log.pages) : page ≠ [] := by
  rw [pages, List.mem_append, List.mem_map, List.mem_singleton] at member
  rcases member with ⟨entry, closed, rfl⟩ | rfl
  · exact filled.closed entry closed
  · exact filled.current more

/-- The page after a closed one begins with an entry. -/
theorem Filled.next {log : PagedLog α σ} (filled : Filled log) (inner : k < log.closed.length) :
    ∃ x xs, log.pages[k + 1]? = some (x :: xs) := by
  have bound : k + 1 < log.pages.length := by
    rw [pages_length]
    omega
  have page := List.getElem?_eq_getElem bound
  obtain ⟨x, xs, split⟩ := List.exists_cons_of_ne_nil
    (filled.page (List.ne_nil_of_length_pos (by omega)) (List.mem_of_getElem? page))
  exact ⟨x, xs, by rw [page, split]⟩

/-! Where a log goes on, computed from the sizes of the entries alone. -/

/-- Behind `index` entries of the page, which take `used`. -/
structure Cursor where
  page : Nat
  index : Nat
  used : Nat
  deriving DecidableEq, Repr

def cursor (size : α → Nat) (log : PagedLog α σ) : Cursor :=
  ⟨log.closed.length, log.current.length, used size log.current⟩

namespace Cursor

/-- Where an entry of size `n` goes. -/
def place (room : Nat) (c : Cursor) (n : Nat) : Cursor :=
  if c.used + n < room then c else ⟨c.page + 1, 0, 0⟩

/-- The cursor behind an entry of size `n` placed at it. -/
def pass (c : Cursor) (n : Nat) : Cursor := ⟨c.page, c.index + 1, c.used + n⟩

/-- The places of entries appended one after another. -/
def places (room : Nat) : Cursor → List Nat → List Cursor
  | _, [] => []
  | c, n :: ns => c.place room n :: places room ((c.place room n).pass n) ns

variable {c d : Cursor} {n : Nat} {ns : List Nat}

theorem place_fits (fits : c.used + n < room) : c.place room n = c := if_pos fits

theorem place_full (full : ¬ c.used + n < room) : c.place room n = ⟨c.page + 1, 0, 0⟩ := if_neg full

/-- Places that agree in both numbers modulo `m`. -/
def Congruent (c : Cursor) (m : Nat) (d : Cursor) : Prop :=
  c.page % m = d.page % m ∧ c.index % m = d.index % m

instance (m : Nat) (c d : Cursor) : Decidable (Congruent c m d) :=
  inferInstanceAs (Decidable (_ ∧ _))

/-- Entries of one size in one page. -/
theorem places_replicate (k : Nat) (fits : c.used + k * n < room) :
    places room c (List.replicate k n) =
      (List.range k).map fun i => ⟨c.page, c.index + i, c.used + i * n⟩ := by
  induction k generalizing c with
  | zero => rfl
  | succ k ih =>
    have total : c.used + n + k * n < room := by linarith
    have here : c.place room n = c := place_fits (by omega)
    rw [List.replicate_succ, places, here, ih total, List.range_succ_eq_map,
      List.map_cons, List.map_map]
    simp only [pass, Nat.add_zero, Nat.zero_mul, List.cons.injEq, true_and]
    refine List.map_congr_left fun i _ => ?_
    simp only [Function.comp_apply, Nat.succ_eq_add_one, Cursor.mk.injEq, true_and]
    constructor <;> ring

end Cursor

theorem cursor_append (log : PagedLog α σ) (x : α) (mark : σ) :
    (log.append size room x mark).cursor size =
      ((log.cursor size).place room (size x)).pass (size x) := by
  by_cases fits : Fits size room log x
  · have here : (log.cursor size).place room (size x) = log.cursor size :=
      Cursor.place_fits fits
    rw [append_of_fits fits, here]
    simp [cursor, Cursor.pass]
  · have next : (log.cursor size).place room (size x) = ⟨log.closed.length + 1, 0, 0⟩ :=
      Cursor.place_full fits
    rw [append_of_not_fits fits, next]
    simp [cursor, Cursor.pass]

/-- The entry at a place. -/
def entryAt (log : PagedLog α σ) (place : Cursor) : Option α :=
  log.pages[place.page]?.bind fun page => page[place.index]?

/-- Entries keep their places. -/
theorem entryAt_append {log : PagedLog α σ} {place : Cursor} (entry : log.entryAt place = some y)
    (x : α) (mark : σ) :
    (log.append size room x mark).entryAt place = some y := by
  obtain ⟨page, found, here⟩ := Option.bind_eq_some_iff.mp entry
  have kept : ∃ more, (log.append size room x mark).pages[place.page]? = some (page ++ more) :=
    pages_append found x mark
  obtain ⟨more, found'⟩ := kept
  rw [entryAt, found', Option.bind_some]
  rw [List.getElem?_append_left (List.getElem?_eq_some_iff.mp here).1]
  exact here

/-- The entry that is appended gets the place of the cursor. -/
theorem entryAt_appended (log : PagedLog α σ) (x : α) (mark : σ) :
    (log.append size room x mark).entryAt ((log.cursor size).place room (size x)) = some x := by
  by_cases fits : Fits size room log x
  · rw [append_of_fits fits, Cursor.place_fits fits]
    simp [entryAt, pages, cursor]
  · rw [append_of_not_fits fits, Cursor.place_full fits]
    simp [entryAt, pages, cursor]

end PagedLog
