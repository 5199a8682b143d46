import Mathlib

/-! Maps set up from a list, one entry after the other, under keys computed from the
elements: an element with the key of an earlier one takes its entry. -/
namespace Keyed

variable {α κ β : Type*} [DecidableEq κ] (key : α → κ) (val : α → β)

def put (map : κ → Option β) (a : α) : κ → Option β := Function.update map (key a) (some (val a))

/-- The map after the elements of the list. -/
def ofList (l : List α) : κ → Option β := l.foldl (put key val) fun _ => none

variable {key val}

theorem ofList_snoc (l : List α) (a : α) :
    ofList key val (l ++ [a]) = Function.update (ofList key val l) (key a) (some (val a)) := by
  rw [ofList, List.foldl_append]
  rfl

theorem ofList_absent {l : List α} {k : κ} (absent : k ∉ l.map key) :
    ofList key val l k = none := by
  induction l using List.reverseRecOn with
  | nil => rfl
  | append_singleton l last ih =>
    rw [List.map_append, List.mem_append, not_or] at absent
    have other : k ≠ key last := fun same => absent.2 (List.mem_singleton.mpr same)
    rw [ofList_snoc, Function.update_of_ne other]
    exact ih absent.1

/-- The entry of an element is its own when all elements with its key have the same. -/
theorem ofList_get {l : List α} {a : α} (member : a ∈ l)
    (agree : ∀ b ∈ l, key b = key a → val b = val a) :
    ofList key val l (key a) = some (val a) := by
  induction l using List.reverseRecOn with
  | nil => contradiction
  | append_singleton l last ih =>
    rw [ofList_snoc]
    by_cases here : key last = key a
    · have same := agree last (by simp) here
      rw [← here, Function.update_self, same]
    · have earlier : a ∈ l := by
        rcases List.mem_append.mp member with earlier | now
        · exact earlier
        · exact absurd (congrArg key (List.mem_singleton.mp now)).symm here
      rw [Function.update_of_ne (Ne.symm here)]
      exact ih earlier fun b inside => agree b (List.mem_append_left _ inside)

theorem ofList_get_of_nodup {l : List α} (distinct : (l.map key).Nodup) {a : α} (member : a ∈ l) :
    ofList key val l (key a) = some (val a) :=
  ofList_get member fun b inside same => by
    have equal := List.inj_on_of_nodup_map distinct inside member same
    rw [equal]

end Keyed
