import Mathlib

/-! Ordered merge of a finite family of sequences. `pick` is one pass over the
heads with a running bound; a merge that always takes a head picked this way
delivers every sequence in its own order and all of them in time order. -/
namespace OrderedMerge

variable {κ τ α : Type}

section Pick
variable [LE τ] [DecidableLE τ]

/-- The last of the earliest heads that are not after `bound`; `chosen` when there
is none. -/
def pick : List (κ × Option τ) → τ → Option κ → Option κ
  | [], _, chosen => chosen
  | (_, none) :: rest, bound, chosen => pick rest bound chosen
  | (k, some t) :: rest, bound, chosen =>
    if t ≤ bound then pick rest t (some k) else pick rest bound chosen

/-- An earliest head. -/
def Earliest (heads : List (κ × Option τ)) (k : κ) (t : τ) : Prop :=
  (k, some t) ∈ heads ∧ ∀ k' t', (k', some t') ∈ heads → t ≤ t'

theorem pick_spec [Std.IsLinearPreorder τ] (heads : List (κ × Option τ)) (bound : τ)
    (chosen : Option κ) :
    (∃ k t, pick heads bound chosen = some k ∧ Earliest heads k t ∧ t ≤ bound) ∨
    (pick heads bound chosen = chosen ∧ ∀ k t, (k, some t) ∈ heads → ¬ t ≤ bound) := by
  induction heads generalizing bound chosen with
  | nil => exact Or.inr ⟨rfl, by simp⟩
  | cons head rest ih =>
    obtain ⟨k, none | t⟩ := head
    · rcases ih bound chosen with ⟨k', t', picked, earliest, le⟩ | ⟨same, after⟩
      · refine Or.inl ⟨k', t', picked, ⟨List.mem_cons_of_mem _ earliest.1, ?_⟩, le⟩
        intro k'' t'' member
        exact earliest.2 k'' t'' (by simpa using member)
      · exact Or.inr ⟨same, fun k' t' member => after k' t' (by simpa using member)⟩
    by_cases le : t ≤ bound
    · have here : pick ((k, some t) :: rest) bound chosen = pick rest t (some k) := if_pos le
      rw [here]
      left
      rcases ih t (some k) with ⟨k', t', picked, earliest, le'⟩ | ⟨same, after⟩
      · refine ⟨k', t', picked, ⟨List.mem_cons_of_mem _ earliest.1, ?_⟩, Std.le_trans le' le⟩
        intro k'' t'' member
        rcases List.mem_cons.mp member with head | member
        · obtain ⟨rfl, rfl⟩ : k'' = k ∧ t'' = t := by simpa using head
          exact le'
        · exact earliest.2 k'' t'' member
      · refine ⟨k, t, same, ⟨List.mem_cons_self, ?_⟩, le⟩
        intro k'' t'' member
        rcases List.mem_cons.mp member with head | member
        · obtain ⟨rfl, rfl⟩ : k'' = k ∧ t'' = t := by simpa using head
          exact Std.le_refl _
        · exact Std.le_total.resolve_right (after k'' t'' member)
    · have here : pick ((k, some t) :: rest) bound chosen = pick rest bound chosen := if_neg le
      rw [here]
      rcases ih bound chosen with ⟨k', t', picked, earliest, le'⟩ | ⟨same, after⟩
      · refine Or.inl ⟨k', t', picked, ⟨List.mem_cons_of_mem _ earliest.1, ?_⟩, le'⟩
        intro k'' t'' member
        rcases List.mem_cons.mp member with head | member
        · obtain ⟨rfl, rfl⟩ : k'' = k ∧ t'' = t := by simpa using head
          exact Std.le_trans le' (Std.le_total.resolve_right le)
        · exact earliest.2 k'' t'' member
      · refine Or.inr ⟨same, ?_⟩
        intro k'' t'' member
        rcases List.mem_cons.mp member with head | member
        · obtain ⟨rfl, rfl⟩ : k'' = k ∧ t'' = t := by simpa using head
          exact le
        · exact after k'' t'' member

/-- When no head is after the bound, one is picked as soon as there is one. -/
theorem pick_earliest [Std.IsLinearPreorder τ] {heads : List (κ × Option τ)} {bound : τ}
    (behind : ∀ k t, (k, some t) ∈ heads → t ≤ bound) (chosen : Option κ)
    (present : (k, some t) ∈ heads) :
    ∃ k t, pick heads bound chosen = some k ∧ Earliest heads k t := by
  rcases pick_spec heads bound chosen with ⟨k', t', picked, earliest, _⟩ | ⟨_, after⟩
  · exact ⟨k', t', picked, earliest⟩
  · exact absurd (behind k t present) (after k t present)

theorem pick_empty {heads : List (κ × Option τ)}
    (empty : ∀ head ∈ heads, head.2 = none) (bound : τ) (chosen : Option κ) :
    pick heads bound chosen = chosen := by
  induction heads with
  | nil => rfl
  | cons head rest ih =>
    obtain ⟨k, t⟩ := head
    obtain rfl : t = none := empty (k, t) List.mem_cons_self
    exact ih (fun other member => empty other (List.mem_cons_of_mem _ member))

end Pick

section Narrowing
variable [LE τ]

/-- A pass over sequences that grow at their ends meanwhile: `there` were the entries when it
began, `now` are. Either nothing was there in those that it has looked at, or what it has chosen
is in front: no entry that was there is earlier, and none in a sequence behind is as early. -/
def Narrowed (time : α → τ) (there now : κ → List α) (looked : List κ) (bound : τ)
    (chosen : Option κ) : Prop :=
  ((∀ k ∈ looked, there k = []) ∧ ∀ k, ∀ x ∈ there k, time x ≤ bound) ∨
  ∃ before k behind x rest, looked = before ++ k :: behind ∧ chosen = some k ∧ now k = x :: rest ∧
    time x = bound ∧ (∀ d ∈ looked, ∀ y ∈ there d, bound ≤ time y) ∧
    ∀ d ∈ behind, ∀ y ∈ there d, ¬ time y ≤ bound

namespace Narrowed
variable {time : α → τ} {there now now' : κ → List α} {looked : List κ} {bound : τ}
    {chosen : Option κ}

theorem start (past : ∀ k, ∀ x ∈ there k, time x ≤ bound) (chosen : Option κ) :
    Narrowed time there now [] bound chosen :=
  Or.inl ⟨by simp, past⟩

theorem grows (narrowed : Narrowed time there now looked bound chosen)
    (longer : ∀ k ∈ looked, now k <+: now' k) : Narrowed time there now' looked bound chosen := by
  rcases narrowed with none | ⟨before, k, behind, x, rest, split, picked, front, others⟩
  · exact Or.inl none
  · obtain ⟨more, same⟩ := longer k (by simp [split])
    exact Or.inr ⟨before, k, behind, x, rest ++ more, split, picked,
      by rw [← same, front]; rfl, others⟩

variable [Std.IsLinearPreorder τ] {k : κ} {x : α} {rest : List α}

/-- The front of a sequence is not after what was there. -/
theorem front_le (kept : there k <+: now k) (sorted : (now k).Pairwise fun x y => time x ≤ time y)
    (front : now k = x :: rest) : ∀ y ∈ there k, time x ≤ time y := by
  intro y member
  have inside := kept.subset member
  rw [front] at inside sorted
  rcases List.mem_cons.mp inside with rfl | later
  · exact Std.le_refl _
  · exact (List.pairwise_cons.mp sorted).1 y later

/-- The front of the next sequence is not after the bound. -/
theorem takes (narrowed : Narrowed time there now looked bound chosen) (kept : there k <+: now k)
    (sorted : (now k).Pairwise fun x y => time x ≤ time y) (front : now k = x :: rest)
    (early : time x ≤ bound) :
    Narrowed time there now (looked ++ [k]) (time x) (some k) := by
  refine Or.inr ⟨looked, k, [], x, rest, rfl, rfl, front, rfl, fun d member y was => ?_, by simp⟩
  rcases List.mem_append.mp member with old | new
  · rcases narrowed with ⟨none, _⟩ | ⟨_, _, _, _, _, _, _, _, _, least, _⟩
    · rw [none d old] at was
      contradiction
    · exact Std.le_trans early (least d old y was)
  · obtain rfl := List.mem_singleton.mp new
    exact front_le kept sorted front y was

/-- The next sequence is empty, or its front is after the bound. -/
theorem passes (narrowed : Narrowed time there now looked bound chosen) (kept : there k <+: now k)
    (sorted : (now k).Pairwise fun x y => time x ≤ time y)
    (late : ∀ x ∈ (now k).head?, ¬ time x ≤ bound) :
    Narrowed time there now (looked ++ [k]) bound chosen := by
  have after : ∀ y ∈ there k, ¬ time y ≤ bound := by
    intro y was early
    obtain ⟨x, rest, front⟩ := List.exists_cons_of_ne_nil (List.ne_nil_of_mem (kept.subset was))
    exact late x (by simp [front]) (Std.le_trans (front_le kept sorted front y was) early)
  rcases narrowed with ⟨none, past⟩ | ⟨before, c, behind, x, rest, split, picked, front,
    same, least, last⟩
  · refine Or.inl ⟨fun d member => ?_, past⟩
    rcases List.mem_append.mp member with old | new
    · exact none d old
    · obtain rfl := List.mem_singleton.mp new
      exact List.eq_nil_iff_forall_not_mem.mpr fun y was => after y was (past d y was)
  · refine Or.inr ⟨before, c, behind ++ [k], x, rest, by simp [split], picked, front, same,
      fun d member y was => ?_, fun d member y was => ?_⟩
    · rcases List.mem_append.mp member with old | new
      · exact least d old y was
      · obtain rfl := List.mem_singleton.mp new
        exact Std.le_total.resolve_left (after y was)
    · rcases List.mem_append.mp member with old | new
      · exact last d old y was
      · obtain rfl := List.mem_singleton.mp new
        exact after y was

omit [Std.IsLinearPreorder τ] in
/-- When the pass is over, nothing that was there is before the front of what it has chosen, and
what is as early is not behind. -/
theorem first [DecidableEq κ] (narrowed : Narrowed time there now looked bound (some k))
    (distinct : looked.Nodup)
    (front : now k = x :: rest) {d : κ} (member : d ∈ looked) {y : α} (was : y ∈ there d) :
    time x ≤ time y ∧ (time y ≤ time x → looked.idxOf d ≤ looked.idxOf k) := by
  rcases narrowed with ⟨none, _⟩ | ⟨before, k', behind, x', rest', split, picked, front',
    same, least, last⟩
  · rw [none d member] at was
    contradiction
  · cases picked
    obtain ⟨rfl, _⟩ := List.cons.inj (front.symm.trans front')
    rw [same]
    refine ⟨least d member y was, fun tied => ?_⟩
    subst split
    have here : k ∉ before :=
      fun inside => (List.nodup_append.mp distinct).2.2 k inside k List.mem_cons_self rfl
    rw [List.idxOf_append_of_notMem here, List.idxOf_cons_self]
    rcases List.mem_append.mp member with ahead | inside
    · rw [List.idxOf_append_of_mem ahead]
      exact (List.idxOf_lt_length_of_mem ahead).le
    · rcases List.mem_cons.mp inside with rfl | later
      · rw [List.idxOf_append_of_notMem here, List.idxOf_cons_self]
      · exact absurd tied (last d later y was)

end Narrowed
end Narrowing

section Delivery
variable [DecidableEq κ]

/-- The entries of one sequence among the delivered ones. -/
def deliveredOf (k : κ) (out : List (κ × α)) : List α :=
  (out.filter fun d => d.1 = k).map Prod.snd

theorem deliveredOf_concat (k : κ) (out : List (κ × α)) (d : κ × α) :
    deliveredOf k (out ++ [d]) = deliveredOf k out ++ if d.1 = k then [d.2] else [] := by
  by_cases same : d.1 = k <;> simp [deliveredOf, same]

variable [LE τ]

/-- A merge in progress: what is delivered and what is pending. -/
structure Progress (time : α → τ) (keys : List κ) (all pending : κ → List α)
    (out : List (κ × α)) : Prop where
  known : ∀ d ∈ out, d.1 ∈ keys
  split : ∀ k ∈ keys, deliveredOf k out ++ pending k = all k
  ordered : out.Pairwise fun d e => time d.2 ≤ time e.2
  later : ∀ d ∈ out, ∀ k ∈ keys, ∀ x ∈ pending k, time d.2 ≤ time x

theorem Progress.start (time : α → τ) (keys : List κ) (all : κ → List α) :
    Progress time keys all all [] :=
  ⟨by simp, fun _ _ => rfl, .nil, by simp⟩

/-- Delivering an earliest head. -/
theorem Progress.deliver [Std.IsLinearPreorder τ] {time : α → τ} {keys : List κ}
    {all pending : κ → List α} {out : List (κ × α)}
    (progress : Progress time keys all pending out)
    (sorted : ∀ k ∈ keys, (all k).Pairwise fun x y => time x ≤ time y)
    (known : k ∈ keys) (head : pending k = x :: rest)
    (earliest : ∀ k' ∈ keys, ∀ y ∈ (pending k').head?, time x ≤ time y) :
    Progress time keys all (Function.update pending k rest) (out ++ [(k, x)]) := by
  have pendingSorted (k' : κ) (member : k' ∈ keys) :
      (pending k').Pairwise fun x y => time x ≤ time y := by
    have whole := sorted k' member
    rw [← progress.split k' member, List.pairwise_append] at whole
    exact whole.2.1
  -- the head is not after anything that is still pending
  have first : ∀ k' ∈ keys, ∀ y ∈ pending k', time x ≤ time y := by
    intro k' member y present
    have order := pendingSorted k' member
    have head' := earliest k' member
    cases list : pending k' with
    | nil => simp [list] at present
    | cons z zs =>
      rw [list] at present order head'
      have le := head' z (by simp)
      rcases List.mem_cons.mp present with rfl | inside
      · exact le
      · exact Std.le_trans le ((List.pairwise_cons.mp order).1 y inside)
  have stays : ∀ k' ∈ keys, ∀ y ∈ Function.update pending k rest k', y ∈ pending k' := by
    intro k' _ y present
    by_cases same : k' = k
    · subst same
      rw [Function.update_self] at present
      rw [head]
      exact List.mem_cons_of_mem _ present
    · rwa [Function.update_of_ne same] at present
  refine ⟨?_, ?_, ?_, ?_⟩
  · intro d member
    rcases List.mem_append.mp member with old | new
    · exact progress.known d old
    · rw [List.mem_singleton.mp new]
      exact known
  · intro k' member
    have split := progress.split k' member
    rw [deliveredOf_concat]
    by_cases same : k = k'
    · subst same
      rw [if_pos rfl, Function.update_self, List.append_assoc, List.singleton_append, ← head, split]
    · rw [if_neg same, List.append_nil, Function.update_of_ne (Ne.symm same), split]
  · rw [List.pairwise_append]
    refine ⟨progress.ordered, List.pairwise_singleton _ _, ?_⟩
    intro d old e new
    rw [List.mem_singleton.mp new]
    exact progress.later d old k known x (by rw [head]; exact List.mem_cons_self)
  · intro d member k' known' y present
    have pendingNow := stays k' known' y present
    rcases List.mem_append.mp member with old | new
    · exact progress.later d old k' known' y pendingNow
    · rw [List.mem_singleton.mp new]
      exact first k' known' y pendingNow

/-- A merge that has delivered every sequence whole and in its own order, all of them in
time order. -/
structure Complete (time : α → τ) (keys : List κ) (all : κ → List α)
    (out : List (κ × α)) : Prop where
  known : ∀ d ∈ out, d.1 ∈ keys
  whole : ∀ k ∈ keys, deliveredOf k out = all k
  ordered : out.Pairwise fun d e => time d.2 ≤ time e.2

theorem Progress.complete {time : α → τ} {keys : List κ} {all pending : κ → List α}
    {out : List (κ × α)} (progress : Progress time keys all pending out)
    (drained : ∀ k ∈ keys, pending k = []) : Complete time keys all out := by
  refine ⟨progress.known, ?_, progress.ordered⟩
  intro k member
  have split := progress.split k member
  rwa [drained k member, List.append_nil] at split

end Delivery

section Remaining

/-- How many entries are pending. -/
def remaining (keys : List κ) (pending : κ → List α) : Nat :=
  (keys.map fun k => (pending k).length).sum

theorem remaining_congr {keys : List κ} {pending pending' : κ → List α}
    (same : ∀ k ∈ keys, pending k = pending' k) :
      remaining keys pending = remaining keys pending' := by
  rw [remaining, remaining, List.map_congr_left (fun k member => by rw [same k member])]

/-- A delivery leaves one entry less. -/
theorem remaining_deliver [DecidableEq κ] {keys : List κ} {pending : κ → List α}
    (distinct : keys.Nodup) (known : k ∈ keys) (head : pending k = x :: rest) :
    remaining keys (Function.update pending k rest) + 1 = remaining keys pending := by
  induction keys with
  | nil => simp at known
  | cons k' keys ih =>
    rw [List.nodup_cons] at distinct
    simp only [remaining, List.map_cons, List.sum_cons]
    by_cases same : k = k'
    · subst same
      have others : remaining keys (Function.update pending k rest) = remaining keys pending := by
        apply remaining_congr
        intro k' member
        rw [Function.update_of_ne]
        rintro rfl
        exact distinct.1 member
      simp only [remaining] at others
      rw [others, Function.update_self, head, List.length_cons]
      omega
    · have rest' := ih distinct.2 ((List.mem_cons.mp known).resolve_left same)
      simp only [remaining] at rest'
      rw [Function.update_of_ne (Ne.symm same)]
      omega

end Remaining

end OrderedMerge
