import Mathlib

/-! Runs of a deterministic machine, and properties of every state they visit. -/
namespace Runs

variable {σ α : Type*} (act : σ → α → σ)

/-- The states a run visits, the first one included. -/
def states (s : σ) : List α → List σ
  | [] => [s]
  | a :: as => s :: states (act s a) as

/-- The actions of a run, each with the state it is taken in. -/
def moves (s : σ) : List α → List (σ × α)
  | [] => []
  | a :: as => (s, a) :: moves (act s a) as

variable {act} {inv property : σ → Prop} {enabled exact : σ → α → Prop}

theorem start_mem (s : σ) (as : List α) : s ∈ states act s as := by
  cases as <;> exact List.mem_cons_self

theorem states_concat (s : σ) (as : List α) (a : α) :
    states act s (as ++ [a]) = states act s as ++ [act (as.foldl act s) a] := by
  induction as generalizing s with
  | nil => rfl
  | cons b as ih => exact congrArg (s :: ·) (ih (act s b))

/-- The states before and after a move are states of the run. -/
theorem moves_states (s : σ) (as : List α) :
    ∀ move ∈ moves act s as, move.1 ∈ states act s as ∧ act move.1 move.2 ∈ states act s as := by
  induction as generalizing s with
  | nil => simp [moves]
  | cons a as ih =>
    intro move member
    rcases List.mem_cons.mp member with rfl | later
    · exact ⟨List.mem_cons_self, List.mem_cons_of_mem _ (start_mem _ as)⟩
    · have inside := ih (act s a) move later
      exact ⟨List.mem_cons_of_mem _ inside.1, List.mem_cons_of_mem _ inside.2⟩

theorem moves_actions (s : σ) (as : List α) : ∀ move ∈ moves act s as, move.2 ∈ as := by
  induction as generalizing s with
  | nil => simp [moves]
  | cons a as ih =>
    intro move member
    rcases List.mem_cons.mp member with rfl | later
    · exact List.mem_cons_self
    · exact List.mem_cons_of_mem _ (ih (act s a) move later)

/-- The moves of a machine that sees a part of the state. -/
theorem moves_map {τ : Type*} {part : σ → τ} {act' : τ → α → τ}
    (sees : ∀ s a, part (act s a) = act' (part s) a) (s : σ) (as : List α) :
      moves act' (part s) as = (moves act s as).map fun move => (part move.1, move.2) := by
  induction as generalizing s with
  | nil => rfl
  | cons a as ih =>
    rw [moves, moves, List.map_cons, ← ih, sees]

theorem moves_append (s : σ) (as bs : List α) :
    moves act s (as ++ bs) = moves act s as ++ moves act (as.foldl act s) bs := by
  induction as generalizing s with
  | nil => rfl
  | cons a as ih => exact congrArg ((s, a) :: ·) (ih (act s a))

theorem foldl_mem_states (s : σ) (as bs : List α) : as.foldl act s ∈ states act s (as ++ bs) := by
  induction as generalizing s with
  | nil => exact start_mem s bs
  | cons a as ih => exact List.mem_cons_of_mem _ (ih (act s a))

theorem invariant (kept : ∀ s a, inv s → enabled s a → inv (act s a))
    (started : inv s) (as : List α)
    (allowed : ∀ move ∈ moves act s as, enabled move.1 move.2) : ∀ t ∈ states act s as, inv t := by
  induction as generalizing s with
  | nil =>
    intro t member
    rwa [List.mem_singleton.mp member]
  | cons a as ih =>
    have first := allowed (s, a) List.mem_cons_self
    intro t member
    rcases List.mem_cons.mp member with rfl | later
    · exact started
    · exact ih (kept s a started first)
        (fun move member => allowed move (List.mem_cons_of_mem _ member)) t later

/-- A run ends in one of its states. -/
theorem last_mem (s : σ) (as : List α) : as.foldl act s ∈ states act s as := by
  have last : as.foldl act s ∈ states act s (as ++ []) := foldl_mem_states s as []
  rwa [List.append_nil] at last

/-- What a run puts out, where each action puts out one thing or nothing. -/
theorem outputs {β : Type*} {out : σ → List β} {emit : σ → α → Option β}
    (kept : ∀ s a, inv s → inv (act s a))
    (adds : ∀ s a, inv s → out (act s a) = out s ++ (emit s a).toList) (started : inv s)
    (as : List α) :
    out (as.foldl act s) = out s ++ (moves act s as).filterMap fun move => emit move.1 move.2 := by
  induction as generalizing s with
  | nil => simp [moves]
  | cons a as ih =>
    rw [List.foldl_cons, ih (kept s a started), adds s a started, List.append_assoc]
    cases emitted : emit s a with
    | none => simp [moves, emitted]
    | some x => simp [moves, emitted]

/-- Where a condition on the moves tells exactly when a property survives, a run has the
property in every state just when it has it at the start and every move meets the condition. -/
theorem states_iff (kept : ∀ s a, inv s → enabled s a → inv (act s a))
    (survives : ∀ s a, inv s → enabled s a → property s → (property (act s a) ↔ exact s a))
    (started : inv s) (first : property s) (as : List α)
    (allowed : ∀ move ∈ moves act s as, enabled move.1 move.2) :
    (∀ t ∈ states act s as, property t) ↔ ∀ move ∈ moves act s as, exact move.1 move.2 := by
  induction as generalizing s with
  | nil => simp [states, moves, first]
  | cons a as ih =>
    have able := allowed (s, a) List.mem_cons_self
    have step := survives s a started able first
    have rest := ih (kept s a started able)
    have later := fun move member => allowed move (List.mem_cons_of_mem (s, a) member)
    simp only [states, moves, List.forall_mem_cons, first, true_and]
    constructor
    · intro all
      have next : property (act s a) := all _ (start_mem _ as)
      exact ⟨step.mp next, (rest next later).mp all⟩
    · rintro ⟨now, all⟩
      exact (rest (step.mpr now) later).mpr all

/-- Where each action keeps a property just under a condition, and never brings it back, a run
ends with it just when it had it at the start and every action met the condition. -/
theorem final_iff (kept : ∀ s a, inv s → inv (act s a))
    (survives : ∀ s a, inv s → (property (act s a) ↔ property s ∧ exact s a)) (started : inv s)
    (as : List α) :
    property (as.foldl act s) ↔ property s ∧ ∀ move ∈ moves act s as, exact move.1 move.2 := by
  induction as generalizing s with
  | nil => simp [moves]
  | cons a as ih =>
    rw [List.foldl_cons, ih (kept s a started), survives s a started, moves,
      List.forall_mem_cons, and_assoc]

section Prefixes
variable (property : List α → Prop) {allowed : List α → Prop} {exact : List α → α → Prop}

/-- As `states_iff`, for what each action says of all those before it. -/
theorem prefixes_iff (closed : ∀ as a, allowed (as ++ [a]) → allowed as)
    (survives : ∀ as a, allowed (as ++ [a]) → property as → (property (as ++ [a]) ↔ exact as a))
    (first : property []) (as : List α) (able : allowed as) :
    (∀ before, before <+: as → property before) ↔ ∀ before a, before ++ [a] <+: as →
      exact before a := by
  induction as using List.reverseRecOn with
  | nil =>
    refine iff_of_true (fun before empty => ?_) (fun before a empty => ?_)
    · rwa [List.prefix_nil.mp empty]
    · simp at empty
  | append_singleton as a ih =>
    have earlier := ih (closed as a able)
    constructor
    · intro all
      have before := earlier.mp fun p inside => all p (inside.trans (List.prefix_append as [a]))
      intro p b inside
      rcases List.prefix_concat_iff.mp inside with whole | inside
      · obtain ⟨rfl, rfl⟩ := List.append_inj' whole rfl |>.imp id List.singleton_inj.mp
        exact (survives p b able (all p (List.prefix_append p [b]))).mp (all _ (List.prefix_refl _))
      · exact before p b inside
    · intro each
      have before :=
        earlier.mpr fun p b inside => each p b (inside.trans (List.prefix_append as [a]))
      intro p inside
      rcases List.prefix_concat_iff.mp inside with rfl | inside
      · exact (survives as a able (before as (List.prefix_refl as))).mpr
          (each as a (List.prefix_refl _))
      · exact before p inside

end Prefixes

/-- As `states_iff`, for a relation that says what the next state may be. -/
theorem chain_iff {step exact : σ → σ → Prop} (kept : ∀ s t, inv s → step s t → inv t)
    (survives : ∀ s t, inv s → step s t → property s → (property t ↔ exact s t)) (started : inv s)
    (first : property s) (ts : List σ) (run : List.IsChain step (s :: ts)) :
    (∀ t ∈ s :: ts, property t) ↔ List.IsChain exact (s :: ts) := by
  induction ts generalizing s with
  | nil => simp [first]
  | cons t ts ih =>
    obtain ⟨now, later⟩ := List.isChain_cons_cons.mp run
    have rest := fun holds => ih (kept s t started now) holds later
    rw [List.forall_mem_cons, List.isChain_cons_cons]
    constructor
    · rintro ⟨_, all⟩
      have next : property t := all t List.mem_cons_self
      exact ⟨(survives s t started now first).mp next, (rest next).mp all⟩
    · rintro ⟨exactly, all⟩
      exact ⟨first, (rest ((survives s t started now first).mpr exactly)).mpr all⟩

end Runs
