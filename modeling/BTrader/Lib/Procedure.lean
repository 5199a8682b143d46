import Mathlib

/-! Procedures that may throw and keep the state they reached, as a C++ function
does. `EStateM` is the semantics; a caller embeds a callee that works on a part
of its own state. -/
namespace Procedure

variable {ε σ τ α β : Type}

@[simp] theorem pure_apply (a : α) (s : σ) : (pure a : EStateM ε σ α) s = .ok a s := rfl

@[simp] theorem throw_apply (e : ε) (s : σ) : (throw e : EStateM ε σ α) s = .error e s := rfl

@[simp] theorem get_apply (s : σ) : (get : EStateM ε σ σ) s = .ok s s := rfl

@[simp] theorem set_apply (s t : σ) : (set t : EStateM ε σ PUnit) s = .ok ⟨⟩ t := rfl

@[simp] theorem modify_apply (f : σ → σ) (s : σ) :
    (modify f : EStateM ε σ PUnit) s = .ok ⟨⟩ (f s) := rfl

@[simp] theorem bind_apply (x : EStateM ε σ α) (f : α → EStateM ε σ β) (s : σ) :
    (x >>= f) s = match x s with
      | .ok a t => f a t
      | .error e t => .error e t := rfl

@[simp] theorem map_apply (f : α → β) (x : EStateM ε σ α) (s : σ) :
    (f <$> x) s = match x s with
      | .ok a t => .ok (f a) t
      | .error e t => .error e t := rfl

theorem branch_apply (p : Prop) [Decidable p] (x y : EStateM ε σ α) (s : σ) :
    (if p then x else y) s = if p then x s else y s := apply_ite (fun z => z s) p x y

theorem bind_ok {x : EStateM ε σ α} (ran : x s = .ok a t) (f : α → EStateM ε σ β) :
    (x >>= f) s = f a t := by
  change EStateM.bind x f s = f a t
  simp only [EStateM.bind, ran]

theorem of_bind_ok {x : EStateM ε σ α} {f : α → EStateM ε σ β} (ran : (x >>= f) s = .ok b u) :
    ∃ a t, x s = .ok a t ∧ f a t = .ok b u := by
  cases first : x s with
  | ok a t => exact ⟨a, t, rfl, by rwa [bind_apply, first] at ran⟩
  | error e t =>
    rw [bind_apply, first] at ran
    contradiction

theorem bind_error {x : EStateM ε σ α} (ran : x s = .error e t) (f : α → EStateM ε σ β) :
    (x >>= f) s = .error e t := by
  change EStateM.bind x f s = .error e t
  simp only [EStateM.bind, ran]

/-- Two states a procedure does not tell apart are not told apart by what follows. -/
theorem bind_same {x : EStateM ε σ α} (same : x s = x t) (f : α → EStateM ε σ β) :
    (x >>= f) s = (x >>= f) t := by
  simp only [bind_apply, same]

/-- Run a procedure on the part `get` of the state, putting back what it left
there also when it throws. -/
def zoom (get : σ → τ) (put : σ → τ → σ) (x : EStateM ε τ α) : EStateM ε σ α := fun s =>
  match x (get s) with
  | .ok a t => .ok a (put s t)
  | .error e t => .error e (put s t)

theorem zoom_ok {get : σ → τ} {put : σ → τ → σ} {x : EStateM ε τ α}
    (ran : x (get s) = .ok a t) : zoom get put x s = .ok a (put s t) := by
  simp only [zoom, ran]

theorem zoom_error {get : σ → τ} {put : σ → τ → σ} {x : EStateM ε τ α}
    (ran : x (get s) = .error e t) : zoom get put x s = .error e (put s t) := by
  simp only [zoom, ran]

/-- The first component of a pair. -/
def onFst (x : EStateM ε τ α) : EStateM ε (τ × σ) α :=
  zoom Prod.fst (fun s t => (t, s.2)) x

theorem onFst_ok {x : EStateM ε τ α} (ran : x t = .ok a u) :
    onFst x ((t, s) : τ × σ) = .ok a (u, s) := zoom_ok ran

/-- The second component of a pair. -/
def onSnd (x : EStateM ε τ α) : EStateM ε (σ × τ) α :=
  zoom Prod.snd (fun s t => (s.1, t)) x

theorem onSnd_ok {x : EStateM ε τ α} (ran : x t = .ok a u) :
    onSnd x ((s, t) : σ × τ) = .ok a (s, u) := zoom_ok ran

theorem onSnd_error {x : EStateM ε τ α} (ran : x t = .error e u) :
    onSnd x ((s, t) : σ × τ) = .error e (s, u) := zoom_error ran

theorem of_onSnd_ok {x : EStateM ε τ α} (ran : onSnd x ((s, t) : σ × τ) = .ok a (s', u)) :
    s' = s ∧ x t = .ok a u := by
  cases inner : x t with
  | ok b v =>
    rw [onSnd_ok inner, EStateM.Result.ok.injEq, Prod.mk.injEq] at ran
    obtain ⟨rfl, rfl, rfl⟩ := ran
    exact ⟨rfl, rfl⟩
  | error e v =>
    rw [onSnd_error inner] at ran
    contradiction

/-- The state a procedure leaves, returning or throwing. -/
def after (x : EStateM ε σ α) (s : σ) : σ :=
  match x s with
  | .ok _ t => t
  | .error _ t => t

theorem after_congr {x y : EStateM ε σ α} (same : x s = y t) : after x s = after y t := by
  simp only [after, same]

theorem after_ignore (x : EStateM ε σ α) (b : β) (s : σ) :
    after (x >>= fun _ => pure b) s = after x s := by
  simp only [after, bind_apply]
  cases x s <;> rfl

/-- A state property that survives the procedure, returning or throwing. -/
def Keeps (P : σ → Prop) (x : EStateM ε σ α) : Prop := ∀ s, P s → P (after x s)

theorem Keeps.ok {P : σ → Prop} {x : EStateM ε σ α} (keeps : Keeps P x) (holds : P s)
    (ran : x s = .ok a t) : P t := by
  have kept := keeps s holds
  rwa [after, ran] at kept

theorem keeps_pure {P : σ → Prop} (a : α) : Keeps P (pure a : EStateM ε σ α) := fun _ holds => holds

theorem keeps_throw {P : σ → Prop} (e : ε) : Keeps P (throw e : EStateM ε σ α) :=
  fun _ holds => holds

theorem keeps_get {P : σ → Prop} : Keeps P (get : EStateM ε σ σ) := fun _ holds => holds

theorem keeps_modify {P : σ → Prop} {f : σ → σ} (kept : ∀ s, P s → P (f s)) :
    Keeps P (modify f : EStateM ε σ PUnit) := kept

theorem keeps_bind {P : σ → Prop} {x : EStateM ε σ α} {f : α → EStateM ε σ β} (first : Keeps P x)
    (second : ∀ a, Keeps P (f a)) : Keeps P (x >>= f) := by
  intro s holds
  have mid := first s holds
  cases ran : x s with
  | ok a t =>
    rw [after, ran] at mid
    rw [after, bind_ok ran]
    exact second a t mid
  | error e t =>
    rw [after, ran] at mid
    rw [after, bind_error ran]
    exact mid

theorem after_zoom {get : σ → τ} {put : σ → τ → σ} (x : EStateM ε τ α) (s : σ) :
    after (zoom get put x) s = put s (after x (get s)) := by
  cases ran : x (get s) <;> simp only [after, zoom, ran]

theorem keeps_zoom {P : σ → Prop} {Q : τ → Prop} {get : σ → τ} {put : σ → τ → σ}
    {x : EStateM ε τ α} (keeps : Keeps Q x) (enters : ∀ s, P s → Q (get s))
    (leaves : ∀ s t, P s → Q t → P (put s t)) : Keeps P (zoom get put x) := by
  intro s holds
  rw [after_zoom]
  exact leaves s _ holds (keeps _ (enters s holds))

/-- What is known of the first component is kept. -/
theorem keeps_onSnd {P : σ → Prop} (x : EStateM ε τ α) :
    Keeps (fun s : σ × τ => P s.1) (onSnd x) :=
  keeps_zoom (Q := fun _ => True) (fun _ _ => trivial) (fun _ _ => trivial) fun _ _ holds _ => holds

theorem keeps_branch {P : σ → Prop} {x y : EStateM ε σ α} (p : Prop) [Decidable p]
    (first : Keeps P x) (second : Keeps P y) : Keeps P (if p then x else y) := by
  by_cases holds : p
  · simpa only [if_pos holds] using first
  · simpa only [if_neg holds] using second

theorem keeps_forM {P : σ → Prop} {f : α → EStateM ε σ PUnit} (each : ∀ a, Keeps P (f a))
    (as : List α) :
    Keeps P (as.forM f) := by
  induction as with
  | nil => exact keeps_pure _
  | cons a as ih => exact keeps_bind (each a) fun _ => ih

end Procedure
