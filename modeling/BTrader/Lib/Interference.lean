import BTrader.Lib.Interleaving

/-! A program of atomic actions that runs while another party takes the steps of a list. An
interleaving of the two is the list of turns: how many of the steps come before each
action. -/
namespace Interleaving.Prog

variable {ε σ τ α β : Type}

def advance (steps : List (σ → σ)) (s : σ) : σ := steps.foldl (fun s step => step s) s

@[simp] theorem advance_nil (s : σ) : advance [] s = s := rfl

theorem advance_append (first second : List (σ → σ)) (s : σ) :
    advance (first ++ second) s = advance second (advance first s) := List.foldl_append

/-- Some steps, and then some more. -/
theorem advance_take_drop (steps : List (σ → σ)) (m n : Nat) (s : σ) :
    advance ((steps.drop m).take n) (advance (steps.take m) s) =
      advance (steps.take (m + n)) s := by
  rw [← advance_append, ← List.take_add]

theorem advance_keeps {I : σ → Prop} {steps : List (σ → σ)}
    (kept : ∀ step ∈ steps, ∀ s, I s → I (step s)) (holds : I s) : I (advance steps s) := by
  induction steps generalizing s with
  | nil => exact holds
  | cons step steps ih =>
    exact ih (fun later member => kept later (List.mem_cons_of_mem _ member))
      (kept step List.mem_cons_self s holds)

/-- Steps that are left over after the last action are not taken. -/
def runUnder (t : τ) : Prog ε σ τ α → List Nat → List (σ → σ) → σ → EStateM.Result ε σ α
  | done a, _, _, s => .ok a s
  | act x next, turns, steps, s =>
    match x t (advance (steps.take turns.headI) s) with
    | .ok b s' => (next b).runUnder t turns.tail (steps.drop turns.headI) s'
    | .error e s' => .error e s'

/-- The program with nobody else there. -/
def alone (t : τ) : Prog ε σ τ α → EStateM ε σ α
  | done a => pure a
  | act x next => x t >>= fun b => (next b).alone t

variable {p : Prog ε σ τ α} {f : α → Prog ε σ τ β} {t : τ} {a : α} {s : σ} {steps : List (σ → σ)}

theorem runUnder_lift (x : EStateM ε σ α) (f : α → Prog ε σ τ β) (turns : List Nat)
    (steps : List (σ → σ)) (s : σ) :
    (lift x >>= f).runUnder t turns steps s =
      match x (advance (steps.take turns.headI) s) with
      | .ok b s' => (f b).runUnder t turns.tail (steps.drop turns.headI) s'
      | .error e s' => .error e s' := by
  change (act (fun _ => x) f : Prog ε σ τ β).runUnder t turns steps s = _
  rw [runUnder]

@[simp] theorem alone_pure (a : α) : (pure a : Prog ε σ τ α).alone t = pure a := rfl

@[simp] theorem alone_lift_bind (x : EStateM ε σ α) (f : α → Prog ε σ τ β) :
    (lift x >>= f).alone t = x >>= fun b => (f b).alone t := rfl

theorem alone_bind (p : Prog ε σ τ α) (f : α → Prog ε σ τ β) :
    (p >>= f).alone t = p.alone t >>= fun a => (f a).alone t := by
  induction p with
  | done a => rfl
  | act x next ih =>
    change (x t >>= fun b => (next b >>= f).alone t) = (x t >>= fun b => (next b).alone t) >>= _
    rw [bind_assoc]
    exact congrArg (x t >>= ·) (funext ih)

/-- Once the other party has finished, the program runs as it does alone. -/
theorem runUnder_nil (p : Prog ε σ τ α) (turns : List Nat) (s : σ) :
    p.runUnder t turns [] s = p.alone t s := by
  induction p generalizing turns s with
  | done a => rfl
  | act x next ih =>
    rw [runUnder, List.take_nil, List.drop_nil, advance_nil, alone]
    change _ = EStateM.bind (x t) _ s
    rw [EStateM.bind]
    cases x t s with
    | ok b s' => exact ih b turns.tail s'
    | error e s' => rfl

/-- In every state with the property each action returns one and the same value and changes
nothing, and these lead the program to `a`. -/
def Steady (t : τ) (I : σ → Prop) : Prog ε σ τ α → α → Prop
  | done b, a => b = a
  | act x next, a => ∃ b, (∀ s, I s → x t s = .ok b s) ∧ (next b).Steady t I a

theorem Steady.bind {I : σ → Prop} {b : β} (first : p.Steady t I a) (second : (f a).Steady t I b) :
    (p >>= f).Steady t I b := by
  induction p with
  | done a' =>
    obtain rfl : a' = a := first
    exact second
  | act x next ih =>
    obtain ⟨c, same, rest⟩ := first
    exact ⟨c, same, ih c rest⟩

theorem Steady.lift {I : σ → Prop} {x : EStateM ε σ α} (same : ∀ s, I s → x s = .ok a s) :
    (Prog.lift x : Prog ε σ τ α).Steady t I a := ⟨a, same, rfl⟩

/-- An action for its effect alone. -/
theorem Steady.check {I : σ → Prop} {x : EStateM ε σ PUnit} {f : PUnit → Prog ε σ τ β} {b : β}
    (same : ∀ s, I s → x s = .ok ⟨⟩ s) (rest : (f ⟨⟩).Steady t I b) :
      (Prog.lift x >>= f).Steady t I b :=
  ⟨⟨⟩, same, rest⟩

theorem Steady.alone {I : σ → Prop} (steady : p.Steady t I a) (holds : I s) :
    p.alone t s = .ok a s := by
  induction p with
  | done b =>
    obtain rfl : b = a := steady
    rfl
  | act x next ih =>
    obtain ⟨b, same, rest⟩ := steady
    change EStateM.bind (x t) _ s = _
    rw [EStateM.bind, same s holds]
    exact ih b rest

/-- Steps that keep the property do not disturb a steady program. -/
theorem Steady.runUnder {I : σ → Prop} (steady : p.Steady t I a)
    (kept : ∀ step ∈ steps, ∀ s, I s → I (step s)) (holds : I s) (turns : List Nat) :
    ∃ s', p.runUnder t turns steps s = .ok a s' := by
  induction p generalizing turns steps s with
  | done b =>
    obtain rfl : b = a := steady
    exact ⟨s, rfl⟩
  | act x next ih =>
    obtain ⟨b, same, rest⟩ := steady
    have taken : I (advance (steps.take turns.headI) s) :=
      advance_keeps (fun step member => kept step (List.mem_of_mem_take member)) holds
    obtain ⟨s', ran⟩ :=
      ih b rest (fun step member => kept step (List.mem_of_mem_drop member)) taken turns.tail
    refine ⟨s', ?_⟩
    rw [Prog.runUnder, same _ taken]
    exact ran

end Interleaving.Prog
