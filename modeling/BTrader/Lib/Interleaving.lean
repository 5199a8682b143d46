import BTrader.Lib.Procedure

/-! Threads that share a state and take turns in atomic actions. Each call looks at the state,
checks what it saw, takes the one lock when it is free and runs a program under it, whose last
action gives the lock back. An action may read the time, which never goes back. -/
namespace Interleaving
open Procedure

inductive Prog (ε σ τ α : Type) : Type 1 where
  | done (a : α)
  | act {β : Type} (x : τ → EStateM ε σ β) (next : β → Prog ε σ τ α)

namespace Prog

variable {ε σ ρ τ α β : Type}

def bind : Prog ε σ τ α → (α → Prog ε σ τ β) → Prog ε σ τ β
  | done a, f => f a
  | act x next, f => act x fun b => (next b).bind f

/-- One action that does not look at the time. -/
def lift (x : EStateM ε σ α) : Prog ε σ τ α := act (fun _ => x) done

/-- One action on the first part of the state. -/
def onFst (x : EStateM ε σ α) : Prog ε (σ × ρ) τ α := lift (Procedure.onFst x)

/-- One action that reads the time. -/
def reading (clock : τ → α) : Prog ε σ τ α := act (fun t => pure (clock t)) done

instance : Monad (Prog ε σ τ) where
  pure := done
  bind := bind

theorem bind_done (p : Prog ε σ τ α) : p >>= done = p := by
  induction p with
  | done a => rfl
  | act x next ih => exact congrArg (act x) (funext ih)

theorem bind_bind {γ : Type} (p : Prog ε σ τ α) (f : α → Prog ε σ τ β) (g : β → Prog ε σ τ γ) :
    (p >>= f) >>= g = p >>= fun a => f a >>= g := by
  induction p with
  | done a => rfl
  | act x next ih => exact congrArg (act x) (funext ih)

/-- The states a program passes through when it runs alone at one time. -/
def trail (t : τ) : Prog ε σ τ α → σ → List σ
  | done _, s => [s]
  | act x next, s => s :: match x t s with
    | .ok b s' => (next b).trail t s'
    | .error _ s' => [s']

theorem trail_act {γ : Type} {x : τ → EStateM ε σ γ} {next : γ → Prog ε σ τ α} {b : γ}
    {t : τ} {s s' : σ} (ran : x t s = .ok b s') :
    (act x next).trail t s = s :: (next b).trail t s' := by
  rw [Prog.trail, ran]

theorem trail_starts (p : Prog ε σ τ α) (t : τ) (s : σ) : ∃ late, p.trail t s = s :: late := by
  cases p with
  | done a => exact ⟨[], rfl⟩
  | act x next => exact ⟨_, by rw [Prog.trail]⟩

variable [Preorder τ] (busy : σ → Prop)

/-- Whenever the actions are taken from now on, none of them fails, the state is busy before
each of them, and what is left behind satisfies `post`. -/
def Leads : Prog ε σ τ α → (α → τ → σ → Prop) → τ → σ → Prop
  | done a, post, t, s => ∀ u, t ≤ u → post a u s
  | act x next, post, t, s =>
    busy s ∧ ∀ u, t ≤ u → ∃ b s', x u s = .ok b s' ∧ (next b).Leads post u s'

variable {busy} {p : Prog ε σ τ α} {f : α → Prog ε σ τ β} {post : α → τ → σ → Prop}
  {post' : β → τ → σ → Prop} {t u : τ} {s s' : σ}

theorem Leads.later (leads : p.Leads busy post t s) (later : t ≤ u) : p.Leads busy post u s := by
  cases p with
  | done a => exact fun v after => leads v (later.trans after)
  | act x next => exact ⟨leads.1, fun v after => leads.2 v (later.trans after)⟩

theorem Leads.imp {weaker : α → τ → σ → Prop} (leads : p.Leads busy post t s)
    (implies : ∀ a u s, t ≤ u → post a u s → weaker a u s) : p.Leads busy weaker t s := by
  induction p generalizing t s with
  | done a => exact fun v after => implies a v s after (leads v after)
  | act x next ih =>
    refine ⟨leads.1, fun v after => ?_⟩
    obtain ⟨b, s', ran, rest⟩ := leads.2 v after
    exact ⟨b, s', ran, ih b rest fun a w s later => implies a w s (after.trans later)⟩

theorem Leads.bind (leads : p.Leads busy (fun a u s => (f a).Leads busy post' u s) t s) :
    (p >>= f).Leads busy post' t s := by
  induction p generalizing t s with
  | done a => exact leads t (le_refl t)
  | act x next ih =>
    refine ⟨leads.1, fun v after => ?_⟩
    obtain ⟨b, s', ran, rest⟩ := leads.2 v after
    exact ⟨b, s', ran, ih b rest⟩

/-- The first action succeeds, whatever the time, and the rest goes on. -/
theorem Leads.lift {x : EStateM ε σ α} (here : busy s) (ran : x s = .ok a s')
    (rest : (f a).Leads busy post' t s') : (Prog.lift x >>= f).Leads busy post' t s :=
  ⟨here, fun _ after => ⟨a, s', ran, rest.later after⟩⟩

theorem Leads.onFst {σ' : Type} {busy : σ' × ρ → Prop} {post' : β → τ → σ' × ρ → Prop}
    {s s' : σ'} {r : ρ}
    {x : EStateM ε σ' α} {f : α → Prog ε (σ' × ρ) τ β} (here : busy (s, r)) (ran : x s = .ok a s')
    (rest : (f a).Leads busy post' t (s', r)) : (Prog.onFst x >>= f).Leads busy post' t (s, r) :=
  .lift here (onFst_ok ran) rest

theorem Leads.reading {clock : τ → α} (here : busy s)
    (rest : ∀ u, t ≤ u → (f (clock u)).Leads busy post' u s) :
    (Prog.reading clock >>= f).Leads busy post' t s :=
  ⟨here, fun u after => ⟨clock u, s, rfl, rest u after⟩⟩

/-- The actions keep `before` until one of them makes the move, and from then on `after`. -/
def Turns (before after : σ → Prop) (move : σ → σ → Prop) (post : α → τ → σ → Prop) (t : τ) :
    Prog ε σ τ α → σ → Prop
  | done _, _ => False
  | act x next, s => before s ∧ ∃ b s', x t s = .ok b s' ∧
      (move s s' ∧ (next b).Leads after post t s' ∨ (next b).Turns before after move post t s')

theorem Leads.turns {before after : σ → Prop} {move : σ → σ → Prop}
    (leads : p.Leads before (fun a u s => (f a).Turns before after move post' u s) t s) :
    (p >>= f).Turns before after move post' t s := by
  induction p generalizing s with
  | done a => exact leads t (le_refl t)
  | act x next ih =>
    obtain ⟨b, s', ran, rest⟩ := leads.2 t (le_refl t)
    exact ⟨leads.1, b, s', ran, .inr (ih b rest)⟩

theorem Turns.lift {before after : σ → Prop} {move : σ → σ → Prop} {x : EStateM ε σ α}
    (here : before s) (ran : x s = .ok a s') (rest : (f a).Turns before after move post' t s') :
    (Prog.lift x >>= f).Turns before after move post' t s := ⟨here, a, s', ran, .inr rest⟩

/-- The action that makes the move. -/
theorem Turns.moves {before after : σ → Prop} {move : σ → σ → Prop} {x : EStateM ε σ α}
    (here : before s)
    (ran : x s = .ok a s') (moved : move s s') (rest : (f a).Leads after post' t s') :
    (Prog.lift x >>= f).Turns before after move post' t s := ⟨here, a, s', ran, .inl ⟨moved, rest⟩⟩

/-- A program that leads somewhere passes through busy states on its way. -/
theorem Leads.trail (leads : p.Leads busy post t s) :
    ∃ way a s', p.trail t s = way ++ [s'] ∧ (∀ r ∈ way, busy r) ∧ post a t s' := by
  induction p generalizing s with
  | done a => exact ⟨[], a, s, rfl, nofun, leads t (le_refl t)⟩
  | act x next ih =>
    obtain ⟨b, s', ran, rest⟩ := leads.2 t (le_refl t)
    obtain ⟨way, a, s'', passed, kept, ended⟩ := ih b rest
    exact ⟨s :: way, a, s'', by rw [trail_act ran, passed, List.cons_append],
      List.forall_mem_cons.mpr ⟨leads.1, kept⟩, ended⟩

/-- The states before the move, and those from it on. -/
theorem Turns.trail {before after : σ → Prop} {move : σ → σ → Prop}
    (turns : p.Turns before after move post t s) :
    ∃ early s₁ s₂ late, p.trail t s = early ++ s₁ :: s₂ :: late ∧ move s₁ s₂ ∧
      (∀ r ∈ early ++ [s₁], before r) ∧
      ∃ way a s', s₂ :: late = way ++ [s'] ∧ (∀ r ∈ way, after r) ∧ post a t s' := by
  induction p generalizing s with
  | done a => exact turns.elim
  | act x next ih =>
    obtain ⟨here, b, s', ran, ⟨moved, leads⟩ | later⟩ := turns
    · obtain ⟨way, a, s'', passed, kept, ended⟩ := leads.trail
      obtain ⟨late, start⟩ := (next b).trail_starts t s'
      refine ⟨[], s, s', late, ?_, moved, by simpa using here, way, a, s'',
        start ▸ passed, kept, ended⟩
      rw [trail_act ran, start, List.nil_append]
    · obtain ⟨early, s₁, s₂, late, passed, moved, kept, ended⟩ := ih b later
      refine ⟨s :: early, s₁, s₂, late, ?_, moved, List.forall_mem_cons.mpr ⟨here, kept⟩, ended⟩
      rw [trail_act ran, passed, List.cons_append]

end Prog

/-- The calls the threads make, and the lock. A call checks what it saw a moment before. -/
structure Calls (ε σ τ κ β α : Type) where
  allowed : κ → Prop
  look : κ → EStateM ε σ β
  check : κ → β → EStateM ε σ Unit
  body : κ → Prog ε σ τ α
  held : σ → Bool
  take : σ → σ

inductive Phase (ε σ τ κ β α : Type) : Type 1 where
  | idle
  | looked (call : κ) (seen : β)
  | waiting (call : κ)
  | inside (rest : Prog ε σ τ α)
  | stopped (e : ε)

/-- The call of a thread that has not got the lock yet. -/
def Phase.asked {ε σ τ κ β α : Type} : Phase ε σ τ κ β α → Option κ
  | looked call _ | waiting call => some call
  | idle | inside _ | stopped _ => none

/-- `taken` are the calls that took the lock, in that order, and `results` what the finished
ones returned. -/
structure Machine (ι ε σ τ κ β α : Type) : Type 1 where
  threads : ι → Phase ε σ τ κ β α
  shared : σ
  time : τ
  taken : List κ
  results : List α

variable {ι ε σ τ κ β α : Type} [DecidableEq ι]

namespace Machine

def start (ι : Type) {ε σ τ κ β α : Type} (s : σ) (t : τ) : Machine ι ε σ τ κ β α :=
  ⟨fun _ => .idle, s, t, [], []⟩

/-- The thread goes on with a program, or it is idle again. -/
def resume (m : Machine ι ε σ τ κ β α) (i : ι) (s : σ) : Prog ε σ τ α → Machine ι ε σ τ κ β α
  | .done a =>
    { m with
      threads := Function.update m.threads i .idle
      shared := s
      results := m.results ++ [a] }
  | .act x next =>
    { m with threads := Function.update m.threads i (.inside (.act x next)), shared := s }

end Machine

open Machine

section
variable {threads : ι → Phase ε σ τ κ β α} {phase : Phase ε σ τ κ β α}

theorem running_update (running : ∀ i e, threads i ≠ .stopped e) (i : ι)
    (goes : ∀ e, phase ≠ .stopped e) :
    ∀ j e, Function.update threads i phase j ≠ .stopped e :=
  (Function.forall_update_iff threads fun _ q => ∀ e, q ≠ .stopped e).mpr
    ⟨goes, fun j _ => running j⟩

theorem asked_update {P : κ → Prop} (asked : ∀ i, ∀ c ∈ (threads i).asked, P c) (i : ι)
    (goes : ∀ c ∈ phase.asked, P c) : ∀ j, ∀ c ∈ (Function.update threads i phase j).asked, P c :=
  (Function.forall_update_iff threads fun _ q => ∀ c ∈ q.asked, P c).mpr ⟨goes, fun j _ => asked j⟩

/-- A thread that was not inside before is inside only where it is put there. -/
theorem inside_update {i j : ι} {q : Prog ε σ τ α}
    (inside : Function.update threads i phase j = .inside q)
    (stays : ∀ p, phase ≠ .inside p) : threads j = .inside q := by
  by_cases here : j = i
  · rw [here, Function.update_self] at inside
    exact absurd inside (stays q)
  · rwa [Function.update_of_ne here] at inside

end


theorem resume_act (m : Machine ι ε σ τ κ β α) (i : ι) (s s' : σ) {γ : Type} (x : τ → EStateM ε σ γ)
    (next : γ → Prog ε σ τ α) (p : Prog ε σ τ α) :
    (m.resume i s (.act x next)).resume i s' p = m.resume i s' p := by
  cases p <;> simp [Machine.resume]

theorem resume_shared (m : Machine ι ε σ τ κ β α) (i : ι) (s : σ) (p : Prog ε σ τ α) :
    (m.resume i s p).shared = s := by
  cases p <;> rfl

theorem resume_other (m : Machine ι ε σ τ κ β α) {i j : ι} (s : σ) (p : Prog ε σ τ α)
    (other : j ≠ i) :
    (m.resume i s p).threads j = m.threads j := by
  cases p <;> exact Function.update_of_ne other _ _

variable [Preorder τ] (calls : Calls ε σ τ κ β α)

inductive Step : Machine ι ε σ τ κ β α → Machine ι ε σ τ κ β α → Prop where
  | tick {m} (t : τ) (later : m.time ≤ t) : Step m { m with time := t }
  | look {m} {i : ι} {call : κ} {seen : β} {s' : σ} (idle : m.threads i = .idle)
      (allowed : calls.allowed call)
      (ran : calls.look call m.shared = .ok seen s') :
      Step m { m with threads := Function.update m.threads i (.looked call seen), shared := s' }
  | miss {m} {i : ι} {call : κ} {e : ε} {s' : σ} (idle : m.threads i = .idle)
      (allowed : calls.allowed call)
      (ran : calls.look call m.shared = .error e s') :
      Step m { m with threads := Function.update m.threads i (.stopped e), shared := s' }
  | check {m} {i : ι} {call : κ} {seen : β} {s' : σ} (looked : m.threads i = .looked call seen)
      (ran : calls.check call seen m.shared = .ok ⟨⟩ s') :
      Step m { m with threads := Function.update m.threads i (.waiting call), shared := s' }
  | refuse {m} {i : ι} {call : κ} {seen : β} {e : ε} {s' : σ}
      (looked : m.threads i = .looked call seen)
      (ran : calls.check call seen m.shared = .error e s') :
      Step m { m with threads := Function.update m.threads i (.stopped e), shared := s' }
  | take {m} {i : ι} {call : κ} (waiting : m.threads i = .waiting call)
      (free : calls.held m.shared = false) :
      Step m ({ m with taken := m.taken ++ [call] }.resume i (calls.take m.shared)
        (calls.body call))
  | act {m} {i : ι} {γ : Type} {x : τ → EStateM ε σ γ} {next : γ → Prog ε σ τ α} {b : γ} {s' : σ}
      (inside : m.threads i = .inside (.act x next)) (ran : x m.time m.shared = .ok b s') :
      Step m (m.resume i s' (next b))
  | fail {m} {i : ι} {γ : Type} {x : τ → EStateM ε σ γ} {next : γ → Prog ε σ τ α} {e : ε} {s' : σ}
      (inside : m.threads i = .inside (.act x next)) (ran : x m.time m.shared = .error e s') :
      Step m { m with threads := Function.update m.threads i (.stopped e), shared := s' }

/-- A thread that fails takes the others with it. -/
inductive Reachable (start : Machine ι ε σ τ κ β α) : Machine ι ε σ τ κ β α → Prop where
  | start : Reachable start start
  | step {m m' : Machine ι ε σ τ κ β α} (before : Reachable start m)
      (running : ∀ i e, m.threads i ≠ .stopped e)
      (step : Step calls m m') : Reachable start m'

variable (stands : β → σ → Prop)

/-- A thread that makes its check in this step finds what it saw still there. -/
def Timely (m m' : Machine ι ε σ τ κ β α) : Prop :=
  ∀ i call seen, m.threads i = .looked call seen → m'.threads i ≠ .looked call seen →
    stands seen m.shared

variable {stands} in
omit [Preorder τ] in
/-- A step of one thread alone. -/
theorem Timely.of_other {m m' : Machine ι ε σ τ κ β α} (i : ι)
    (others : ∀ j, j ≠ i → m'.threads j = m.threads j)
    (own : ∀ call seen, m.threads i = .looked call seen → stands seen m.shared) :
      Timely stands m m' := by
  intro j call seen looked moved
  by_cases here : j = i
  · exact own call seen (here ▸ looked)
  · exact absurd ((others j here).trans looked) moved

/-- The runs whose steps are all timely. -/
inductive Steady (start : Machine ι ε σ τ κ β α) : Machine ι ε σ τ κ β α → Prop where
  | start : Steady start start
  | step {m m' : Machine ι ε σ τ κ β α} (before : Steady start m) (step : Step calls m m')
      (timely : Timely stands m m') : Steady start m'

/-- What the calls are known to do: `quiet` is the state between calls, after those that took
the lock so far. -/
structure Spec (busy : σ → Prop) (quiet : List κ → List α → τ → σ → Prop) : Prop where
  later {h r t u s} (still : quiet h r t s) (later : t ≤ u) : quiet h r u s
  held {s} (here : busy s) : calls.held s = true
  look {c h r t s} (allowed : calls.allowed c) (here : quiet h r t s ∨ busy s) :
    ∃ seen, calls.look c s = .ok seen s
  check {c seen h r t s} (allowed : calls.allowed c) (here : quiet h r t s ∨
    busy s) (still : stands seen s) :
    calls.check c seen s = .ok ⟨⟩ s
  gone {c seen s} (left : ¬ stands seen s) : ∃ e, calls.check c seen s = .error e s
  body {c h r t s} (allowed : calls.allowed c) (here : quiet h r t s) :
    (calls.body c).Leads busy (fun a u s' => quiet (h ++ [c]) (r ++ [a]) u s') t (calls.take s)

/-- No thread has failed, and either none is inside and the state is quiet, or exactly one is
and what it has still to do leads to a quiet state. -/
structure Serial (busy : σ → Prop) (quiet : List κ → List α → τ → σ → Prop)
    (m : Machine ι ε σ τ κ β α) : Prop where
  running : ∀ i e, m.threads i ≠ .stopped e
  asked : ∀ i, ∀ c ∈ (m.threads i).asked, calls.allowed c
  shared : (∀ i p, m.threads i ≠ .inside p) ∧ quiet m.taken m.results m.time m.shared ∨
    ∃ i p, m.threads i = .inside p ∧ (∀ j q, m.threads j = .inside q → j = i) ∧ busy m.shared ∧
      p.Leads busy (fun a u s => quiet m.taken (m.results ++ [a]) u s) m.time m.shared

variable {calls stands} {busy : σ → Prop} {quiet : List κ → List α → τ → σ → Prop}
  {m m' start : Machine ι ε σ τ κ β α}

omit [DecidableEq ι] in
theorem Serial.here (serial : Serial calls busy quiet m) :
    quiet m.taken m.results m.time m.shared ∨ busy m.shared := by
  rcases serial.shared with ⟨_, quiet⟩ | ⟨_, _, _, _, busy, _⟩
  · exact .inl quiet
  · exact .inr busy

/-- A thread that goes on alone with a program that leads to a quiet state. -/
theorem Serial.resume {i : ι} {p : Prog ε σ τ α} {s : σ} (running : ∀ i e, m.threads i ≠ .stopped e)
    (asked : ∀ i, ∀ c ∈ (m.threads i).asked, calls.allowed c)
    (alone : ∀ j q, m.threads j = .inside q → j = i)
    (leads : p.Leads busy (fun a u s => quiet m.taken (m.results ++ [a]) u s) m.time s) :
    Serial calls busy quiet (m.resume i s p) := by
  cases p with
  | done a =>
    refine ⟨running_update running i (fun _ => nofun), asked_update asked i nofun,
      .inl ⟨?_, leads _ (le_refl _)⟩⟩
    intro j q inside
    have idle : Function.update m.threads i .idle j = .inside q := inside
    rw [alone j q (inside_update idle fun _ => nofun), Function.update_self] at idle
    contradiction
  | act x next =>
    refine ⟨running_update running i (fun _ => nofun), asked_update asked i nofun,
      .inr ⟨i, .act x next, ?_, ?_, leads.1, leads⟩⟩
    · exact Function.update_self i _ m.threads
    · intro j q inside
      by_contra other
      have before : m.threads j = .inside q := (Function.update_of_ne other _ _).symm.trans inside
      exact other (alone j q before)

/-- A thread that stays outside the lock and leaves the state as it is. -/
theorem Serial.outside (serial : Serial calls busy quiet m) {i : ι} {phase : Phase ε σ τ κ β α}
    (outside : ∀ p, m.threads i ≠ .inside p) (running : ∀ e, phase ≠ .stopped e)
    (stays : ∀ p, phase ≠ .inside p) (asked : ∀ c ∈ phase.asked, calls.allowed c) :
    Serial calls busy quiet { m with threads := Function.update m.threads i phase } := by
  refine ⟨running_update serial.running i running, asked_update serial.asked i asked, ?_⟩
  rcases serial.shared with ⟨none, quiet⟩ | ⟨k, p, inside, alone, busy, leads⟩
  · exact .inl ⟨fun j q inside => none j q (inside_update inside stays), quiet⟩
  · have apart : k ≠ i := by
      rintro rfl
      exact outside p inside
    exact .inr ⟨k, p, (Function.update_of_ne apart _ _).trans inside,
      fun j q inside => alone j q (inside_update inside stays), busy, leads⟩

theorem Serial.step (spec : Spec calls stands busy quiet) (serial : Serial calls busy quiet m)
    (step : Step calls m m') (timely : Timely stands m m') : Serial calls busy quiet m' := by
  cases step with
  | tick t later =>
    refine ⟨serial.running, serial.asked, ?_⟩
    rcases serial.shared with ⟨none, quiet⟩ | ⟨i, p, inside, alone, busy, leads⟩
    · exact .inl ⟨none, spec.later quiet later⟩
    · exact .inr ⟨i, p, inside, alone, busy, leads.later later⟩
  | @look i call seen s' idle allowed ran =>
    obtain ⟨_, looked⟩ := spec.look allowed serial.here
    cases ran.symm.trans looked
    refine serial.outside (by simp [idle]) nofun nofun fun c same => ?_
    cases same
    exact allowed
  | @miss i call e s' idle allowed ran =>
    obtain ⟨_, looked⟩ := spec.look allowed serial.here
    cases ran.symm.trans looked
  | @check i call seen s' looked ran =>
    have allowed : calls.allowed call := serial.asked i call (by simp [looked, Phase.asked])
    have still : stands seen m.shared := timely i call seen looked (by simp)
    cases ran.symm.trans (spec.check allowed serial.here still)
    refine serial.outside (by simp [looked]) nofun nofun fun c same => ?_
    cases same
    exact allowed
  | @refuse i call seen e s' looked ran =>
    have allowed : calls.allowed call := serial.asked i call (by simp [looked, Phase.asked])
    have still : stands seen m.shared := timely i call seen looked (by simp)
    cases ran.symm.trans (spec.check allowed serial.here still)
  | @take i call waiting free =>
    have allowed : calls.allowed call := serial.asked i call (by simp [waiting, Phase.asked])
    rcases serial.shared with ⟨none, quiet⟩ | ⟨_, _, _, _, busy, _⟩
    · exact Serial.resume (m := { m with taken := m.taken ++ [call] }) serial.running serial.asked
        (fun j q inside => absurd inside (none j q)) (spec.body allowed quiet)
    · rw [spec.held busy] at free
      contradiction
  | @act i γ x next b s' inside ran =>
    rcases serial.shared with ⟨none, _⟩ | ⟨k, p, own, alone, busy, leads⟩
    · exact absurd inside (none i _)
    · obtain rfl := alone i _ inside
      cases own.symm.trans inside
      obtain ⟨b', s'', ran', rest⟩ := leads.2 m.time (le_refl _)
      cases ran.symm.trans ran'
      exact Serial.resume serial.running serial.asked alone rest
  | @fail i γ x next e s' inside ran =>
    rcases serial.shared with ⟨none, _⟩ | ⟨k, p, own, alone, busy, leads⟩
    · exact absurd inside (none i _)
    · obtain rfl := alone i _ inside
      cases own.symm.trans inside
      obtain ⟨b', s'', ran', _⟩ := leads.2 m.time (le_refl _)
      cases ran.symm.trans ran'

/-- However the threads take turns, as long as every check is timely the calls are as if made one
after another, in the order in which they took the lock. -/
theorem steady_serial (spec : Spec calls stands busy quiet) {s : σ} {t : τ}
    (started : quiet [] [] t s)
    (steady : Steady calls stands (.start ι s t) m) : Serial calls busy quiet m := by
  induction steady with
  | start => exact ⟨nofun, nofun, .inl ⟨nofun, started⟩⟩
  | step before step timely ih => exact ih.step spec step timely

/-- A check that is not timely fails. -/
theorem Step.stops (spec : Spec calls stands busy quiet) (step : Step calls m m')
    (late : ¬ Timely stands m m') :
    ∃ i e, m'.threads i = .stopped e := by
  obtain ⟨i, call, seen, looked, moved, left⟩ : ∃ i call seen, m.threads i = .looked call seen ∧
      m'.threads i ≠ .looked call seen ∧ ¬ stands seen m.shared := by
    simpa only [Timely, not_forall, exists_prop] using late
  obtain ⟨e', failed⟩ := spec.gone (c := call) left
  -- the step is one of this thread, since all others leave its phase alone
  have same {j : ι} {phase : Phase ε σ τ κ β α}
      (other : Function.update m.threads j phase i ≠ .looked call seen) :
      j = i := by
    by_contra apart
    exact other ((Function.update_of_ne (Ne.symm apart) _ _).trans looked)
  have resumed (n : Machine ι ε σ τ κ β α) (threads : n.threads = m.threads) {j : ι} {s : σ}
      {p : Prog ε σ τ α}
      (other : (n.resume j s p).threads i ≠ .looked call seen) : j = i := by
    by_contra apart
    rw [resume_other n s p (Ne.symm apart), threads] at other
    exact other looked
  cases step with
  | tick t later => exact absurd looked moved
  | look idle allowed ran =>
    cases same moved
    cases idle.symm.trans looked
  | miss idle allowed ran =>
    cases same moved
    cases idle.symm.trans looked
  | check looked' ran =>
    cases same moved
    cases looked'.symm.trans looked
    cases ran.symm.trans failed
  | @refuse j call' seen' e s' looked' ran => exact ⟨j, e, Function.update_self _ _ _⟩
  | @take j call' waiting free =>
    cases resumed { m with taken := m.taken ++ [call'] } rfl moved
    cases waiting.symm.trans looked
  | act inside ran =>
    cases resumed m rfl moved
    cases inside.symm.trans looked
  | @fail j γ x next e s' inside ran => exact ⟨j, e, Function.update_self _ _ _⟩

theorem Steady.reachable (spec : Spec calls stands busy quiet) {s : σ} {t : τ}
    (started : quiet [] [] t s)
    (steady : Steady calls stands (.start ι s t) m) : Reachable calls (.start ι s t) m := by
  induction steady with
  | start => exact .start
  | step before step timely ih => exact .step ih (steady_serial spec started before).running step

/-- A thread inside is let go on with a program that leads somewhere, and it gets there. -/
theorem Steady.runs {γ : Type} {p : Prog ε σ τ γ} {f : γ → Prog ε σ τ α} {post : γ → τ → σ → Prop}
    {i : ι} {s : σ} (leads : p.Leads busy post m.time s)
    (steady : Steady calls stands start (m.resume i s (p >>= f))) :
    ∃ a s', post a m.time s' ∧ Steady calls stands start (m.resume i s' (f a)) := by
  induction p generalizing s with
  | done a => exact ⟨a, s, leads _ (le_refl _), steady⟩
  | act x next ih =>
    obtain ⟨b, s', ran, rest⟩ := leads.2 m.time (le_refl _)
    have inside : (m.resume i s (.act x fun b => (next b).bind f)).threads i =
        .inside (.act x fun b => (next b).bind f) := Function.update_self _ _ _
    have step : Step calls (m.resume i s (.act x fun b => (next b).bind f)) _ := Step.act inside ran
    rw [resume_act] at step
    refine ih b rest (.step steady step
      (.of_other i (fun j other => ?_) fun call seen looked => ?_))
    · exact (resume_other _ _ _ other).trans (resume_other _ _ _ other).symm
    · cases inside.symm.trans looked

variable {i : ι} {call : κ} {seen : β}

/-- An idle thread makes a call up to the lock. -/
theorem Steady.asks (steady : Steady calls stands start m) (idle : m.threads i = .idle)
    (allowed : calls.allowed call) (looked : calls.look call m.shared = .ok seen m.shared)
    (still : stands seen m.shared) (checked : calls.check call seen m.shared = .ok ⟨⟩ m.shared) :
    Steady calls stands start
      { m with threads := Function.update m.threads i (.waiting call) } := by
  let m₁ : Machine ι ε σ τ κ β α :=
    { m with threads := Function.update m.threads i (.looked call seen) }
  have own : m₁.threads i = .looked call seen := Function.update_self _ _ _
  have first : Steady calls stands start m₁ := .step steady (.look idle allowed looked)
    (.of_other i (fun j other => Function.update_of_ne other _ _) fun c s here =>
      by cases idle.symm.trans here)
  have second :
      Steady calls stands start
        { m₁ with threads := Function.update m₁.threads i (.waiting call) } :=
    .step first (.check own checked)
      (.of_other i (fun j other => Function.update_of_ne other _ _) fun c s here => by
      cases own.symm.trans here
      exact still)
  simpa only [m₁, Function.update_idem] using second

/-- And takes it. -/
theorem Steady.entered (steady : Steady calls stands start m) (idle : m.threads i = .idle)
    (allowed : calls.allowed call) (looked : calls.look call m.shared = .ok seen m.shared)
    (still : stands seen m.shared) (checked : calls.check call seen m.shared = .ok ⟨⟩ m.shared)
    (free : calls.held m.shared = false) :
    Steady calls stands start
      ({ m with taken := m.taken ++ [call] }.resume i (calls.take m.shared) (calls.body call)) := by
  have asked := steady.asks idle allowed looked still checked
  have own : Function.update m.threads i (.waiting call) i = .waiting call :=
    Function.update_self _ _ _
  have taken :=
    Steady.step asked (.take own free) (.of_other i (fun j other => resume_other _ _ _ other)
    fun c s here => by cases own.symm.trans here)
  cases body :
    calls.body call <;> simpa only [Machine.resume, body, Function.update_idem] using taken

/-- An idle thread makes a whole call. -/
theorem Steady.called {post : α → τ → σ → Prop} (steady : Steady calls stands start m)
    (idle : m.threads i = .idle)
    (allowed : calls.allowed call) (looked : calls.look call m.shared = .ok seen m.shared)
    (still : stands seen m.shared) (checked : calls.check call seen m.shared = .ok ⟨⟩ m.shared)
    (free : calls.held m.shared = false)
    (leads : (calls.body call).Leads busy post m.time (calls.take m.shared)) :
    ∃ a s', post a m.time s' ∧
      Steady calls stands start ⟨m.threads, s', m.time, m.taken ++ [call], m.results ++ [a]⟩ := by
  have inside := steady.entered idle allowed looked still checked free
  rw [← Prog.bind_done (calls.body call)] at inside
  obtain ⟨a, s', ended, steady'⟩ :=
    Steady.runs (m := { m with taken := m.taken ++ [call] }) leads inside
  have back : Function.update m.threads i .idle = m.threads :=
    idle ▸ Function.update_eq_self i m.threads
  rw [Machine.resume, back] at steady'
  exact ⟨a, s', ended, steady'⟩

end Interleaving
