import BTrader.Algorithm.MaxDrawdown

/-! The capture ratios and the ratios of gains to losses, with the divisions they make. -/
namespace BTrader.Algorithm
open Drawdown

section Captures

/-- A return in the loop of one capture: the sum of what is chosen, in relation to the benchmark,
and its count. -/
def captured (chosen : ℚ → Bool) (benchmark : ℚ) (s : ℚ × ℕ) (x : ℚ) : Option (ℚ × ℕ) :=
  if chosen x then (divide x benchmark).map fun quotient => (s.1 + quotient, s.2 + 1) else some s

/-- The average, which is 1 of no movement. -/
def average (sum : ℚ) (count : ℕ) : Option ℚ := if count = 0 then some 1 else divide sum count

def sideCapture (chosen : ℚ → Bool) (returns : List ℚ) (benchmark : ℚ) : Option ℚ :=
  if returns = [] then some 0
  else (returns.foldlM (captured chosen benchmark) (0, 0)).bind fun s => average s.1 s.2

def upCaptureRatio (returns : List ℚ) (benchmarkReturn : ℚ) : Option ℚ :=
  sideCapture (· > benchmarkReturn) returns benchmarkReturn

def downCaptureRatio (returns : List ℚ) (benchmarkReturn : ℚ) : Option ℚ :=
  sideCapture (· < benchmarkReturn) returns benchmarkReturn

/-- The variables of the loop of `capture_ratio`. -/
structure Captures where
  upCapture : ℚ
  downCapture : ℚ
  upCount : ℕ
  downCount : ℕ

def Captures.next (benchmark : ℚ) (s : Captures) (x : ℚ) : Option Captures :=
  if x > benchmark then
    (divide x benchmark).map fun quotient =>
      { s with upCapture := s.upCapture + quotient, upCount := s.upCount + 1 }
  else if x < benchmark then
    (divide x benchmark).map fun quotient =>
      { s with downCapture := s.downCapture + quotient, downCount := s.downCount + 1 }
  else some s

def captureRatio (returns : List ℚ) (benchmarkReturn : ℚ) : Option ℚ :=
  if returns = [] then some 0
  else do
    let s ← returns.foldlM (Captures.next benchmarkReturn) ⟨0, 0, 0, 0⟩
    let upCapture ← average s.upCapture s.upCount
    let downCapture ← average s.downCapture s.downCount
    divide upCapture downCapture

end Captures

section Gains

/-- Gains above the target over losses below it, which are those of the returns that count;
infinite without losses. -/
def gainOverLoss (counts : ℚ → Bool) (returns : List ℚ) (target : ℚ) : Option (WithTop ℚ) :=
  if returns = [] then some 0
  else
    let (gain, loss) := returns.foldl (fun (gain, loss) x =>
      if x > target then (gain + (x - target), loss)
      else if counts x then (gain, loss + (target - x))
      else (gain, loss)) ((0, 0) : ℚ × ℚ)
    if loss = 0 then some ⊤ else (divide gain loss).map WithTop.some

def omegaRatio (returns : List ℚ) (targetReturn : ℚ) : Option (WithTop ℚ) :=
  gainOverLoss (fun _ => true) returns targetReturn

/-- The overload with a threshold that only the losses are compared with. -/
def omegaRatioBelow (returns : List ℚ) (targetReturn threshold : ℚ) : Option (WithTop ℚ) :=
  gainOverLoss (· < threshold) returns targetReturn

def gainLossRatio (returns : List ℚ) : Option (WithTop ℚ) := gainOverLoss (fun _ => true) returns 0

theorem gainOverLoss_isSome (counts : ℚ → Bool) (returns : List ℚ) (target : ℚ) :
    (gainOverLoss counts returns target).isSome = true := by
  unfold gainOverLoss
  split
  · rfl
  · dsimp only
    split
    · rfl
    · rename_i losses
      rw [Option.isSome_map]
      exact divide_isSome_iff.mpr losses

end Gains

section Loops
variable {chosen : ℚ → Bool} {returns : List ℚ} {benchmark : ℚ}

/-- Where the loop of one capture ends, it has the sum and the count of what is chosen; a
benchmark of 0 ends it only without any. -/
theorem captured_loop (s : ℚ × ℕ) : returns.foldlM (captured chosen benchmark) s =
    if benchmark = 0 ∧ ∃ x ∈ returns, chosen x = true then none
    else some (s.1 + (returns.filter chosen).sum / benchmark,
      s.2 + (returns.filter chosen).length) := by
  induction returns generalizing s with
  | nil => simp
  | cons x returns ih =>
    rw [List.foldlM_cons, captured]
    by_cases now : chosen x = true
    · rw [if_pos now, List.filter_cons_of_pos now]
      by_cases zero : benchmark = 0
      · have first : ∃ y ∈ x :: returns, chosen y = true := ⟨x, List.mem_cons_self, now⟩
        rw [if_pos ⟨zero, first⟩, divide, if_pos zero]
        rfl
      · rw [if_neg fun both => zero both.1, divide_of_ne zero, Option.map_some]
        refine (ih _).trans ?_
        rw [if_neg fun both => zero both.1, List.sum_cons, List.length_cons]
        congr 2
        · ring
        · omega
    · have later : (∃ y ∈ x :: returns, chosen y = true) ↔ ∃ y ∈ returns, chosen y = true := by
        simp [now]
      simp only [now, List.filter_cons_of_neg now, later]
      exact ih s

/-- The loop of both captures is the loop of each. -/
theorem captures_loop (s : Captures) : returns.foldlM (Captures.next benchmark) s =
    (returns.foldlM (captured (· > benchmark) benchmark) (s.upCapture, s.upCount)).bind fun up =>
      (returns.foldlM (captured (· < benchmark) benchmark) (s.downCapture, s.downCount)).map
        fun down =>
        ⟨up.1, down.1, up.2, down.2⟩ := by
  induction returns generalizing s with
  | nil => rfl
  | cons x returns ih =>
    rw [List.foldlM_cons, List.foldlM_cons, List.foldlM_cons, Captures.next, captured, captured]
    rcases lt_trichotomy x benchmark with below | same | above
    · simp only [below, below.not_gt, decide_true, decide_false, if_true, if_false, gt_iff_lt,
        Bool.false_eq_true]
      cases divide x benchmark with
      | none =>
        simp only [Option.map_none, Option.bind_eq_bind, Option.bind_none, Option.bind_some]
        exact (Option.bind_fun_none _).symm
      | some quotient => exact ih _
    · simp only [same, lt_irrefl, decide_false, if_false, gt_iff_lt, Bool.false_eq_true]
      exact ih _
    · simp only [above, above.not_gt, decide_true, decide_false, if_true, if_false, gt_iff_lt,
        Bool.false_eq_true]
      cases divide x benchmark with
      | none => rfl
      | some quotient => exact ih _

theorem average_eq (sum : ℚ) (count : ℕ) :
    average sum count = some (if count = 0 then 1 else sum / count) := by
  unfold average
  split
  · rfl
  · rename_i counted
    exact divide_of_ne (Nat.cast_ne_zero.mpr counted)

end Loops

section Divisors
variable {returns : List ℚ} {benchmark : ℚ}

/-- One capture divides by the benchmark only. -/
theorem sideCapture_isSome_iff (chosen : ℚ → Bool) :
    (sideCapture chosen returns benchmark).isSome = true ↔
    (benchmark = 0 → ∀ x ∈ returns, chosen x = false) := by
  unfold sideCapture
  split
  · rename_i none
    simp [none]
  · rw [captured_loop]
    split
    · rename_i zero
      obtain ⟨none, x, member, now⟩ := zero
      refine iff_of_false Bool.false_ne_true fun all => ?_
      rw [all none x member] at now
      contradiction
    · rename_i divides
      rw [Option.bind_some, average_eq]
      refine iff_of_true rfl fun none x member => ?_
      by_contra now
      exact divides ⟨none, x, member, by simpa using now⟩

/-- The capture of the falls is 0 just when there are some and they add up to 0. -/
theorem downCapture_ne_zero_iff
    (divides : ¬ (benchmark = 0 ∧ ∃ x ∈ returns, decide (x < benchmark) = true)) :
    (if (returns.filter (· < benchmark)).length = 0 then 1
      else (returns.filter (· < benchmark)).sum / benchmark /
        (returns.filter (· < benchmark)).length) ≠ 0 ↔
      ((∃ x ∈ returns, x < benchmark) → (returns.filter (· < benchmark)).sum ≠ 0) := by
  by_cases falls : ∃ x ∈ returns, x < benchmark
  · obtain ⟨x, member, below⟩ := falls
    have counted : (returns.filter (· < benchmark)).length ≠ 0 := by
      have inside : x ∈ returns.filter (· < benchmark) :=
        List.mem_filter.mpr ⟨member, by simpa using below⟩
      exact (List.length_pos_of_mem inside).ne'
    have nonzero : benchmark ≠ 0 := fun zero => divides ⟨zero, x, member, by simpa using below⟩
    rw [if_neg counted, div_ne_zero_iff, div_ne_zero_iff]
    constructor
    · exact fun both _ => both.1.1
    · exact fun sum => ⟨⟨sum ⟨x, member, below⟩, nonzero⟩, Nat.cast_ne_zero.mpr counted⟩
  · have none : returns.filter (· < benchmark) = [] := by
      rw [List.filter_eq_nil_iff]
      intro x member below
      exact falls ⟨x, member, by simpa using below⟩
    rw [none, List.length_nil, if_pos rfl]
    exact iff_of_true one_ne_zero fun some => absurd some falls

/-- Both captures together divide by the capture of the falls too. -/
theorem captureRatio_isSome_iff : (captureRatio returns benchmark).isSome = true ↔
    (benchmark = 0 → ∀ x ∈ returns, x = 0) ∧
      ((∃ x ∈ returns, x < benchmark) → (returns.filter (· < benchmark)).sum ≠ 0) := by
  unfold captureRatio
  split
  · rename_i none
    simp [none]
  · rw [captures_loop, captured_loop, captured_loop]
    have moves {x : ℚ} (zero : benchmark = 0) (member : x ∈ returns) (moved : x ≠ benchmark) :
        ¬ (benchmark = 0 → ∀ x ∈ returns, x = 0) :=
          fun all => moved ((all zero x member).trans zero.symm)
    split
    · rename_i rises
      obtain ⟨zero, x, member, above⟩ := rises
      have above : benchmark < x := by simpa using above
      exact iff_of_false Bool.false_ne_true fun both => moves zero member above.ne' both.1
    · rename_i noRise
      split
      · rename_i falls
        obtain ⟨zero, x, member, below⟩ := falls
        have below : x < benchmark := by simpa using below
        exact iff_of_false Bool.false_ne_true fun both => moves zero member below.ne both.1
      · rename_i noFall
        have flat : benchmark = 0 → ∀ x ∈ returns, x = 0 := by
          intro zero x member
          rcases lt_trichotomy x benchmark with below | same | above
          · exact absurd ⟨zero, x, member, by simpa using below⟩ noFall
          · exact same.trans zero
          · exact absurd ⟨zero, x, member, by simpa using above⟩ noRise
        rw [and_iff_right flat, ← downCapture_ne_zero_iff noFall]
        simp only [Option.bind_some, Option.map_some, Option.bind_eq_bind, average_eq,
          divide_isSome_iff, zero_add]

/-- The divisors of all the functions are no 0. -/
structure Divides (returns : List ℚ) (benchmark target threshold : ℚ) : Prop where
  drawdown : (maxDrawdown returns).isSome = true
  capture : (captureRatio returns benchmark).isSome = true
  up : (upCaptureRatio returns benchmark).isSome = true
  down : (downCaptureRatio returns benchmark).isSome = true
  omega : (omegaRatio returns target).isSome = true
  omegaBelow : (omegaRatioBelow returns target threshold).isSome = true
  gainLoss : (gainLossRatio returns).isSome = true

/-- No return falls below a peak of 0, a benchmark of 0 comes with returns of 0 only, and the
returns below the benchmark do not add up to 0. -/
structure Divisible (returns : List ℚ) (benchmark : ℚ) : Prop where
  peaks : PeaksDivide returns
  basis : benchmark = 0 → ∀ x ∈ returns, x = 0
  below : (∃ x ∈ returns, x < benchmark) → (returns.filter (· < benchmark)).sum ≠ 0

/-- Of the divisors, those of the losses are never 0. -/
theorem divides_iff (returns : List ℚ) (benchmark target threshold : ℚ) :
    Divides returns benchmark target threshold ↔ Divisible returns benchmark := by
  constructor
  · intro divides
    have capture := captureRatio_isSome_iff.mp divides.capture
    exact ⟨(maxDrawdown_isSome_iff returns).mp divides.drawdown, capture.1, capture.2⟩
  · intro divisible
    have side (chosen : ℚ → Bool) (still : chosen benchmark = false) :
        (sideCapture chosen returns benchmark).isSome = true := by
      apply (sideCapture_isSome_iff chosen).mpr
      intro zero x member
      rw [divisible.basis zero x member, ← zero]
      exact still
    constructor
    · exact (maxDrawdown_isSome_iff returns).mpr divisible.peaks
    · exact captureRatio_isSome_iff.mpr ⟨divisible.basis, divisible.below⟩
    · exact side _ (decide_eq_false (lt_irrefl benchmark))
    · exact side _ (decide_eq_false (lt_irrefl benchmark))
    · exact gainOverLoss_isSome _ _ _
    · exact gainOverLoss_isSome _ _ _
    · exact gainOverLoss_isSome _ _ _

/-- With a benchmark of 0, a return of 1 is divided by it. -/
theorem zero_benchmark : ¬ ∀ (returns : List ℚ) (benchmark target threshold : ℚ),
    Divides returns benchmark target threshold := by
  intro divides
  have up := (divides [1] 0 0 0).up
  revert up
  decide

end Divisors

end BTrader.Algorithm
