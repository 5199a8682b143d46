import BTrader.Strategy.ConsecutiveBarStrategy

/-! What `setup` leaves in the configuration when a key of the JSON object does not convert. -/
namespace BTrader.ConsecutiveBarStrategy
open Infra Procedure

/-- The bounds of each parameter on its own. -/
structure Config.Bounded (c : Config) : Prop where
  minBars : 3 ≤ c.minBars
  maxPosition : 0 < c.maxPosition
  stopLoss : 0 < c.stopLoss ∧ c.stopLoss ≤ 1 / 2
  takeProfit : 0 < c.takeProfit ∧ c.takeProfit ≤ 1 / 2
  riskPerTrade : 0 < c.riskPerTrade ∧ c.riskPerTrade ≤ 1 / 10
  maxDrawdown : 0 < c.maxDrawdown ∧ c.maxDrawdown ≤ 1 / 2

/-- The configuration is within its bounds, and a loss ends a trade before the profit does. -/
structure Config.Valid (c : Config) : Prop where
  bounded : c.Bounded
  consistent : c.stopLoss < c.takeProfit

/-- The key is missing, or its value converts. -/
def converts {α : Type} (cfg : Json) (key : String) (get : Json → Except JsonFault α) : Bool :=
  !cfg.contains key || (cfg.index key >>= get).toOption.isSome

/-- The values of `stop_loss` and of the keys before it convert. -/
def stopConverts (cfg : Json) : Bool :=
  converts cfg "symbol" Json.getString && converts cfg "institution" Json.getString &&
    converts cfg "account" Json.getString && converts cfg "min_bars" Json.getInt &&
    converts cfg "max_position" Json.getDouble && converts cfg "stop_loss" Json.getDouble

def takeConverts (cfg : Json) : Bool :=
  stopConverts cfg && converts cfg "take_profit" Json.getDouble

def allConvert (cfg : Json) : Bool :=
  takeConverts cfg && converts cfg "risk_per_trade" Json.getDouble &&
    converts cfg "max_drawdown" Json.getDouble &&
    converts cfg "enable_quote_trading" Json.getBool

/-- What the object says of a percentage, or else what was there. -/
def stated (cfg : Json) (key : String) (default previous : ℚ) : ℚ :=
  ((cfg.index key >>= Json.getDouble).toOption.map (inRange (1 / 2) default)).getD previous

/-- The stop loss that the object states, where it can be read up to there. -/
def statedStop (cfg : Json) (c : Config) : ℚ :=
  if stopConverts cfg then stated cfg "stop_loss" (2 / 100) c.stopLoss else c.stopLoss

def statedTake (cfg : Json) (c : Config) : ℚ :=
  if takeConverts cfg then stated cfg "take_profit" (3 / 100) c.takeProfit else c.takeProfit

section Steps
variable {α : Type} (cfg : Json) (key : String) (get : Json → Except JsonFault α)

/-- The value assigned, where there is one. -/
def assigned (assign : ConsecutiveBarStrategy → α → ConsecutiveBarStrategy)
    (s : ConsecutiveBarStrategy) :
    ConsecutiveBarStrategy :=
  ((cfg.index key >>= get).toOption.map (assign s)).getD s

theorem index_missing {cfg : Json} {key : String} (missing : cfg.contains key = false) :
    (cfg.index key >>= get).toOption = none := by
  cases found : cfg.index key with
  | ok value =>
    rw [Json.contains_of_index found] at missing
    contradiction
  | error e => rfl

/-- A key that converts is assigned, and one that does not ends the setup. -/
theorem after_parse (assign : ConsecutiveBarStrategy → α → ConsecutiveBarStrategy)
    (rest : Setup Unit)
    (s : ConsecutiveBarStrategy) : after (parse cfg key get assign >>= fun _ => rest) s =
      if converts cfg key get then after rest (assigned cfg key get assign s) else s := by
  cases present : cfg.contains key with
  | false =>
    have nothing := index_missing get present
    simp only [after, parse, present, converts, assigned, nothing]
    rfl
  | true =>
    cases read : cfg.index key >>= get with
    | ok value =>
      simp only [after, parse, present, converts, assigned, read]
      rfl
    | error e =>
      simp only [after, parse, present, converts, read]
      rfl

/-- What an assignment keeps, its step keeps. -/
theorem keeps_parse {P : ConsecutiveBarStrategy → Prop}
    {assign : ConsecutiveBarStrategy → α → ConsecutiveBarStrategy}
    (kept : ∀ s value, P s → P (assign s value)) : Keeps P (parse cfg key get assign) := by
  apply keeps_branch
  · cases cfg.index key >>= get with
    | ok value => exact keeps_modify fun s => kept s value
    | error e => exact keeps_throw e
  · exact keeps_pure _

end Steps

section Bounds

theorem inRange_bounds {upper default value : ℚ} (positive : 0 < default) (le : default ≤ upper) :
    0 < inRange upper default value ∧ inRange upper default value ≤ upper := by
  unfold inRange
  split
  · exact ⟨positive, le⟩
  · rename_i inside
    push Not at inside
    exact inside

theorem three_le (value : Int32) : 3 ≤ if value < 3 then 3 else value := by
  split
  · exact Int32.le_refl 3
  · rename_i large
    exact Int32.not_lt.mp large

theorem size_pos (value : ℚ) : 0 < if value ≤ 0 then 1000 else value := by
  split
  · norm_num
  · rename_i positive
    exact not_le.mp positive

/-- Each check is made with the assignment, so an exception leaves all parameters within their
bounds. -/
theorem keeps_bounded (cfg : Json) : Keeps (fun s => s.config.Bounded) (parseAll cfg) := by
  refine keeps_bind (keeps_parse _ _ _ fun _ _ bounded => bounded) fun _ => ?_
  refine keeps_bind (keeps_parse _ _ _ fun _ _ bounded => bounded) fun _ => ?_
  refine keeps_bind (keeps_parse _ _ _ fun _ _ bounded => bounded) fun _ => ?_
  refine keeps_bind (keeps_parse _ _ _ fun _ value bounded =>
    { bounded with minBars := three_le value }) fun _ => ?_
  refine keeps_bind (keeps_parse _ _ _ fun _ value bounded =>
    { bounded with maxPosition := size_pos value }) fun _ => ?_
  refine keeps_bind (keeps_parse _ _ _ fun _ value bounded =>
    { bounded with stopLoss := inRange_bounds (by norm_num) (by norm_num) }) fun _ => ?_
  refine keeps_bind (keeps_parse _ _ _ fun _ value bounded =>
    { bounded with takeProfit := inRange_bounds (by norm_num) (by norm_num) }) fun _ => ?_
  refine keeps_bind (keeps_parse _ _ _ fun _ value bounded =>
    { bounded with riskPerTrade := inRange_bounds (by norm_num) (by norm_num) }) fun _ => ?_
  refine keeps_bind (keeps_parse _ _ _ fun _ value bounded =>
    { bounded with maxDrawdown := inRange_bounds (by norm_num) (by norm_num) }) fun _ => ?_
  refine keeps_bind (keeps_parse _ _ _ fun _ _ bounded => { bounded with }) fun _ => ?_
  refine keeps_modify fun s bounded => ?_
  split
  · have take := bounded.takeProfit
    refine { bounded with stopLoss := ⟨?_, ?_⟩ }
    · change 0 < s.config.takeProfit * (8 / 10)
      linarith
    · change s.config.takeProfit * (8 / 10) ≤ 1 / 2
      linarith
  · exact bounded

end Bounds

section Spread

/-- The stop loss and the take profit. -/
def spread (s : ConsecutiveBarStrategy) : ℚ × ℚ := (s.config.stopLoss, s.config.takeProfit)

/-- Where the two lead depends on nothing else. -/
def Leads (x : Setup Unit) (f : ℚ × ℚ → ℚ × ℚ) : Prop := ∀ s, spread (after x s) = f (spread s)

variable {α : Type} {cfg : Json} {rest : Setup Unit} {f : ℚ × ℚ → ℚ × ℚ}

theorem leads_parse (key : String) (get : Json → Except JsonFault α)
    (assign : ConsecutiveBarStrategy → α → ConsecutiveBarStrategy) (effect : ℚ × ℚ → ℚ × ℚ)
    (acts : ∀ s, spread (assigned cfg key get assign s) = effect (spread s))
    (leads : Leads rest f) :
    Leads (parse cfg key get assign >>= fun _ => rest) fun p => if converts cfg key get then
      f (effect p) else p := by
  intro s
  rw [after_parse]
  split
  · rw [leads, acts]
  · rfl

theorem leads_quiet (key : String) (get : Json → Except JsonFault α)
    {assign : ConsecutiveBarStrategy → α → ConsecutiveBarStrategy}
    (same : ∀ s value, spread (assign s value) = spread s) (leads : Leads rest f) :
    Leads (parse cfg key get assign >>= fun _ => rest) fun p => if converts cfg key get then f p
      else p := by
  refine leads_parse key get assign id (fun s => ?_) leads
  unfold assigned
  cases (cfg.index key >>= get).toOption with
  | none => rfl
  | some value => exact same s value

/-- A stop loss that is not below the take profit is put at four fifths of it. -/
def adjusted (p : ℚ × ℚ) : ℚ × ℚ := if p.2 ≤ p.1 then (p.2 * (8 / 10), p.2) else p

/-- The two are what the object states as far as it is read, and are adjusted at the end. -/
theorem leads_parseAll (cfg : Json) : Leads (parseAll cfg) fun p =>
    if stopConverts cfg then
      let p := (stated cfg "stop_loss" (2 / 100) p.1, p.2)
      if converts cfg "take_profit" Json.getDouble then
        let p := (p.1, stated cfg "take_profit" (3 / 100) p.2)
        if allConvert cfg then adjusted p else p
      else p
    else p := by
  have stop (s : ConsecutiveBarStrategy) :
      spread (assigned cfg "stop_loss" Json.getDouble (fun s value =>
        { s with config := { s.config with stopLoss := inRange (1 / 2) (2 / 100) value } }) s) =
        (stated cfg "stop_loss" (2 / 100) (spread s).1, (spread s).2) := by
    unfold assigned stated
    cases (cfg.index "stop_loss" >>= Json.getDouble).toOption <;> rfl
  have take (s : ConsecutiveBarStrategy) :
      spread (assigned cfg "take_profit" Json.getDouble (fun s value =>
        { s with config := { s.config with takeProfit := inRange (1 / 2) (3 / 100) value } }) s) =
        ((spread s).1, stated cfg "take_profit" (3 / 100) (spread s).2) := by
    unfold assigned stated
    cases (cfg.index "take_profit" >>= Json.getDouble).toOption <;> rfl
  have last : Leads (modify fun s : ConsecutiveBarStrategy =>
      if s.config.takeProfit ≤ s.config.stopLoss then
        { s with config := { s.config with stopLoss := s.config.takeProfit * (8 / 10) } }
      else s) adjusted := by
    intro s
    simp only [after, modify_apply, spread, adjusted]
    by_cases le : s.config.takeProfit ≤ s.config.stopLoss
    · rw [if_pos le]
      exact (if_pos le).symm
    · rw [if_neg le]
      exact (if_neg le).symm
  have whole : Leads (parseAll cfg) _ := leads_quiet "symbol" Json.getString (fun _ _ => rfl)
    (leads_quiet "institution" Json.getString (fun _ _ => rfl)
      (leads_quiet "account" Json.getString (fun _ _ => rfl)
        (leads_quiet "min_bars" Json.getInt (fun _ _ => rfl)
          (leads_quiet "max_position" Json.getDouble (fun _ _ => rfl)
            (leads_parse "stop_loss" Json.getDouble _
              (fun p => (stated cfg "stop_loss" (2 / 100) p.1, p.2)) stop
              (leads_parse "take_profit" Json.getDouble _
                (fun p => (p.1, stated cfg "take_profit" (3 / 100) p.2)) take
                (leads_quiet "risk_per_trade" Json.getDouble (fun _ _ => rfl)
                  (leads_quiet "max_drawdown" Json.getDouble (fun _ _ => rfl)
                    (leads_quiet "enable_quote_trading" Json.getBool (fun _ _ => rfl) last)))))))))
  intro s
  rw [whole s]
  unfold allConvert takeConverts stopConverts
  simp only [Bool.and_eq_true]
  grind

end Spread

theorem make_bounded : make.config.Bounded where
  minBars := by decide
  maxPosition := by norm_num [make]
  stopLoss := by norm_num [make]
  takeProfit := by norm_num [make]
  riskPerTrade := by norm_num [make]
  maxDrawdown := by norm_num [make]

/-- After a setup the configuration is valid just when each key that is there converts, or the
stop loss is below the take profit in what was read when one did not. -/
theorem setup_valid_iff {s : ConsecutiveBarStrategy} (bounded : s.config.Bounded) (cfg : Json) :
    (s.setup cfg).config.Valid ↔ allConvert cfg = true ∨
      statedStop cfg s.config < statedTake cfg s.config := by
  have after : (s.setup cfg).config.Bounded := keeps_bounded cfg s bounded
  have read : spread (s.setup cfg) = _ := leads_parseAll cfg s
  have positive : 0 < (spread (s.setup cfg)).2 := after.takeProfit.1
  have iff : (s.setup cfg).config.Valid ↔ (spread (s.setup cfg)).1 < (spread (s.setup cfg)).2 :=
    ⟨fun valid => valid.consistent, fun below => ⟨after, below⟩⟩
  rw [iff, read]
  rw [read] at positive
  revert positive
  unfold statedStop statedTake allConvert takeConverts
  cases stopConverts cfg with
  | false => simp [spread]
  | true =>
    cases converts cfg "take_profit" Json.getDouble with
    | false => simp [spread]
    | true =>
      simp only [Bool.and_true, Bool.true_and, if_true]
      split
      · rename_i all
        intro positive
        refine iff_of_true ?_ (Or.inl all)
        unfold adjusted at positive ⊢
        split at positive
        · rename_i crossed
          rw [if_pos crossed]
          linarith
        · rename_i apart
          rw [if_neg apart]
          exact not_le.mp apart
      · rename_i stopped
        intro _
        rw [or_iff_right stopped]
        rfl

/-- A take profit below the stop loss, and a flag that is a text. -/
def crossedThenText : Json :=
  .object [("take_profit", .float (1 / 100)), ("enable_quote_trading", .string "yes")]

/-- The text ends the setup before the stop loss is compared with the take profit. -/
theorem setup_crossed : ¬ ∀ cfg : Json, (make.setup cfg).config.Valid := by
  intro valid
  have below : (2 / 100 : ℚ) < inRange (1 / 2) (3 / 100) (1 / 100) :=
    (valid crossedThenText).consistent
  norm_num [inRange] at below

/-- With a flag that converts, the stop loss is put at four fifths of the take profit. -/
theorem setup_crossed_flag :
    (make.setup (.object [("take_profit", .float (1 / 100)),
      ("enable_quote_trading", .bool true)])).config.Valid :=
  (setup_valid_iff make_bounded _).mpr (Or.inl rfl)

end BTrader.ConsecutiveBarStrategy
