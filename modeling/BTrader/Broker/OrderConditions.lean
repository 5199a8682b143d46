import BTrader.Broker.LifeCycle
import BTrader.Broker.Overdraft

/-! When the volume and the time condition of an order are honoured. -/
namespace BTrader
namespace BrokerSim

/-- Fill all of it or kill it. -/
def AllOrNone (order : Order) : Prop := order.timeCondition = .fok ∨ order.volumeCondition = .all

variable {b : BrokerSim} {readings : UInt64 → Reading} {key : UInt64} {order : Order}

/-- The price levels an order reaches, up to the first whose price does not match. -/
def reached (b : BrokerSim) (order : Order) (levels : List (ℚ × ℚ)) : List (ℚ × ℚ) :=
  (levels.map fun level => (b.applySlippage level.1 order.side, level.2)).takeWhile fun level =>
    canExecuteOrder order level.1

theorem reached_cons (price volume : ℚ) (levels : List (ℚ × ℚ)) :
    b.reached order ((price, volume) :: levels) =
      if canExecuteOrder order (b.applySlippage price order.side) then
        (b.applySlippage price order.side, volume) :: b.reached order levels
      else [] := by
  simp [reached, List.takeWhile_cons]

/-- These levels have all that is wanted, those left out that the cash does not cover. -/
def Covers (b : BrokerSim) (order : Order) : List (ℚ × ℚ) → ℚ → Prop
  | [], _ => False
  | (price, volume) :: levels, wanted =>
    if b.checkFundsSufficiency order price (min wanted volume) then
      wanted ≤ volume ∨ b.Covers order levels (wanted - volume)
    else b.Covers order levels wanted

theorem given_pos_iff (levels : List (ℚ × ℚ)) (positive : ∀ level ∈ levels, 0 < level.2)
    (wanted : ℚ) :
    0 < b.given order levels wanted ↔ 0 < wanted ∧
      ∃ level ∈ b.reached order levels, b.checkFundsSufficiency order level.1 (min wanted level.2) =
        true := by
  by_cases some : 0 < wanted
  · induction levels with
    | nil => simp [given, reached]
    | cons level levels ih =>
      obtain ⟨price, volume⟩ := level
      have offered : 0 < volume := positive _ List.mem_cons_self
      have rest := fun level member => positive level (List.mem_cons_of_mem (price, volume) member)
      rw [given, reached_cons]
      by_cases able : canExecuteOrder order (b.applySlippage price order.side) = true
      · rw [if_neg (by simp [able, some]), if_pos able]
        split
        · rename_i funds
          have taken : 0 < min wanted volume := lt_min some offered
          have later := (given_bounds b order levels rest (wanted - min wanted volume) (by simp)).1
          exact iff_of_true (by linarith) ⟨some, _, List.mem_cons_self, funds⟩
        · rename_i funds
          rw [ih rest]
          simp [funds]
      · rw [if_pos (.inr (by simpa using able)), if_neg able]
        simp
  · refine iff_of_false ?_ fun all => some all.1
    cases levels with
    | nil => simp [given]
    | cons level levels => simp [given, not_lt.mp some]

theorem given_all_iff (levels : List (ℚ × ℚ)) (positive : ∀ level ∈ levels, 0 < level.2)
    (wanted : ℚ) (some : 0 < wanted) :
      b.given order levels wanted = wanted ↔ b.Covers order (b.reached order levels) wanted := by
  induction levels generalizing wanted with
  | nil => simp [given, reached, Covers, some.ne]
  | cons level levels ih =>
    obtain ⟨price, volume⟩ := level
    have rest := fun level member => positive level (List.mem_cons_of_mem (price, volume) member)
    rw [given, reached_cons]
    by_cases able : canExecuteOrder order (b.applySlippage price order.side) = true
    · rw [if_neg (by simp [able, some]), if_pos able, Covers]
      split
      · by_cases last : wanted ≤ volume
        · have none := given_bounds b order levels rest 0 (le_refl _)
          have nothing : b.given order levels 0 = 0 := le_antisymm none.2 none.1
          simp [last, nothing]
        · rw [min_eq_right (not_le.mp last).le, ← ih rest _ (sub_pos.mpr (not_le.mp last))]
          simp only [last, false_or]
          exact eq_sub_iff_add_eq'.symm
      · exact ih rest wanted some
    · rw [if_pos (.inr (by simpa using able)), if_neg able]
      simp [Covers, some.ne]

/-- The cash is short of all that is left of a buy. -/
def Short (b : BrokerSim) (order : Order) (reading : Reading) : Prop :=
  order.side = .buy ∧ b.asset.avail < b.executionPrice order reading * order.volumeLeft

/-- A turn trades something. -/
def Trades (b : BrokerSim) (order : Order) (reading : Reading) : Prop :=
  if reading.depth.realDepthSize = 0 then ¬ b.Short order reading
  else 0 < order.volumeLeft ∧ ∃ level ∈ b.reached order (buildPriceLevels reading.depth order.side),
    b.checkFundsSufficiency order level.1 (min order.volumeLeft level.2) = true

/-- A turn trades all that is left. -/
def TradesAll (b : BrokerSim) (order : Order) (reading : Reading) : Prop :=
  if reading.depth.realDepthSize = 0 then ¬ b.Short order reading
  else 0 < order.volumeLeft ∧
    b.Covers order (b.reached order (buildPriceLevels reading.depth order.side)) order.volumeLeft

instance decidableCovers (b : BrokerSim) (order : Order) :
    (levels : List (ℚ × ℚ)) → (wanted : ℚ) → Decidable (b.Covers order levels wanted)
  | [], _ => inferInstanceAs (Decidable False)
  | (price, volume) :: levels, wanted =>
    have := decidableCovers b order levels
    inferInstanceAs (Decidable (if b.checkFundsSufficiency order price (min wanted volume) =
      true then
      wanted ≤ volume ∨ b.Covers order levels (wanted - volume) else b.Covers order levels wanted))

instance (reading : Reading) : Decidable (b.Short order reading) :=
  inferInstanceAs (Decidable (_ ∧ _))

instance (reading : Reading) : Decidable (b.Trades order reading) :=
  inferInstanceAs (Decidable (ite _ _ _))

instance (reading : Reading) : Decidable (b.TradesAll order reading) :=
  inferInstanceAs (Decidable (ite _ _ _))

theorem fillVolume_some_iff {reading : Reading} :
    (∃ volume, b.fillVolume order reading = some volume) ↔ b.Trades order reading := by
  unfold fillVolume Trades Short
  split
  · simp
  · simp only [gt_iff_lt, Option.ite_none_right_eq_some, Option.some.injEq, exists_and_left,
      exists_eq', and_true]
    exact given_pos_iff _ (buildPriceLevels_positive _ _) _

theorem fillVolume_all_iff {reading : Reading} :
    b.fillVolume order reading = some order.volumeLeft ↔ b.TradesAll order reading := by
  unfold fillVolume TradesAll Short
  split
  · simp
  · simp only [gt_iff_lt, Option.ite_none_right_eq_some, Option.some.injEq]
    constructor
    · rintro ⟨some, all⟩
      rw [all] at some
      exact ⟨some, (given_all_iff _ (buildPriceLevels_positive _ _) _ some).mp all⟩
    · rintro ⟨some, covers⟩
      have all := (given_all_iff _ (buildPriceLevels_positive _ _) _ some).mpr covers
      rw [all]
      exact ⟨some, rfl⟩

/-- Where the whole part of what is filled is all that is left, all that is left is filled. -/
theorem fill_of_cast {reading : Reading} {volume : ℚ}
    (fill : b.fillVolume order reading = some volume)
    (whole : castInt64 volume = order.volumeLeft) : volume = order.volumeLeft := by
  unfold fillVolume at fill
  split at fill
  · rw [Option.ite_none_left_eq_some] at fill
    exact (Option.some.inj fill.2).symm
  · simp only [gt_iff_lt, Option.ite_none_right_eq_some, Option.some.injEq] at fill
    obtain ⟨some, rfl⟩ := fill
    have wanted := ((given_pos_iff _ (buildPriceLevels_positive _ _) _).mp some).1
    have most :=
      (given_bounds b order _ (buildPriceLevels_positive reading.depth order.side) _ wanted.le).2
    have least := castInt64_le some.le
    rw [whole] at least
    exact le_antisymm most least

/-- A turn leaves a live order finished when it trades all that is left, and that is a whole
number, or when the order is a buy that is short of cash without any depth. -/
theorem matchStep_finishes_iff (entry : b.activeOrders[key]? = some order)
    (same : order.orderId = key) (live : ¬ Done order.status) :
    (∀ order' ∈ (matchStep readings b key).activeOrders[key]?, Done order'.status) ↔
      b.TradesAll order (readings key) ∧ castInt64 order.volumeLeft = order.volumeLeft ∨
        (readings key).depth.realDepthSize = 0 ∧ b.Short order (readings key) := by
  cases fill : b.fillVolume order (readings key) with
  | some volume =>
    obtain ⟨_, _, _, orders⟩ := matchStep_fill entry same live fill
    have funded : ¬ ((readings key).depth.realDepthSize = 0 ∧ b.Short order (readings key)) := by
      rintro ⟨noDepth, short⟩
      rw [fillVolume, if_pos noDepth, Option.ite_none_left_eq_some] at fill
      exact fill.1 short
    have whole : order.volumeLeft - castInt64 volume = 0 ↔
        b.TradesAll order (readings key) ∧ castInt64 order.volumeLeft = order.volumeLeft := by
      rw [← fillVolume_all_iff, fill, Option.some.injEq]
      constructor
      · intro none
        have all : volume = order.volumeLeft := fill_of_cast fill (sub_eq_zero.mp none).symm
        exact ⟨all, all ▸ (sub_eq_zero.mp none).symm⟩
      · rintro ⟨rfl, whole⟩
        exact sub_eq_zero.mpr whole.symm
    rw [orders, if_pos rfl, orderAfter, ← whole]
    split
    · rename_i none
      simp [none]
    · rename_i more
      simp only [Option.mem_def, Option.some.injEq, forall_eq', Done, reduceCtorEq, or_self, more,
        false_or, false_iff]
      exact funded
  | none =>
    have idle : ¬ b.TradesAll order (readings key) := by
      rw [← fillVolume_all_iff, fill]
      simp
    rw [matchStep_live entry live, settled_get, if_pos rfl]
    by_cases noDepth : (readings key).depth.realDepthSize = 0
    · have short : b.Short order (readings key) := by
        rw [fillVolume, if_pos noDepth] at fill
        simpa [Short] using fill
      rw [matchOrder_short same noDepth fill, updateOrderStatus_get, if_pos rfl, entry]
      simp [noDepth, short, Done]
    · simp only [idle, noDepth, false_and, or_self, iff_false, not_forall]
      have open_ : ¬ (order.status = .filled ∨ order.status = .cancelled) :=
        fun ended => live (ended.imp_right .inl)
      rcases matchOrder_waits noDepth fill with stays | waits
      · rw [stays, entry]
        exact ⟨order, by simpa using open_, live⟩
      · rw [waits, updateOrderStatus_get, if_pos rfl, entry]
        exact ⟨{ order with status := .pending, updateTime := (readings key).statusTime }, by simp,
          by simp [Done]⟩

end BrokerSim

/-- A session with the last accepted input of each id and the trades of it. -/
structure Tracked where
  session : Session
  entered : UInt64 → Option OrderInput
  traded : UInt64 → List Trade

namespace Tracked
open BrokerSim Session

def start (b : BrokerSim) : Tracked := ⟨⟨b, []⟩, fun _ => none, fun _ => []⟩

def act (t : Tracked) (action : Action) : Tracked :=
  match action with
  | .insert input =>
    if (t.session.broker.insertOrder input).1 then
      ⟨t.session.act action, Function.update t.entered input.orderId (some input),
        Function.update t.traded input.orderId []⟩
    else { t with session := t.session.act action }
  | _ =>
    match t.session.broker.made action with
    | none => { t with session := t.session.act action }
    | some (_, trade) =>
      { t with
        session := t.session.act action
        traded := Function.update t.traded trade.orderId (t.traded trade.orderId ++ [trade]) }

theorem act_session (t : Tracked) (action : Action) :
    (t.act action).session = t.session.act action := by
  cases action with
  | insert input =>
    simp only [act]
    split <;> rfl
  | cancel input now => rfl
  | turn readings key =>
    simp only [act]
    split <;> rfl

/-- An active order stands under the id of the input that entered it, and all of it is left
until it is traded. -/
def Follows (t : Tracked) : Prop :=
  ∀ (id : UInt64) (order : Order), t.session.broker.activeOrders[id]? = some order →
    order.orderId = id ∧ (∃ input, t.entered id = some input ∧ EnteredBy order input) ∧
      (t.traded id = [] → order.volumeLeft = order.volume)

/-- An order that is to be filled at once or not at all was not traded, or once, in full. -/
def WholeOrNone (t : Tracked) : Prop :=
  ∀ id input, t.entered id = some input → input.timeCondition = .fok ∨
    input.volumeCondition = .all →
    t.traded id = [] ∨ ∃ trade, t.traded id = [trade] ∧ trade.volume = input.volume

/-- A turn of such an order that trades anything trades all of it, and is the first that does. -/
def TradesOnce (t : Tracked) : Action → Prop
  | .turn readings key => ∀ order ∈ t.session.broker.activeOrders[key]?, ¬ Done order.status →
      AllOrNone order →
    t.session.broker.Trades order (readings key) →
      t.traded key = [] ∧ t.session.broker.TradesAll order (readings key)
  | _ => True

/-- An order that is to be filled immediately or cancelled is finished after a turn. -/
def Immediate (s : Session) : Action → Prop
  | .turn readings key => ∀ order ∈ s.broker.activeOrders[key]?, ¬ Done order.status →
      order.timeCondition = .ioc →
    ∀ order' ∈ (s.act (.turn readings key)).broker.activeOrders[key]?, Done order'.status
  | _ => True

/-- A turn of such an order trades all that is left of it, a whole number, or the order is a buy
that is short of cash without any depth. -/
def LeavesNothing (b : BrokerSim) : Action → Prop
  | .turn readings key => ∀ order ∈ b.activeOrders[key]?, ¬ Done order.status →
      order.timeCondition = .ioc →
    b.TradesAll order (readings key) ∧ castInt64 order.volumeLeft = order.volumeLeft ∨
      (readings key).depth.realDepthSize = 0 ∧ b.Short order (readings key)
  | _ => True

instance (s : Session) : (action : Action) → Decidable (Immediate s action)
  | .insert _ => inferInstanceAs (Decidable True)
  | .cancel _ _ => inferInstanceAs (Decidable True)
  | .turn readings key =>
    inferInstanceAs (Decidable (∀ order ∈ s.broker.activeOrders[key]?, ¬ Done order.status →
      order.timeCondition = .ioc →
        ∀ order' ∈ (s.act (.turn readings key)).broker.activeOrders[key]?, Done order'.status))

variable {t : Tracked} {action : Action}

theorem Follows.keyed (follows : t.Follows) : t.session.broker.Keyed :=
  fun id order entry => (follows id order entry).1

theorem immediate_iff {s : Session} (keyed : s.broker.Keyed) :
    Immediate s action ↔ LeavesNothing s.broker action := by
  cases action with
  | insert input => exact Iff.rfl
  | cancel input now => exact Iff.rfl
  | turn readings key =>
    constructor
    · intro all order entry live ioc
      exact (matchStep_finishes_iff entry (keyed key order entry) live).mp
        (all order entry live ioc)
    · intro all order entry live ioc
      exact (matchStep_finishes_iff entry (keyed key order entry) live).mpr
        (all order entry live ioc)

theorem act_unmade (t : Tracked) (unmade : t.session.broker.made action = none)
    (other : ∀ input, action = .insert input → (t.session.broker.insertOrder input).1 = false) :
    t.act action = { t with session := t.session.act action } := by
  cases action with
  | insert input => simp [act, other input rfl]
  | cancel input now => rfl
  | turn readings key => simp only [act, unmade]

theorem act_made (t : Tracked) {order : Order} {trade : Trade}
    (made : t.session.broker.made action = some (order, trade)) :
    t.act action = { t with
      session := t.session.act action
      traded := Function.update t.traded trade.orderId (t.traded trade.orderId ++ [trade]) } := by
  cases action with
  | insert input => contradiction
  | cancel input now => contradiction
  | turn readings key => simp only [act, made]

theorem act_taken (t : Tracked) {input : OrderInput}
    (taken : (t.session.broker.insertOrder input).1 = true) :
    t.act (.insert input) =
      ⟨t.session.act (.insert input), Function.update t.entered input.orderId (some input),
      Function.update t.traded input.orderId []⟩ := by
  simp only [act, taken, if_true]

theorem act_made_turn (follows : t.Follows) {readings : UInt64 → Reading} {key : UInt64}
    {order : Order} {trade : Trade}
    (made : t.session.broker.made (.turn readings key) = some (order, trade)) :
    t.act (.turn readings key) = { t with
      session := t.session.act (.turn readings key)
      traded := Function.update t.traded key (t.traded key ++ [trade]) } := by
  obtain ⟨volume, entry, _, _, told⟩ := made_turn made
  have own : trade.orderId = key := by
    rw [told]
    exact follows.keyed key order entry
  rw [t.act_made made, own]

/-- Where nothing is traded the orders stand as before. -/
theorem Follows.quiet (follows : t.Follows)
    (rest : Quiet t.session.broker (t.session.act action).broker) :
    Follows { t with session := t.session.act action } := by
  intro id order entry
  rcases rest.orders id with same | ⟨old, status, now, was, is, _⟩
  · exact follows id order (same ▸ entry)
  · cases Option.some.inj (entry.symm.trans is)
    obtain ⟨named, ⟨input, known, before, _, left, _, rfl⟩, untouched⟩ := follows id old was
    exact ⟨named, ⟨input, known, before, now, left, status, rfl⟩, untouched⟩

theorem act_follows (follows : t.Follows) (action : Action) : (t.act action).Follows := by
  cases action with
  | insert input =>
    rcases insertOrder_cases t.session.broker input with refused | taken
    · rw [t.act_unmade rfl fun input' same => by cases same; rw [refused]]
      refine follows.quiet ?_
      change Quiet _ (t.session.broker.insertOrder input).2
      rw [refused]
      exact .refl _
    · have accepted : (t.session.broker.insertOrder input).1 = true := by rw [taken]
      rw [t.act_taken accepted]
      intro id order entry
      change (t.session.broker.insertOrder input).2.activeOrders[id]? = _ at entry
      rw [taken, addOrder_get] at entry
      split at entry
      · rename_i here
        cases entry
        subst here
        exact ⟨rfl, ⟨input, Function.update_self _ _ _, _, _, _, _, rfl⟩, fun _ => rfl⟩
      · rename_i apart
        have away : id ≠ input.orderId := Ne.symm apart
        obtain ⟨named, ⟨input', known, same⟩, untouched⟩ := follows id order entry
        refine ⟨named, ⟨input', (Function.update_of_ne away _ _).trans known, same⟩,
          fun none => untouched ?_⟩
        exact (Function.update_of_ne away _ _).symm.trans none
  | cancel input now =>
    rw [t.act_unmade rfl (by simp)]
    exact follows.quiet (.cancelled _ input now)
  | turn readings key =>
    cases t.session.act_effect follows.keyed (.turn readings key) with
    | quiet idle rest kept =>
      rw [t.act_unmade (by simp [made, idle]) (by simp)]
      exact follows.quiet rest
    | filled _ _ old volume price trade was fill told from_ kept trades positions orders =>
      have made : t.session.broker.made (.turn readings key) =
          some (old, t.session.broker.tradeOf old volume (readings key)) := by
        simp [made, told]
      rw [act_made_turn follows made]
      intro id order entry
      rw [orders id] at entry
      split at entry
      · rename_i here
        subst here
        rw [orderAfter, Option.ite_none_left_eq_some] at entry
        obtain ⟨named, ⟨input, known, _, _, _, _, rfl⟩, _⟩ := follows key old was
        cases entry.2
        exact ⟨named, ⟨input, known, _, _, _, _, rfl⟩, fun none => by simp at none⟩
      · rename_i apart
        obtain ⟨named, entered, untouched⟩ := follows id order entry
        refine ⟨named, entered, fun none => untouched ?_⟩
        exact (Function.update_of_ne (Ne.symm apart) _ _).symm.trans none

theorem act_whole (follows : t.Follows) (whole : t.WholeOrNone) :
    (t.act action).WholeOrNone ↔ t.TradesOnce action := by
  cases action with
  | insert input =>
    refine iff_of_true ?_ trivial
    rcases insertOrder_cases t.session.broker input with refused | taken
    · rw [t.act_unmade rfl fun input' same => by cases same; rw [refused]]
      exact whole
    · rw [t.act_taken (by rw [taken])]
      intro id other known conditions
      by_cases here : id = input.orderId
      · subst here
        exact .inl (Function.update_self _ _ _)
      · simp only [Function.update_of_ne here] at known ⊢
        exact whole id other known conditions
  | cancel input now =>
    rw [t.act_unmade rfl (by simp)]
    exact iff_of_true whole trivial
  | turn readings key =>
    cases made : t.session.broker.made (.turn readings key) with
    | none =>
      rw [t.act_unmade made (by simp)]
      refine iff_of_true whole fun order entry live _ trades => ?_
      obtain ⟨volume, fill⟩ := fillVolume_some_iff.mpr trades
      rw [made_of_fill entry live fill] at made
      contradiction
    | some filled =>
      obtain ⟨order, trade⟩ := filled
      obtain ⟨volume, entry, live, fill, told⟩ := made_turn made
      obtain ⟨_, ⟨input, known, same⟩, untouched⟩ := follows key order entry
      have conditions :
          AllOrNone order ↔ input.timeCondition = .fok ∨ input.volumeCondition = .all := by
        obtain ⟨_, _, _, _, rfl⟩ := same
        rfl
      have asked : order.volume = input.volume := by
        obtain ⟨_, _, _, _, rfl⟩ := same
        rfl
      have amount : trade.volume = volume := by rw [told]; rfl
      rw [act_made_turn follows made]
      constructor
      · intro all order' entry' _ conditioned trades
        cases Option.some.inj (entry.symm.trans entry')
        have traded := all key input known (conditions.mp conditioned)
        simp only [Function.update_self, List.append_eq_nil_iff, List.cons_ne_self, and_false,
          false_or] at traded
        obtain ⟨only, once, amounts⟩ := traded
        obtain ⟨none, alone⟩ | ⟨_, none⟩ := List.append_eq_singleton_iff.mp once
        · cases (List.cons.inj alone).1
          refine ⟨none, fillVolume_all_iff.mp ?_⟩
          rw [fill, untouched none, asked, ← amounts, amount]
        · contradiction
      · intro once id other known' conditioned
        by_cases here : id = key
        · subst here
          cases Option.some.inj (known.symm.trans known')
          obtain ⟨none, all⟩ :=
            once order entry live (conditions.mpr conditioned)
              (fillVolume_some_iff.mp ⟨volume, fill⟩)
          have left := Option.some.inj (fill.symm.trans (fillVolume_all_iff.mpr all))
          refine .inr ⟨trade, by simp [none], ?_⟩
          rw [amount, left, untouched none, asked]
        · simp only [Function.update_of_ne here]
          exact whole id other known' conditioned

/-- The states of a run of events, and its actions with the states they are taken in. -/
def visits (b : BrokerSim) (events : List Event) : List Tracked :=
  Runs.states act (start b) (actions ⟨b, []⟩ events)

def moves (b : BrokerSim) (events : List Event) : List (Tracked × Action) :=
  Runs.moves act (start b) (actions ⟨b, []⟩ events)

/-- Orders that are to be filled at once or not at all are, and those to be filled immediately
or cancelled end with their turn, if and only if every turn meets the two conditions. -/
theorem conditions_honoured_iff (cfg : SimulationCfg) (now : Int64) (events : List Event) :
    ((∀ t ∈ visits ((make now).setup cfg) events, t.WholeOrNone) ∧
      ∀ move ∈ Session.moves ⟨(make now).setup cfg, []⟩ events, Immediate move.1 move.2) ↔
    (∀ move ∈ moves ((make now).setup cfg) events, move.1.TradesOnce move.2) ∧
      ∀ move ∈ Session.moves ⟨(make now).setup cfg, []⟩ events,
        LeavesNothing move.1.broker move.2 := by
  have empty (id : UInt64) (order : Order) :
      ¬ ((make now).setup cfg).activeOrders[id]? = some order := by
    intro entry
    obtain ⟨_, _, absent, _⟩ := traced_start (b := (make now).setup cfg) rfl id order entry
    contradiction
  apply and_congr
  · have kept (t : Tracked) (action : Action) (follows : t.Follows) (_ : True) :
      (t.act action).Follows :=
      act_follows follows action
    have survives (t : Tracked) (action : Action) (follows : t.Follows) (_ : True)
        (whole : t.WholeOrNone) :
        (t.act action).WholeOrNone ↔ t.TradesOnce action := act_whole follows whole
    have started : Follows (start ((make now).setup cfg)) :=
      fun id order entry => absurd entry (empty id order)
    have first : WholeOrNone (start ((make now).setup cfg)) := fun _ _ _ _ => .inl rfl
    exact Runs.states_iff kept survives started first _ fun _ _ => trivial
  · have kept (s : Session) (action : Action) (traced : s.Traced) (_ : True) :
      (s.act action).Traced :=
      act_traced traced action
    have traced := Runs.invariant kept (traced_start (b := (make now).setup cfg) rfl)
      (actions ⟨(make now).setup cfg, []⟩ events) fun _ _ => trivial
    refine forall₂_congr fun move member => immediate_iff ?_
    exact (traced _ (Runs.moves_states _ _ move member).1).keyed

/-- A buy of 300 with these conditions, and one round with asks of 200. -/
def partly (volumeCondition : VolumeCondition) (timeCondition : TimeCondition) : OrderInput :=
  { marketOrder 7 .buy .open_ 300 with
    volumeCondition := volumeCondition
    timeCondition := timeCondition }

def partlyFilled (volumeCondition : VolumeCondition) (timeCondition : TimeCondition) : List Event :=
  [.insert (partly volumeCondition timeCondition), .round fun _ => twoAsks]

/-- Two thirds of a fill or kill order are filled, and an immediate or cancel one stays active. -/
theorem part_is_filled :
    (¬ ∀ t ∈ visits ((make 0).setup defaults) (partlyFilled .all .fok), t.WholeOrNone) ∧
    ¬ ∀ move ∈ Session.moves ⟨(make 0).setup defaults, []⟩ (partlyFilled .any .ioc),
      Immediate move.1 move.2 := by
  constructor
  · intro all
    let run := actions ⟨(make 0).setup defaults, []⟩ (partlyFilled .all .fok)
    have last : run.foldl act (start ((make 0).setup defaults)) ∈
        Runs.states act (start ((make 0).setup defaults)) run :=
      Runs.last_mem _ run
    have entered :
        (run.foldl act (start ((make 0).setup defaults))).entered 7 = some (partly .all .fok) := by
      decide +kernel
    have part :
        ((run.foldl act (start ((make 0).setup defaults))).traded 7).map Trade.volume = [200] := by
      decide +kernel
    rcases all _ last 7 _ entered (.inl rfl) with none | ⟨trade, once, whole⟩
    · simp [none] at part
    · rw [once, List.map_singleton, whole] at part
      revert part
      decide +kernel
  · decide +kernel

end Tracked
end BTrader
