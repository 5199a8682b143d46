import BTrader.Broker.Session

/-! When the volume of every order is what is left of it and what was traded of it. -/
namespace BTrader

namespace BrokerSim

/-- What was asked of an order is what is left of it with what was traded of it, never
less than nothing; it is gone, and not before that filled, when all of it was traded. -/
structure Conserved (b : BrokerSim) (input : OrderInput) : Prop where
  active : ∀ order : Order, b.activeOrders[input.orderId]? = some order →
    order.volume = input.volume ∧ order.volume = order.volumeLeft + b.traded input.orderId ∧
      0 ≤ order.volumeLeft ∧ order.status ≠ .filled
  gone : b.activeOrders[input.orderId]? = none ↔ b.traded input.orderId = input.volume

/-- What a turn fills is a whole number. -/
def FillsWhole (b : BrokerSim) (action : Action) : Prop :=
  ∀ order volume, b.fill action = some (order, volume) → castInt64 volume = volume

theorem traded_append {b b' : BrokerSim} {trade : Trade} (trades : b'.trades = b.trades ++ [trade])
    (id : UInt64) :
    b'.traded id = b.traded id + if trade.orderId = id then trade.volume else 0 := by
  rw [traded, traded, trades, List.filter_append, List.map_append, List.sum_append]
  by_cases here : trade.orderId = id
  · simp [here]
  · simp [here]

theorem Conserved.quiet {b b' : BrokerSim} {input : OrderInput} (kept : b.Conserved input)
    (rest : Quiet b b') :
    b'.Conserved input := by
  have traded : b'.traded input.orderId = b.traded input.orderId := by
    rw [BrokerSim.traded, rest.trades]
    rfl
  obtain ⟨active, gone⟩ := kept
  rcases rest.orders input.orderId with same | ⟨order, status, now, was, is, filled⟩
  · constructor
    · rwa [same, traded]
    · rwa [same, traded]
  · constructor
    · intro order' entry
      cases Option.some.inj (is.symm.trans entry)
      obtain ⟨volume, split, nonneg, open_⟩ := active order was
      rw [traded]
      exact ⟨volume, split, nonneg, fun h => open_ (filled h)⟩
    · rw [traded, is, ← gone, was]
      simp

/-- Another order's trade leaves it conserved. -/
theorem Conserved.congr {b b' : BrokerSim} {input : OrderInput}
    (entry : b'.activeOrders[input.orderId]? = b.activeOrders[input.orderId]?)
    (traded : b'.traded input.orderId = b.traded input.orderId) :
      b'.Conserved input ↔ b.Conserved input := by
  constructor
  · rintro ⟨active, gone⟩
    rw [entry, traded] at active gone
    exact ⟨active, gone⟩
  · rintro ⟨active, gone⟩
    rw [← entry, ← traded] at active gone
    exact ⟨active, gone⟩

/-- A fill keeps its order conserved just when its volume is a whole number. -/
theorem Conserved.fill_iff {b b' : BrokerSim} {input : OrderInput} {order : Order}
    {volume : ℚ} {now : Int64}
    (kept : b.Conserved input) (entry : b.activeOrders[input.orderId]? = some order)
    (bounds : 0 < volume ∧ volume ≤ order.volumeLeft)
    (after : b'.activeOrders[input.orderId]? = orderAfter order volume now)
    (traded : b'.traded input.orderId = b.traded input.orderId + volume) :
    b'.Conserved input ↔ castInt64 volume = volume := by
  obtain ⟨asked, split, nonneg, _⟩ := kept.active order entry
  have cast := castInt64_le bounds.1.le
  constructor
  · rintro ⟨active, gone⟩
    rw [after, traded] at active gone
    by_cases nothing : order.volumeLeft - castInt64 volume = 0
    · have all := gone.mp (if_pos nothing)
      linarith
    · have whole := (active _ (if_neg nothing)).2.1
      dsimp only at whole
      linarith
  · intro whole
    constructor
    · intro order' entry'
      rw [after, orderAfter, Option.ite_none_left_eq_some] at entry'
      cases entry'.2
      rw [traded]
      dsimp only
      exact ⟨asked, by linarith, by linarith, by simp⟩
    · rw [after, orderAfter, traded]
      simp only [ite_eq_left_iff, reduceCtorEq, imp_false, not_not]
      constructor
      · intro nothing
        linarith
      · intro all
        linarith

end BrokerSim

namespace Session
open BrokerSim

/-- The ids of the accepted orders. -/
def ids (s : Session) : List UInt64 := s.accepted.map OrderInput.orderId

/-- Every active order has something left, and only accepted ones were traded. -/
structure Sound (s : Session) : Prop where
  traced : s.Traced
  left : ∀ (id : UInt64) (order : Order), s.broker.activeOrders[id]? = some order →
    0 < order.volumeLeft
  untraded : ∀ id ∉ s.ids, s.broker.traded id = 0

/-- An accepted order is of a positive volume and bears a new id. -/
def Enabled (s : Session) (action : Action) : Prop :=
  ∀ input, action = .insert input → (s.broker.insertOrder input).1 →
    input.orderId ∉ s.ids ∧ 0 < input.volume

theorem act_sound {s : Session} {action : Action} (sound : s.Sound) (enabled : s.Enabled action) :
    (s.act action).Sound := by
  refine ⟨act_traced sound.traced action, ?_, ?_⟩
  · intro id order entry
    cases s.act_effect sound.traced.keyed action with
    | quiet idle rest kept =>
      rcases rest.orders id with same | ⟨old, status, now, was, is, _⟩
      · exact sound.left id order (same ▸ entry)
      · cases Option.some.inj (entry.symm.trans is)
        exact sound.left id old was
    | accepted input taken added trades positions orders =>
      rw [orders id] at entry
      split at entry
      · cases entry
        exact (enabled input rfl taken).2
      · exact sound.left id order entry
    | filled readings key old volume price trade was fill told made kept trades positions orders =>
      rw [orders id] at entry
      split at entry
      · have bounds := fillVolume_bounds (sound.left key old was) fill
        rw [orderAfter, Option.ite_none_left_eq_some] at entry
        obtain ⟨some, entry⟩ := entry
        cases entry
        have := castInt64_le bounds.1.le
        exact lt_of_le_of_ne (by linarith) (Ne.symm some)
      · exact sound.left id order entry
  · intro id unknown
    cases s.act_effect sound.traced.keyed action with
    | quiet idle rest kept =>
      rw [ids, kept] at unknown
      rw [traded, rest.trades]
      exact sound.untraded id unknown
    | accepted input taken added trades positions orders =>
      rw [ids, added, List.map_append, List.mem_append, not_or] at unknown
      rw [traded, trades]
      exact sound.untraded id unknown.1
    | filled readings key old volume price trade was fill told made kept trades positions orders =>
      rw [ids, kept] at unknown
      obtain ⟨own, input, member, named, _⟩ := sound.traced key old was
      have other : trade.orderId ≠ id := by
        rintro rfl
        rw [made] at unknown
        exact unknown (List.mem_map.mpr ⟨input, member, named.trans own.symm⟩)
      rw [traded_append trades, if_neg other, add_zero]
      exact sound.untraded id unknown

/-- One action keeps every accepted order conserved just when what it fills is whole. -/
theorem act_conserved {s : Session} {action : Action} (sound : s.Sound) (enabled : s.Enabled action)
    (kept : ∀ input ∈ s.accepted, s.broker.Conserved input) :
    (∀ input ∈ (s.act action).accepted, (s.act action).broker.Conserved input) ↔
      s.broker.FillsWhole action := by
  cases s.act_effect sound.traced.keyed action with
  | quiet idle rest same =>
    rw [same]
    constructor
    · intro _ order volume fill
      rw [idle] at fill
      contradiction
    · intro _ input member
      exact (kept input member).quiet rest
  | accepted input taken added trades positions orders =>
    obtain ⟨new, positive⟩ := enabled input rfl taken
    have same (id : UInt64) : (s.act (.insert input)).broker.traded id = s.broker.traded id := by
      rw [traded, trades]
      rfl
    constructor
    · intro _ order volume fill
      contradiction
    · intro _ other member
      rw [added, List.mem_append, List.mem_singleton] at member
      rcases member with old | rfl
      · have apart : input.orderId ≠ other.orderId := fun h => new (h ▸ List.mem_map_of_mem old)
        exact (Conserved.congr ((orders _).trans (if_neg apart)) (same _)).mpr (kept other old)
      · have entry := (orders other.orderId).trans (if_pos rfl)
        have nothing := (same other.orderId).trans (sound.untraded _ new)
        constructor
        · intro order active
          cases Option.some.inj (entry.symm.trans active)
          exact ⟨rfl, by rw [nothing]; exact (add_zero _).symm, positive.le, by simp⟩
        · rw [entry, nothing]
          simp only [reduceCtorEq, false_iff]
          exact positive.ne
  | filled readings key order volume price trade entry fill told made same trades
      positions orders =>
    obtain ⟨named, asked, known, from_, _⟩ := sound.traced key order entry
    have own : trade.orderId = key := by
      rw [made]
      exact named
    have amount : trade.volume = volume := by rw [made]; rfl
    have mine (input : OrderInput) (member : input ∈ s.accepted) (here : key = input.orderId) :
        (s.act (.turn readings key)).broker.Conserved input ↔ castInt64 volume = volume := by
      refine Conserved.fill_iff (kept input member) (here ▸ entry)
        (fillVolume_bounds (sound.left key order entry) fill)
        ((orders _).trans (if_pos here)) ?_
      rw [traded_append trades, if_pos (own.trans here), amount]
    constructor
    · intro all order' volume' fill'
      cases Option.some.inj (told.symm.trans fill')
      exact (mine asked known from_.symm).mp (all asked (by rwa [same]))
    · intro whole input member
      rw [same] at member
      by_cases here : key = input.orderId
      · exact (mine input member here).mpr (whole order volume told)
      · refine (Conserved.congr ((orders _).trans (if_neg here)) ?_).mpr (kept input member)
        rw [traded_append trades, own, if_neg here, add_zero]

/-- Where the accepted orders bear different ids, each of them was new when it came. -/
theorem moves_new (s : Session) (actions : List Action)
    (distinct : ((actions.foldl act s).accepted.map OrderInput.orderId).Nodup) :
    ∀ move ∈ Runs.moves act s actions, ∀ input, move.2 = .insert input →
      (move.1.broker.insertOrder input).1 → input.orderId ∉ move.1.ids ∧
        input ∈ (actions.foldl act s).accepted := by
  rintro ⟨t, action⟩ move input given taken
  have grown := (moves_accepted s actions).2 _ move
  dsimp only at given taken grown ⊢
  subst given
  have added : (t.act (.insert input)).accepted = t.accepted ++ [input] := by
    simp only [act, taken, if_true]
  rw [added] at grown
  refine ⟨?_, grown.subset (by simp)⟩
  have apart := distinct.sublist (grown.sublist.map OrderInput.orderId)
  rw [List.map_append, List.nodup_append] at apart
  intro known
  exact apart.2.2 _ known _ (by simp) rfl

theorem moves_enabled (s : Session) (actions : List Action)
    (distinct : ((actions.foldl act s).accepted.map OrderInput.orderId).Nodup)
    (positive : ∀ input ∈ (actions.foldl act s).accepted, 0 < input.volume) :
    ∀ move ∈ Runs.moves act s actions, move.1.Enabled move.2 := by
  intro move member input given taken
  obtain ⟨new, known⟩ := moves_new s actions distinct move member input given taken
  exact ⟨new, positive input known⟩

/-- From a broker without orders and trades, every accepted order stays conserved through a
whole run just when every turn of it fills a whole number. -/
theorem fills_conserved_iff (b : BrokerSim) (events : List Event)
    (noOrders : b.activeOrders.size = 0) (noTrades : b.responses = [])
    (distinct : ((acceptedBy ⟨b, []⟩ events).map OrderInput.orderId).Nodup)
    (positive : ∀ input ∈ acceptedBy ⟨b, []⟩ events, 0 < input.volume) :
    (∀ s ∈ visits ⟨b, []⟩ events, ∀ input ∈ s.accepted, s.broker.Conserved input) ↔
      ∀ move ∈ moves ⟨b, []⟩ events, move.1.broker.FillsWhole move.2 := by
  have traced := traced_start noOrders
  have started : Sound ⟨b, []⟩ := by
    refine ⟨traced, fun id order entry => ?_, fun id _ => ?_⟩
    · obtain ⟨_, _, absent, _⟩ := traced id order entry
      contradiction
    · simp [BrokerSim.traded, trades, noTrades]
  have first :
      ∀ input ∈ (⟨b, []⟩ : Session).accepted, (⟨b, []⟩ : Session).broker.Conserved input := by
    simp
  exact Runs.states_iff (fun s action => act_sound) (fun s action => act_conserved) started first _
    (moves_enabled _ _ distinct positive)

/-- An order, and two rounds without any depth. -/
def twoRounds (input : OrderInput) : List Event :=
  [.insert input, .round fun _ => .noDepth, .round fun _ => .noDepth]

theorem fills_conserved_iff_three :
    (∀ s ∈ visits ⟨idle, []⟩ (twoRounds (marketOrder 7 .sell .open_ 3)),
        ∀ input ∈ s.accepted, s.broker.Conserved input) ↔
      ∀ move ∈ moves ⟨idle, []⟩ (twoRounds (marketOrder 7 .sell .open_ 3)),
        move.1.broker.FillsWhole move.2 :=
  fills_conserved_iff idle (twoRounds (marketOrder 7 .sell .open_ 3)) rfl rfl (by decide +kernel)
    (by decide +kernel)

/-- Half a unit is traded in full, and the order stays active with half a unit left. -/
theorem half_not_conserved :
    ∃ s ∈ visits ⟨idle, []⟩ (twoRounds (marketOrder 7 .sell .open_ (1 / 2))),
      ∃ input ∈ s.accepted, ¬ s.broker.Conserved input := by
  have drift : ∃ s ∈ visits ⟨idle, []⟩ (twoRounds (marketOrder 7 .sell .open_ (1 / 2))),
      ∃ input ∈ s.accepted, s.broker.traded input.orderId = input.volume ∧
        s.broker.activeOrders[input.orderId]? ≠ none := by
    decide +kernel
  obtain ⟨s, visited, input, member, all, active⟩ := drift
  exact ⟨s, visited, input, member, fun kept => active (kept.gone.mpr all)⟩

end Session
end BTrader
