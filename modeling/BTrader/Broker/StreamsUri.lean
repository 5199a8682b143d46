import BTrader.Broker.Subscriptions

/-! When the URI that a reconnection opens names what is subscribed. -/
namespace BTrader.BinanceData.Subscriptions

def defaultUri (s : Subscriptions) : String := s.setDefaultStreams.uri

/-- The URI names the streams of the subscribed symbols, in some order, and of each symbol once. -/
def Tracked.Names (t : Tracked) : Prop :=
  (t.symbols = ∅ → t.service.uri = t.service.defaultUri) ∧
    (t.symbols ≠ ∅ → ∃ symbols names, symbols.Nodup ∧
      (∀ symbol, symbol ∈ symbols ↔ symbol ∈ t.symbols) ∧
      names.Perm (t.service.streams symbols) ∧ t.service.uri = streamsUri names)

/-- The call goes through. -/
def Tracked.Succeeds (t : Tracked) : Call → Prop
  | .subscribe written keys => t.service.accepts written keys = true
  | .unsubscribe written keys => t.service.accepts written keys = true
  | .clearSubscriptions => True
  | .connection _ => False

/-- The symbols of the entries that the keys do not take out, one entry for each key. -/
def Tracked.left (t : Tracked) (keys : List InstrumentKey) : List String :=
  ((t.service.subscribedInstruments.map InstrumentKey.symbol).diff
    (keys.map InstrumentKey.symbol)).map String.toLower

/-- No `erase` of an `unsubscribe` brings a string to a place where a longer one was. -/
def Tracked.Whole (t : Tracked) : Call → Prop
  | .unsubscribe written keys => t.service.accepts written keys = true →
    ∀ erasure ∈ Runs.moves eraseKey t.service.subscribedInstruments keys, Shifts erasure.1 erasure.2
  | _ => True

/-- What a call that goes through must find: a `subscribe` names the symbols again that are
subscribed. An `unsubscribe` leaves one entry for each symbol that stays, or entries with the
default streams and no symbol. -/
def Tracked.Restores (t : Tracked) : Call → Prop
  | .subscribe written keys => t.service.accepts written keys = true →
    ∀ symbol ∈ t.symbols, symbol ∈ keys.map InstrumentKey.lower
  | .unsubscribe written keys => t.service.accepts written keys = true →
    ((t.left keys).Nodup ∧ ∀ symbol ∈ t.left keys, symbol ∈ t.symbols ∧
      symbol ∉ keys.map InstrumentKey.lower) ∨
      ((∀ symbol ∈ t.symbols, symbol ∈ keys.map InstrumentKey.lower) ∧ t.left keys ≠ [] ∧
        streamsUri (t.service.streams (t.left keys)) = t.service.defaultUri)
  | .clearSubscriptions => t.service.subscribedInstruments = [] →
      t.service.uri = t.service.defaultUri
  | .connection _ => True

section Lengths

/-- Lists of which one has the elements of the other, and whose elements weigh the same. -/
theorem perm_of_weight {α : Type*} {weight : α → ℕ} (positive : ∀ a, 0 < weight a) {l k : List α}
    (sub : l.Subperm k) (same : (l.map weight).sum = (k.map weight).sum) : l.Perm k := by
  obtain ⟨inside, perm, sublist⟩ := sub
  have rest := (perm.map weight).sum_eq
  have equal : inside = k := by
    apply sublist.eq_of_length_le
    by_contra shorter
    have smaller : (inside.map weight).sum < (k.map weight).sum := by
      clear rest same perm
      induction sublist with
      | slnil => simp at shorter
      | cons a sub ih =>
        have le := (sub.map weight).sum_le_sum fun _ _ => Nat.zero_le _
        rw [List.map_cons, List.sum_cons]
        exact (Nat.lt_add_of_pos_left (positive a)).trans_le' le
      | cons_cons a sub ih =>
        rw [List.map_cons, List.map_cons, List.sum_cons, List.sum_cons]
        simp only [List.length_cons, Nat.add_le_add_iff_right] at shorter
        exact Nat.add_lt_add_left (ih shorter) _
    omega
  rw [equal] at perm
  exact perm.symm

theorem intercalate_length {names : List String} (some : names ≠ []) :
    ("/".intercalate names).length + 1 = (names.map fun name => name.length + 1).sum := by
  induction names with
  | nil => contradiction
  | cons name names ih =>
    cases names with
    | nil => simp
    | cons next names =>
      rw [String.intercalate_cons_cons, String.length_append, String.length_append, List.map_cons,
        List.sum_cons, ← ih (by simp)]
      have slash : "/".length = 1 := rfl
      rw [slash]
      omega

theorem streams_weight (s : Subscriptions) (symbols : List String) :
    ((s.streams symbols).map fun name => name.length + 1).sum =
      (symbols.map fun symbol =>
        ((s.streams [symbol]).map fun name => name.length + 1).sum).sum := by
  induction symbols with
  | nil => rfl
  | cons symbol symbols ih =>
    have split : s.streams (symbol :: symbols) = s.streams [symbol] ++ s.streams symbols := by
      simp [streams]
    rw [split, List.map_append, List.sum_append, ih, List.map_cons, List.sum_cons]

theorem streams_ne_nil {s : Subscriptions} (enabled : (s.enableKline || s.enableDepth) = true)
    {symbols : List String} (some : symbols ≠ []) : s.streams symbols ≠ [] := by
  rw [Ne, streams_eq_nil, enabled]
  simpa using some

/-- Two URIs are of one length only when they name the same streams, where one of them names no
other streams than the other. -/
theorem perm_of_uri {s : Subscriptions} (enabled : (s.enableKline || s.enableDepth) = true)
    {symbols others : List String} (some : symbols ≠ []) (some' : others ≠ [])
    (sub : symbols.Subperm others ∨ others.Subperm symbols)
    {names : List String} (perm : names.Perm (s.streams symbols))
    (same : streamsUri names = streamsUri (s.streams others)) : symbols.Perm others := by
  have positive (symbol : String) :
      0 < ((s.streams [symbol]).map fun name => name.length + 1).sum := by
    obtain ⟨name, rest, split⟩ :=
      List.exists_cons_of_ne_nil (streams_ne_nil enabled (List.cons_ne_nil symbol []))
    rw [split, List.map_cons, List.sum_cons]
    omega
  have named : names ≠ [] :=
    fun none => streams_ne_nil enabled some (List.nil_perm.mp (none ▸ perm))
  have lengths := congrArg String.length same
  simp only [streamsUri, String.length_append, Nat.add_left_cancel_iff] at lengths
  have weights : ((s.streams symbols).map fun name => name.length + 1).sum =
      ((s.streams others).map fun name => name.length + 1).sum := by
    rw [← (perm.map _).sum_eq, ← intercalate_length named,
      ← intercalate_length (streams_ne_nil enabled some'), lengths]
  rw [streams_weight, streams_weight] at weights
  rcases sub with sub | sub
  · exact perm_of_weight positive sub weights
  · exact (perm_of_weight positive sub weights.symm).symm

end Lengths

section Calls
variable {s s' : Subscriptions} {written : Bool} {keys : List InstrumentKey}

theorem updateStreamsUri_named {symbols : List String} (named : s.streams symbols ≠ []) :
    s.updateStreamsUri symbols = { s with uri := streamsUri (s.streams symbols) } := if_neg named

theorem subscribe_accepted (accepted : s.accepts written keys = true) :
    (s.subscribe written keys).2.2 =
    { s with
      uri := streamsUri (s.streams (symbolsOf keys))
      subscribedInstruments := s.subscribedInstruments ++ keys
      subscriptionIdCounter := s.subscriptionIdCounter + 1 } := by
  simp only [accepts, Bool.and_eq_true, Bool.not_eq_true', List.isEmpty_eq_false_iff] at accepted
  obtain ⟨⟨⟨some, up⟩, enabled⟩, rfl⟩ := accepted
  have named : s.streams (symbolsOf keys) ≠ [] :=
    streams_ne_nil enabled ((symbolsOf_eq_nil keys).not.mpr some)
  obtain ⟨uri, defaultSymbol, isConnected, enableKline, enableDepth, klineInterval, depthLevels,
      instruments, counter⟩ := s
  obtain rfl : isConnected = true := up
  simp only [subscribe, some, if_false, Bool.not_true, Bool.false_eq_true, named, request]
  have updated := updateStreamsUri_named
    (s := ⟨uri, defaultSymbol, true, enableKline, enableDepth, klineInterval, depthLevels,
      instruments, counter + 1⟩) named
  rw [updated]
  rfl

theorem unsubscribe_accepted (accepted : s.accepts written keys = true) :
    (s.unsubscribe written keys).2.2 =
    { s with
      uri :=
        if removeKeys s.subscribedInstruments keys = [] then s.defaultUri
        else streamsUri (s.streams
          ((removeKeys s.subscribedInstruments keys).map InstrumentKey.lower))
      subscribedInstruments := removeKeys s.subscribedInstruments keys
      subscriptionIdCounter := s.subscriptionIdCounter + 1 } := by
  simp only [accepts, Bool.and_eq_true, Bool.not_eq_true', List.isEmpty_eq_false_iff] at accepted
  obtain ⟨⟨⟨some, up⟩, enabled⟩, rfl⟩ := accepted
  have named : s.streams (keys.map InstrumentKey.lower) ≠ [] :=
    streams_ne_nil enabled (List.map_eq_nil_iff.not.mpr some)
  obtain ⟨uri, defaultSymbol, isConnected, enableKline, enableDepth, klineInterval, depthLevels,
      instruments, counter⟩ := s
  obtain rfl : isConnected = true := up
  simp only [unsubscribe, some, if_false, Bool.not_true, Bool.false_eq_true, named, request]
  by_cases none : removeKeys instruments keys = []
  · simp only [none, ne_eq, not_true, if_false, if_true]
    rfl
  · have left :
      streams ⟨uri, defaultSymbol, true, enableKline, enableDepth, klineInterval, depthLevels,
      instruments, counter⟩
        ((removeKeys instruments keys).map InstrumentKey.lower) ≠ [] :=
      streams_ne_nil enabled (List.map_eq_nil_iff.not.mpr none)
    simp only [none, ne_eq, not_false_eq_true, if_true, if_false]
    exact updateStreamsUri_named left

theorem clear_uri (s : Subscriptions) :
    s.clearSubscriptions.2.uri = if s.subscribedInstruments = [] then s.uri else s.defaultUri := by
  unfold clearSubscriptions
  split
  · rfl
  · dsimp only
    split <;> rfl

theorem clear_defaultUri (s : Subscriptions) :
    s.clearSubscriptions.2.defaultUri = s.defaultUri := by
  unfold clearSubscriptions
  split
  · rfl
  · dsimp only
    split <;> rfl

end Calls

section Steps

/-- Each subscribed symbol has an entry. -/
def Tracked.Covered (t : Tracked) : Prop :=
  ∀ symbol ∈ t.symbols, symbol ∈ t.service.getSubscribedSymbols

variable {t : Tracked}

theorem mem_left {keys : List InstrumentKey} {symbol : String}
    (here : symbol ∈ t.service.getSubscribedSymbols)
    (unnamed : symbol ∉ keys.map InstrumentKey.lower) : symbol ∈ t.left keys := by
  obtain ⟨entry, present, rfl⟩ := List.mem_map.mp here
  refine List.mem_map_of_mem
    (List.mem_diff_of_mem (List.mem_map_of_mem present) fun there => unnamed ?_)
  obtain ⟨key, among, equal⟩ := List.mem_map.mp there
  exact List.mem_map.mpr ⟨key, among, congrArg String.toLower equal⟩

/-- The symbols that the loop leaves. -/
theorem removeKeys_left {keys : List InstrumentKey}
    (shifts :
      ∀ erasure ∈ Runs.moves eraseKey t.service.subscribedInstruments keys,
      Shifts erasure.1 erasure.2) :
    (removeKeys t.service.subscribedInstruments keys).map InstrumentKey.lower = t.left keys := by
  rw [Tracked.left, ← removeKeys_symbols shifts, List.map_map]
  rfl

theorem act_covered (covered : t.Covered) (c : Call) (whole : t.Whole c) : (t.act c).Covered := by
  intro symbol member
  cases c with
  | subscribe written keys =>
    have stored := subscribe_instruments t.service written keys
    simp only [Tracked.act, getSubscribedSymbols, stored] at member ⊢
    split at member
    · rename_i success
      rw [if_pos success, List.map_append, List.mem_append]
      exact member.imp (covered symbol) id
    · rename_i failed
      rw [if_neg failed]
      exact covered symbol member
  | unsubscribe written keys =>
    have stored := unsubscribe_instruments t.service written keys
    simp only [Tracked.act, getSubscribedSymbols, stored] at member ⊢
    split at member
    · rename_i success
      rw [if_pos success, removeKeys_left (whole (unsubscribe_success .. ▸ success))]
      exact mem_left (covered symbol member.1) member.2
    · rename_i failed
      rw [if_neg failed]
      exact covered symbol member
  | clearSubscriptions => exact absurd member (Set.notMem_empty symbol)
  | connection isUp => exact covered symbol member

/-- A URI that is made from some symbols is the right one just when they are those subscribed,
each once. -/
theorem names_iff {service : Subscriptions} {subscribed : Set String} (symbols : List String)
    (enabled : (service.enableKline || service.enableDepth) = true)
    (uri : service.uri = streamsUri (service.streams symbols)) (some : symbols ≠ [])
    (subscribes : subscribed ≠ ∅)
    (inside : (symbols.Nodup ∧ ∀ symbol ∈ symbols, symbol ∈ subscribed) ∨
      ∀ symbol ∈ subscribed, symbol ∈ symbols) :
    Tracked.Names ⟨service, subscribed⟩ ↔ symbols.Nodup ∧ ∀ symbol, symbol ∈ symbols ↔
      symbol ∈ subscribed := by
  constructor
  · rintro ⟨_, names⟩
    obtain ⟨listed, names, distinct, same, perm, made⟩ := names subscribes
    have filled : listed ≠ [] := by
      obtain ⟨symbol, member⟩ := Set.nonempty_iff_ne_empty.mpr subscribes
      exact List.ne_nil_of_mem ((same symbol).mpr member)
    have sub : listed.Subperm symbols ∨ symbols.Subperm listed := by
      rcases inside with ⟨new, known⟩ | all
      · exact .inr (List.subperm_of_subset new fun symbol here =>
          (same symbol).mpr (known symbol here))
      · exact .inl (List.subperm_of_subset distinct fun symbol here =>
          all symbol ((same symbol).mp here))
    have equal := perm_of_uri enabled filled some sub perm (made.symm.trans uri)
    exact ⟨equal.nodup_iff.mp distinct, fun symbol => equal.mem_iff.symm.trans (same symbol)⟩
  · rintro ⟨distinct, same⟩
    exact ⟨fun none => absurd none subscribes, fun _ => ⟨symbols, _, distinct, same, .refl _, uri⟩⟩

theorem enabled_of_accepts {s : Subscriptions} {written : Bool} {keys : List InstrumentKey}
    (accepted : s.accepts written keys = true) :
      (s.enableKline || s.enableDepth) = true ∧ keys ≠ [] := by
  simp only [accepts, Bool.and_eq_true, Bool.not_eq_true', List.isEmpty_eq_false_iff] at accepted
  exact ⟨accepted.1.2, accepted.1.1.1⟩

theorem subscribe_names (t : Tracked) {written : Bool} {keys : List InstrumentKey}
    (accepted : t.service.accepts written keys = true) :
    (t.act (.subscribe written keys)).Names ↔
      ∀ symbol ∈ t.symbols, symbol ∈ keys.map InstrumentKey.lower := by
  obtain ⟨enabled, filled⟩ := enabled_of_accepts accepted
  obtain ⟨distinct, same⟩ := symbolsOf_spec keys
  have success := subscribe_success t.service written keys
  rw [accepted] at success
  simp only [Tracked.act, success, if_true, subscribe_accepted accepted]
  obtain ⟨key, rest, rfl⟩ := List.exists_cons_of_ne_nil filled
  have first : key.lower ∈ (key :: rest).map InstrumentKey.lower := by simp
  refine (names_iff (symbolsOf (key :: rest)) ?_ ?_ ?_ ?_ ?_).trans ?_
  · exact enabled
  · rfl
  · exact (symbolsOf_eq_nil _).not.mpr filled
  · exact Set.nonempty_iff_ne_empty.mp ⟨key.lower, .inr first⟩
  · exact .inl ⟨distinct, fun symbol here => .inr ((same symbol).mp here)⟩
  · constructor
    · rintro ⟨_, named⟩ symbol member
      exact (same symbol).mp ((named symbol).mpr (.inl member))
    · intro again
      refine ⟨distinct, fun symbol => ?_⟩
      rw [same]
      constructor
      · exact .inr
      · rintro (old | new)
        · exact again symbol old
        · exact new

theorem unsubscribe_names (covered : t.Covered) {written : Bool} {keys : List InstrumentKey}
    (accepted : t.service.accepts written keys = true)
    (shifts :
      ∀ erasure ∈ Runs.moves eraseKey t.service.subscribedInstruments keys,
      Shifts erasure.1 erasure.2) :
    (t.act (.unsubscribe written keys)).Names ↔
      ((t.left keys).Nodup ∧ ∀ symbol ∈ t.left keys, symbol ∈ t.symbols ∧
        symbol ∉ keys.map InstrumentKey.lower) ∨
      ((∀ symbol ∈ t.symbols, symbol ∈ keys.map InstrumentKey.lower) ∧ t.left keys ≠ [] ∧
        streamsUri (t.service.streams (t.left keys)) = t.service.defaultUri) := by
  obtain ⟨enabled, filled⟩ := enabled_of_accepts accepted
  have success := unsubscribe_success t.service written keys
  rw [accepted] at success
  simp only [Tracked.act, success, if_true, unsubscribe_accepted accepted]
  have none_iff : removeKeys t.service.subscribedInstruments keys = [] ↔ t.left keys = [] := by
    rw [← removeKeys_left shifts, List.map_eq_nil_iff]
  rw [removeKeys_left shifts]
  have stays : ∀ symbol ∈ t.symbols \ {symbol | symbol ∈ keys.map InstrumentKey.lower},
      symbol ∈ t.left keys :=
    fun symbol member => mem_left (covered symbol member.1) member.2
  by_cases gone : t.symbols \ {symbol | symbol ∈ keys.map InstrumentKey.lower} = ∅
  · have named : ∀ symbol ∈ t.symbols, symbol ∈ keys.map InstrumentKey.lower :=
      Set.sdiff_eq_empty.mp gone
    by_cases none : t.left keys = []
    · refine iff_of_true ⟨fun _ => if_pos (none_iff.mpr none), fun some => absurd gone some⟩
        (.inl ?_)
      simp [none]
    · constructor
      · rintro ⟨uri, _⟩
        have uri := uri gone
        rw [if_neg (none_iff.not.mpr none)] at uri
        exact .inr ⟨named, none, uri⟩
      · rintro (⟨_, stay⟩ | ⟨_, _, uri⟩)
        · obtain ⟨symbol, rest, split⟩ := List.exists_cons_of_ne_nil none
          have here := stay symbol (split ▸ List.mem_cons_self)
          exact absurd (named symbol here.1) here.2
        · refine ⟨fun _ => ?_, fun some => absurd gone some⟩
          rw [if_neg (none_iff.not.mpr none)]
          exact uri
  · obtain ⟨symbol, member⟩ := Set.nonempty_iff_ne_empty.mpr gone
    have some : t.left keys ≠ [] := List.ne_nil_of_mem (stays symbol member)
    refine (names_iff (t.left keys) ?_ ?_ some gone (.inr stays)).trans ?_
    · exact enabled
    · exact if_neg (none_iff.not.mpr some)
    · constructor
      · rintro ⟨distinct, same⟩
        exact .inl ⟨distinct, fun symbol here => (same symbol).mp here⟩
      · rintro (⟨distinct, stay⟩ | ⟨named, _⟩)
        · exact ⟨distinct, fun symbol => ⟨stay symbol, stays symbol⟩⟩
        · exact absurd (named symbol member.1) member.2

/-- A call that goes through leaves the right URI just when it meets the condition. -/
theorem act_names (covered : t.Covered) (c : Call) (whole : t.Whole c) :
    (t.Succeeds c → (t.act c).Names) ↔ t.Restores c := by
  cases c with
  | subscribe written keys => exact forall_congr' fun accepted => subscribe_names t accepted
  | unsubscribe written keys =>
    exact forall_congr' fun accepted => unsubscribe_names covered accepted (whole accepted)
  | clearSubscriptions =>
    have uri := clear_uri t.service
    simp only [Tracked.Succeeds, true_implies, Tracked.act, Tracked.Names, Tracked.Restores,
      clear_defaultUri, ne_eq, not_true, false_implies, and_true, uri]
    split
    · rename_i none
      simp [none]
    · rename_i some
      simp [some]
  | connection isUp => exact iff_of_true (fun none => none.elim) trivial

end Steps

theorem moves_covered (s : Subscriptions) (calls : List Call)
    (whole : ∀ move ∈ Runs.moves Tracked.act (.fresh s) calls, move.1.Whole move.2) :
    ∀ move ∈ Runs.moves Tracked.act (.fresh s) calls, move.1.Covered := by
  have start : (Tracked.fresh s).Covered :=
    fun symbol member => absurd member (Set.notMem_empty symbol)
  have kept (t : Tracked) (c : Call) (covered : t.Covered) (whole : t.Whole c) :
      (t.act c).Covered :=
    act_covered covered c whole
  have covered := Runs.invariant kept start calls whole
  exact fun move member => covered _ (Runs.moves_states _ _ move member).1

/-- In a run whose calls all meet the conditions the URI is the right one after each call that goes
through, whatever it was at the start. Of the runs that garble no entry only these keep it right. -/
theorem uri_iff (s : Subscriptions) (calls : List Call) :
    ((∀ move ∈ Runs.moves Tracked.act (.fresh s) calls, move.1.Whole move.2 ∧
      move.1.Restores move.2) →
      ∀ move ∈ Runs.moves Tracked.act (.fresh s) calls, move.1.Succeeds move.2 →
        (move.1.act move.2).Names) ∧
    ((∀ move ∈ Runs.moves Tracked.act (.fresh s) calls, move.1.Whole move.2) →
      (∀ move ∈ Runs.moves Tracked.act (.fresh s) calls, move.1.Succeeds move.2 →
        (move.1.act move.2).Names) →
      ∀ move ∈ Runs.moves Tracked.act (.fresh s) calls, move.1.Restores move.2) := by
  constructor
  · intro meets move member
    have covered := moves_covered s calls (fun move member => (meets move member).1) move member
    exact (act_names covered move.2 (meets move member).1).mpr (meets move member).2
  · intro whole names move member
    have covered := moves_covered s calls whole move member
    exact (act_names covered move.2 (whole move member)).mp (names move member)

/-- The symbol is subscribed once more with a second one. -/
theorem uri_iff_again :
    ∀ move ∈ Runs.moves Tracked.act (.fresh connected)
      [.subscribe true [upper], .subscribe true [upper, other]],
      move.1.Succeeds move.2 → (move.1.act move.2).Names := by
  refine (uri_iff connected _).1 ?_
  simp only [Runs.moves, List.forall_mem_cons, List.not_mem_nil, false_implies,
    implies_true, and_true]
  refine ⟨⟨trivial, fun _ symbol member => absurd member (Set.notMem_empty symbol)⟩, trivial,
    fun _ symbol member => ?_⟩
  have subscribes : (Tracked.fresh connected).service.accepts true [upper] = true := rfl
  have success := subscribe_success (Tracked.fresh connected).service true [upper]
  simp only [Tracked.act, success, subscribes, if_true] at member
  rcases member with before | now
  · exact absurd before (Set.notMem_empty symbol)
  · exact List.mem_map.mpr ⟨upper, List.mem_cons_self, (List.mem_singleton.mp now).symm⟩

/-- After a second symbol the URI names this one only. -/
theorem second_named_alone : ¬ ∀ (s : Subscriptions) (calls : List Call),
    ∀ move ∈ Runs.moves Tracked.act (.fresh s) calls, move.1.Succeeds move.2 →
      (move.1.act move.2).Names := by
  intro claim
  have second :=
    claim connected [.subscribe true [upper], .subscribe true [other]] _ (.tail _ (.head _))
  generalize reached : (Tracked.fresh connected).act (.subscribe true [upper]) = t at second
  have success := subscribe_success (Tracked.fresh connected).service true [upper]
  have subscribes : (Tracked.fresh connected).service.accepts true [upper] = true := rfl
  have accepted : t.service.accepts true [other] = true := by
    rw [← reached, Tracked.act, subscribe_accepts]
    rfl
  have first : upper.lower ∈ t.symbols := by
    simp only [← reached, Tracked.act, success, subscribes, if_true]
    exact .inr List.mem_cons_self
  have named := (subscribe_names t accepted).mp (second accepted) _ first
  exact absurd (List.mem_singleton.mp named) lower_other

end BTrader.BinanceData.Subscriptions
