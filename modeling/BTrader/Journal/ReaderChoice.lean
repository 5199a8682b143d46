import BTrader.Journal.MergeOrder

/-! What `dataAvailable` chooses in any state the reader can be in, whatever the clock
reads: the journals, the positions and the stale `current` are arbitrary. -/
namespace BTrader
open ByteMemory Infra Procedure

namespace Reader

/-- The time of the frame at the journal's cursor, when that frame has data. -/
def front (store : FileStore) (entry : UInt64 × Journal) : Option Int64 :=
  match entry.2.page with
  | none => none
  | some page =>
    let m := (store entry.1).bytes page.pageId
    if FrameUnit.hasData m entry.2.frame = true then some (FrameUnit.genTime m entry.2.frame)
    else none

def fronts (s : Reader × FileStore) : List (UInt64 × Option Int64) :=
  s.1.journals.map fun entry => (entry.1, front s.2 entry)

/-- The frame at the cursor of that joined journal has data and bears that time. -/
def Offers (s : Reader × FileStore) (key : UInt64) (time : Int64) : Prop :=
  (key, some time) ∈ fronts s

/-- No joined journal offers an earlier frame. -/
def Earliest (s : Reader × FileStore) (key : UInt64) (time : Int64) : Prop :=
  OrderedMerge.Earliest (fronts s) key time

/-- The choice `dataAvailable` should make: a journal that offers an earliest frame, and
no journal only when none offers a frame. -/
def Chooses (now : Int64) (s : Reader × FileStore) : Prop :=
  ∃ b r, dataAvailable now s = .ok b (r, s.2) ∧
    ((∃ key time, Offers s key time) →
      b = true ∧ ∃ key time m a, r.current = some key ∧ Earliest s key time ∧
        currentFrame (r, s.2) = .ok (m, a) (r, s.2) ∧ FrameUnit.hasData m a = true ∧
        FrameUnit.genTime m a = time) ∧
    ((∀ key time, ¬ Offers s key time) → b = false)

/-- One call of the reader, with its clock readings. -/
inductive Call where
  | join (location : JLocation) (destId : UInt32) (fromTime : Int64) (pageRollbackSize : Nat)
      (order : List (UInt64 × Journal) → List (UInt64 × Journal))
      (perm : ∀ entries, (order entries).Perm entries) (now : Int64)
  | disjoin (locationUid : UInt32) (now : Int64)
  | disjoinChannel (locationUid destId : UInt32) (now : Int64)
  | seekToTime (time now : Int64)
  | next (now : Int64)
  | dataAvailable (now : Int64)

def Call.run : Call → ReaderM Unit
  | join location destId fromTime pageRollbackSize order _ now =>
    Reader.join location destId fromTime pageRollbackSize order now
  | disjoin locationUid now => Reader.disjoin locationUid now
  | disjoinChannel locationUid destId now => Reader.disjoinChannel locationUid destId now
  | seekToTime time now => Reader.seekToTime time now
  | next now => Reader.next now
  | dataAvailable now => do
    let _ ← Reader.dataAvailable now

/-- The states of a reader among writers that do what they like to the files. A call may
return or throw. -/
inductive Reachable : Reader × FileStore → Prop
  | start (isLazy : Bool) (store : FileStore) : Reachable (make isLazy, store)
  | call (c : Call) (reached : Reachable s) : Reachable (after c.run s)
  | files (store' : FileStore) (reached : Reachable (r, store)) : Reachable (r, store')

section Parts

theorem currentFrame_after (s : Reader × FileStore) : after currentFrame s = s := by
  obtain ⟨r, store⟩ := s
  cases current : r.current with
  | none => simp [after, currentFrame, current]
  | some k =>
    cases found : r.find k with
    | none => simp [after, currentFrame, current, found]
    | some j => cases page : j.page <;> simp [after, currentFrame, current, found, page]

/-- What the parts of a call keep: a step of one journal, a sort, and a loss of entries and of
`current`. -/
structure KeptByParts (P : Reader × FileStore → Prop) : Prop where
  journal : ∀ {α : Type} (key : UInt64) (x : JournalM α), Keeps P (onJournal key x)
  sort : ∀ now, Keeps P (sort now)
  drop : ∀ {journals' : List (UInt64 × Journal) → List (UInt64 × Journal)},
    (∀ entries, List.Sublist (journals' entries) entries) →
      Keeps P (modify fun s =>
        ({ s.1 with journals := journals' s.1.journals, current := none }, s.2) : ReaderM Unit)

namespace KeptByParts
variable {P : Reader × FileStore → Prop} (parts : KeptByParts P)
include parts

/-- The end of `join`: sort unless a journal is being read. -/
theorem sortIdle (now : Int64) :
    Keeps P (do if (← get).1.current = none then Reader.sort now : ReaderM Unit) :=
  keeps_bind keeps_get fun _ => keeps_branch _ (parts.sort now) (keeps_pure _)

theorem next (now : Int64) : Keeps P (Reader.next now) := by
  refine keeps_bind keeps_get fun s => ?_
  cases s.1.current with
  | none => exact parts.sort now
  | some key => exact keeps_bind (parts.journal key _) fun _ => parts.sort now

theorem dataAvailable (now : Int64) : Keeps P (Reader.dataAvailable now) := by
  have read : Keeps P currentFrame := by
    intro s holds
    rwa [currentFrame_after]
  refine keeps_bind (parts.sort now) fun _ => keeps_bind keeps_get fun s => ?_
  exact keeps_branch _ (keeps_pure _) (keeps_bind read fun _ => keeps_pure _)

/-- A call keeps what its parts keep, a join provided. -/
theorem call {c : Call} (joins : ∀ location destId fromTime pageRollbackSize order perm now,
    c = .join location destId fromTime pageRollbackSize order perm now → Keeps P c.run) :
      Keeps P c.run := by
  cases c with
  | join location destId fromTime pageRollbackSize order perm now => exact joins _ _ _ _ _ _ _ rfl
  | disjoin locationUid now =>
    exact keeps_bind (parts.drop fun _ => List.filter_sublist) fun _ => parts.sort now
  | disjoinChannel locationUid destId now =>
    exact keeps_bind (parts.drop fun _ => List.eraseP_sublist) fun _ => parts.sort now
  | seekToTime time now =>
    exact keeps_bind keeps_get fun s => keeps_bind (keeps_forM (fun _ => parts.journal _ _) _)
      fun _ => parts.sort now
  | next now => exact parts.next now
  | dataAvailable now => exact keeps_bind (parts.dataAvailable now) fun _ => keeps_pure _

end KeptByParts

end Parts

/-- The joined journals have different keys, and `current` is one of them. -/
structure Indexed (s : Reader × FileStore) : Prop where
  keys : (s.1.journals.map Prod.fst).Nodup
  current : ∀ key, s.1.current = some key → key ∈ s.1.journals.map Prod.fst

section Reachability

theorem Indexed.congr {s t : Reader × FileStore} (indexed : Indexed s)
    (keys : t.1.journals.map Prod.fst = s.1.journals.map Prod.fst)
    (current : t.1.current = s.1.current) :
    Indexed t := by
  constructor
  · rw [keys]
    exact indexed.keys
  · rw [keys, current]
    exact indexed.current

/-- Moving one journal leaves the keys, the other entries and `current`. -/
theorem onJournal_rest (key : UInt64) (x : JournalM α) (s : Reader × FileStore) :
    (after (onJournal key x) s).1.journals.map Prod.fst = s.1.journals.map Prod.fst ∧
      (∀ entry, entry.1 ≠ key →
        (entry ∈ (after (onJournal key x) s).1.journals ↔ entry ∈ s.1.journals)) ∧
      (after (onJournal key x) s).1.current = s.1.current := by
  obtain ⟨r, store⟩ := s
  have replaced (j : Journal) (entry : UInt64 × Journal) (other : entry.1 ≠ key) :
      entry ∈ (r.replace key j).journals ↔ entry ∈ r.journals := by
    constructor
    · intro member
      rcases mem_replace member with rfl | ⟨_, old⟩
      · exact absurd rfl other
      · exact old
    · intro member
      exact List.mem_map.mpr ⟨entry, member, if_neg other⟩
  cases found : r.find key with
  | none => simp [after, onJournal, found]
  | some j =>
    cases ran : x (j, store key) with
    | ok a t =>
      simp only [after, onJournal, found, ran]
      exact ⟨replace_keys r key t.1, replaced t.1, rfl⟩
    | error e t =>
      simp only [after, onJournal, found, ran]
      exact ⟨replace_keys r key t.1, replaced t.1, rfl⟩

theorem sortFrom_mem {store : FileStore} {entries : List (UInt64 × Journal)} {bound : Int64}
    {current : Option UInt64} (sorted : sortFrom store entries bound current = .ok (some key)) :
    key ∈ entries.map Prod.fst ∨ current = some key := by
  induction entries generalizing bound current with
  | nil => exact Or.inr (by simpa [sortFrom] using sorted)
  | cons entry entries ih =>
    obtain ⟨k, j⟩ := entry
    cases page : j.page with
    | none => simp [sortFrom, page] at sorted
    | some p =>
      simp only [sortFrom, page] at sorted
      split at sorted
      · rcases ih sorted with later | here
        · exact Or.inl (List.mem_cons_of_mem _ later)
        · exact Or.inl (by simp [Option.some.inj here])
      · rcases ih sorted with later | before
        · exact Or.inl (List.mem_cons_of_mem _ later)
        · exact Or.inr before

theorem keeps_sort (now : Int64) : Keeps Indexed (sort now) := by
  rintro ⟨r, store⟩ indexed
  cases sorted : sortFrom store r.journals now r.current with
  | error e => simpa [after, sort, sorted] using indexed
  | ok current =>
    simp only [after, sort, bind_apply, get_apply, sorted, set_apply]
    refine ⟨indexed.keys, ?_⟩
    rintro key (same : current = some key)
    subst same
    rcases sortFrom_mem sorted with joined | stale
    · exact joined
    · exact indexed.current key stale

theorem indexed_parts : KeptByParts Indexed where
  journal key x s indexed := indexed.congr (onJournal_rest key x s).1 (onJournal_rest key x s).2.2
  sort := keeps_sort
  drop fewer s indexed := by
    constructor
    · exact ((fewer s.1.journals).map Prod.fst).nodup indexed.keys
    · intro key current
      cases current

theorem keeps_join {location : JLocation} {destId : UInt32} {fromTime : Int64}
    {pageRollbackSize : Nat} {order : List (UInt64 × Journal) → List (UInt64 × Journal)}
    (perm : ∀ entries, (order entries).Perm entries) (now : Int64) :
    Keeps Indexed (join location destId fromTime pageRollbackSize order now) := by
  rintro ⟨r, store⟩ indexed
  cases found : r.find (journalKey location.uid destId) with
  | some j =>
    rw [after_congr (join_known store found)]
    exact indexed_parts.sortIdle now _ indexed
  | none =>
    rw [after_congr (join_new store found)]
    refine keeps_bind (indexed_parts.journal _ _) (fun _ => indexed_parts.sortIdle now) _ ?_
    generalize journalKey location.uid destId = key at found ⊢
    have new := find_eq_none_iff.mp found
    have entries := (perm ((key, Journal.make location destId false r.isLazy pageRollbackSize) ::
      r.journals)).map Prod.fst
    constructor
    · exact entries.nodup_iff.mpr (List.nodup_cons.mpr ⟨new, indexed.keys⟩)
    · intro k current
      exact entries.mem_iff.mpr (List.mem_cons_of_mem _ (indexed.current k current))

theorem keeps_call (c : Call) : Keeps Indexed c.run := by
  refine indexed_parts.call ?_
  rintro location destId fromTime pageRollbackSize order perm now rfl
  exact keeps_join perm now

theorem Reachable.indexed (reached : Reachable s) : Indexed s := by
  induction reached with
  | start isLazy store => exact ⟨by simp [make], by simp [make]⟩
  | call c _ ih => exact keeps_call c _ ih
  | files store' _ ih => exact ⟨ih.keys, ih.current⟩

end Reachability

section Choice
variable {r : Reader} {store : FileStore} {now : Int64}

/-- Every joined journal has a page: no seek of a join failed. -/
def Loaded (s : Reader × FileStore) : Prop := ∀ entry ∈ s.1.journals, entry.2.page ≠ none

theorem sortFrom_pick {entries : List (UInt64 × Journal)}
    (loaded : ∀ entry ∈ entries, entry.2.page ≠ none) (bound : Int64) (current : Option UInt64) :
    sortFrom store entries bound current = .ok (OrderedMerge.pick
      (entries.map fun entry => (entry.1, front store entry)) bound current) := by
  induction entries generalizing bound current with
  | nil => rfl
  | cons entry entries ih =>
    obtain ⟨key, j⟩ := entry
    have rest := fun bound current =>
      ih (fun e member => loaded e (List.mem_cons_of_mem _ member)) bound current
    obtain ⟨p, page⟩ := Option.ne_none_iff_exists'.mp (loaded (key, j) List.mem_cons_self)
    replace page : j.page = some p := page
    by_cases data : FrameUnit.hasData ((store key).bytes p.pageId) j.frame = true
    · by_cases le : FrameUnit.genTime ((store key).bytes p.pageId) j.frame ≤ bound
      · simp [sortFrom, page, data, le, rest, front, OrderedMerge.pick]
      · simp [sortFrom, page, data, le, rest, front, OrderedMerge.pick]
    · simp [sortFrom, page, data, rest, front, OrderedMerge.pick]

theorem sortFrom_unloaded {entries : List (UInt64 × Journal)} (member : entry ∈ entries)
    (unloaded : entry.2.page = none) (bound : Int64) (current : Option UInt64) :
    sortFrom store entries bound current = .error .nullPointer := by
  induction entries generalizing bound current with
  | nil => simp at member
  | cons first entries ih =>
    obtain ⟨key, j⟩ := first
    cases page : j.page with
    | none => simp [sortFrom, page]
    | some p =>
      have later : entry ∈ entries := by
        rcases List.mem_cons.mp member with rfl | later
        · rw [page] at unloaded
          contradiction
        · exact later
      simp only [sortFrom, page]
      split
      · exact ih later _ _
      · exact ih later _ _

/-- The frame `current` stands on after a sort. -/
theorem currentFrame_loaded (indexed : Indexed (r, store)) (loaded : Loaded (r, store))
    (current : r.current = some key) :
    ∃ j p, (key, j) ∈ r.journals ∧ j.page = some p ∧
      currentFrame (r, store) = .ok ((store key).bytes p.pageId, j.frame) (r, store) := by
  obtain ⟨⟨k, j⟩, member, rfl⟩ := List.mem_map.mp (indexed.current key current)
  obtain ⟨p, page⟩ := Option.ne_none_iff_exists'.mp (loaded _ member)
  refine ⟨j, p, member, page, ?_⟩
  have found := find_of_mem indexed.keys member
  simp only at page current
  simp [currentFrame, current, found, page]

theorem offers_iff (indexed : Indexed (r, store)) (member : (key, j) ∈ r.journals) :
    Offers (r, store) key time ↔ front store (key, j) = some time := by
  constructor
  · intro offers
    obtain ⟨⟨k, i⟩, present, same⟩ := List.mem_map.mp offers
    obtain ⟨rfl, front⟩ : k = key ∧ Reader.front store (k, i) = some time := by simpa using same
    have found := find_of_mem indexed.keys present
    obtain rfl : i = j := Option.some.inj (found.symm.trans (find_of_mem indexed.keys member))
    exact front
  · intro front
    exact List.mem_map.mpr ⟨(key, j), member, by simp [front]⟩

/-- `dataAvailable` as a function of what the journals offer. -/
theorem dataAvailable_eq (indexed : Indexed (r, store)) (loaded : Loaded (r, store)) (now : Int64) :
    ∃ b r', dataAvailable now (r, store) = .ok b (r', store) ∧
      r'.current = OrderedMerge.pick (fronts (r, store)) now r.current ∧
      (b = true ↔ ∃ key time, r'.current = some key ∧ Offers (r, store) key time) ∧
      ∀ key time, r'.current = some key → Offers (r, store) key time →
        ∃ m a, currentFrame (r', store) = .ok (m, a) (r', store) ∧ FrameUnit.hasData m a = true ∧
          FrameUnit.genTime m a = time := by
  have picked : sortFrom store r.journals now r.current = .ok _ :=
    sortFrom_pick loaded now r.current
  let r' : Reader := { r with current := OrderedMerge.pick (fronts (r, store)) now r.current }
  have sorted : sort now (r, store) = .ok () (r', store) := by
    simp only [sort, bind_apply, get_apply, picked, set_apply]
    rfl
  have indexed' : Indexed (r', store) := by
    have kept := keeps_sort now (r, store) indexed
    rwa [after, sorted] at kept
  cases current : r'.current with
  | none =>
    exact ⟨false, r', by simp [dataAvailable, sorted, current], rfl, by simp [current],
      by simp [current]⟩
  | some key =>
    obtain ⟨j, p, member, page, read⟩ := currentFrame_loaded indexed' loaded current
    have offers (time : Int64) : Offers (r, store) key time ↔ front store (key, j) = some time :=
      offers_iff indexed member
    have shown : front store (key, j) =
        if FrameUnit.hasData ((store key).bytes p.pageId) j.frame = true then
          some (FrameUnit.genTime ((store key).bytes p.pageId) j.frame) else none := by
      simp [front, page]
    refine ⟨FrameUnit.hasData ((store key).bytes p.pageId) j.frame, r', ?_, rfl, ?_, ?_⟩
    · simp [dataAvailable, sorted, current, read]
    · constructor
      · intro data
        exact ⟨key, _, current, (offers _).mpr (by rw [shown, if_pos data])⟩
      · rintro ⟨key', time, same, offered⟩
        obtain rfl : key = key' := Option.some.inj (current.symm.trans same)
        have front := (offers time).mp offered
        by_contra data
        rw [shown, if_neg data] at front
        contradiction
    · intro key' time same offered
      obtain rfl : key = key' := Option.some.inj (current.symm.trans same)
      have front := (offers time).mp offered
      by_cases data : FrameUnit.hasData ((store key).bytes p.pageId) j.frame = true
      · rw [shown, if_pos data] at front
        exact ⟨_, _, read, data, Option.some.inj front⟩
      · rw [shown, if_neg data] at front
        contradiction

/-- With all pages there the choice is the one `sort` leaves in `current`. -/
theorem chooses_loaded (indexed : Indexed (r, store)) (loaded : Loaded (r, store)) (now : Int64) :
    Chooses now (r, store) ↔ ((∃ key time, Offers (r, store) key time) →
      ∃ key time, OrderedMerge.pick (fronts (r, store)) now r.current = some key ∧
        Earliest (r, store) key time) := by
  obtain ⟨b, r', ran, current, available, read⟩ := dataAvailable_eq indexed loaded now
  rw [← current]
  constructor
  · rintro ⟨b', r'', ran', offered, _⟩ offers
    rw [ran, EStateM.Result.ok.injEq, Prod.mk.injEq] at ran'
    obtain ⟨rfl, rfl, _⟩ := ran'
    obtain ⟨_, key, time, _, _, chosen, earliest, _⟩ := offered offers
    exact ⟨key, time, chosen, earliest⟩
  · intro picks
    refine ⟨b, r', ran, ?_, ?_⟩
    · intro offers
      obtain ⟨key, time, chosen, earliest⟩ := picks offers
      obtain ⟨m, a, shown, data, stamped⟩ := read key time chosen earliest.1
      exact ⟨available.mpr ⟨key, time, chosen, earliest.1⟩, key, time, m, a, chosen,
        earliest, shown, data, stamped⟩
    · intro none
      rw [← Bool.not_eq_true, available]
      rintro ⟨key, time, _, offers⟩
      exact none key time offers

theorem dataAvailable_unloaded (unloaded : ¬ Loaded (r, store)) (now : Int64) :
    dataAvailable now (r, store) = .error .nullPointer (r, store) := by
  obtain ⟨entry, member, page⟩ : ∃ entry ∈ r.journals, entry.2.page = none := by
    simpa [Loaded] using unloaded
  have failed : sortFrom store r.journals now r.current = .error .nullPointer :=
    sortFrom_unloaded member page now r.current
  simp [dataAvailable, sort, failed]

end Choice

/-- `dataAvailable` makes the right choice exactly when every joined journal has a page and
either no frame is offered, or one that the clock has reached, or the journal chosen last
still offers an earliest one. -/
theorem chooses_iff {s : Reader × FileStore} (reached : Reachable s) (now : Int64) :
    Chooses now s ↔ Loaded s ∧
      ((∀ key time, ¬ Offers s key time) ∨ (∃ key time, Offers s key time ∧ time ≤ now) ∨
        ∃ key time, s.1.current = some key ∧ Earliest s key time) := by
  obtain ⟨r, store⟩ := s
  have indexed := reached.indexed
  by_cases loaded : Loaded (r, store)
  · rw [chooses_loaded indexed loaded now]
    rcases OrderedMerge.pick_spec (fronts (r, store)) now r.current with
      ⟨key, time, picked, earliest, reachedTime⟩ | ⟨stale, ahead⟩
    · constructor
      · intro _
        exact ⟨loaded, Or.inr (Or.inl ⟨key, time, earliest.1, reachedTime⟩)⟩
      · intro _ _
        exact ⟨key, time, picked, earliest⟩
    · -- no offered frame is reached by the clock, so `current` is what it was
      rw [stale]
      constructor
      · intro picks
        refine ⟨loaded, ?_⟩
        by_cases offers : ∃ key time, Offers (r, store) key time
        · exact Or.inr (Or.inr (picks offers))
        · exact Or.inl fun key time offered => offers ⟨key, time, offered⟩
      · rintro ⟨_, none | ⟨key, time, offered, le⟩ | chosen⟩ ⟨key', time', offers⟩
        · exact absurd offers (none key' time')
        · exact absurd le (ahead key time offered)
        · exact chosen
  · constructor
    · rintro ⟨b, r', ran, _⟩
      rw [dataAvailable_unloaded loaded] at ran
      contradiction
    · rintro ⟨loaded', _⟩
      exact absurd loaded' loaded

/-- Joining the first journal, whose frame the clock has not reached. -/
theorem join_ahead {files : JournalFiles} {j : Journal} (destId : UInt32) (fromTime now : Int64)
    (sought :
      Journal.seekToTime fromTime (Journal.make Writer.simAccount destId false false 0, files) =
      .ok () (j, files)) (facing : Journal.Facing files j passed (f :: rest))
        (ahead : ¬ f.genTime ≤ now) :
    let key := journalKey Writer.simAccount.uid destId
    let s : Reader × FileStore := (⟨false, none, [(key, j)]⟩, fun _ => files)
    Reachable s ∧ Loaded s ∧ fronts s = [(key, some f.genTime)] := by
  intro key s
  obtain ⟨p, page, _⟩ := facing.page
  have data : FrameUnit.hasData (files.bytes p.pageId) j.frame = true := facing.hasData page
  have stamped := (facing.holds page).genTime
  have shown : front s.2 (key, j) = some f.genTime := by simp [front, page, data, stamped, s]
  let opened : Reader := ⟨false, none, [(key, Journal.make Writer.simAccount destId false false 0)]⟩
  have moved : onJournal key (Journal.seekToTime fromTime) (opened, fun _ => files) = .ok () s := by
    simp [onJournal, find, opened, sought, replace, s]
  have joined :
      join Writer.simAccount destId fromTime 0 id now (make false, fun _ => files) = .ok () s := by
    have absent : (make false).find (journalKey Writer.simAccount.uid destId) = none := rfl
    simp only [join, bind_apply, get_apply, absent, if_true, modify_apply]
    simp only [opened, key] at moved
    simp [make, moved, sort, sortFrom, page, data, stamped, ahead, s, key]
  have reached : Reachable s := by
    have called := Reachable.call
      (.join Writer.simAccount destId fromTime 0 id (fun _ => List.Perm.refl _) now)
      (.start false fun _ => files)
    rwa [after, Call.run, joined] at called
  refine ⟨reached, ?_, ?_⟩
  · simp [Loaded, s, page]
  · simp only [fronts, s, List.map_cons, List.map_nil] at shown ⊢
    rw [shown]

/-- A reader that joins a frame of time 5 when its clock reads 3. -/
theorem joined_ahead : ∃ s : Reader × FileStore, Reachable s ∧ Loaded s ∧ s.1.current = none ∧
    fronts s = [(journalKey Writer.simAccount.uid 7, some 5)] := by
  obtain ⟨files, held⟩ := markedChannel_held 7 0
  obtain ⟨j, sought, facing⟩ := (held (fun _ => files) rfl).sought false
  obtain ⟨reached, loaded, offered⟩ :=
    join_ahead 7 0 3 sought facing (by decide : ¬ (5 : Int64) ≤ 3)
  exact ⟨_, reached, loaded, rfl, offered⟩

theorem chooses_iff_ahead : ∃ s, Reachable s ∧
    (Chooses 3 s ↔ Loaded s ∧
      ((∀ key time, ¬ Offers s key time) ∨ (∃ key time, Offers s key time ∧ time ≤ 3) ∨
        ∃ key time, s.1.current = some key ∧ Earliest s key time)) := by
  obtain ⟨s, reached, _⟩ := joined_ahead
  exact ⟨s, reached, chooses_iff reached 3⟩

/-- The frame is there, but `dataAvailable` says it is not. -/
theorem stalls_ahead : ∃ s, Reachable s ∧
    Offers s (journalKey Writer.simAccount.uid 7) 5 ∧ ¬ Chooses 3 s := by
  obtain ⟨⟨r, store⟩, reached, loaded, idle, offered⟩ := joined_ahead
  replace idle : r.current = none := idle
  have offers : Offers (r, store) (journalKey Writer.simAccount.uid 7) 5 := by
    rw [Offers, offered]
    exact List.mem_cons_self
  refine ⟨(r, store), reached, offers, ?_⟩
  rw [chooses_loaded reached.indexed loaded, offered, idle]
  intro picks
  obtain ⟨_, _, picked, _⟩ := picks ⟨_, _, offers⟩
  exact absurd picked (by simp [OrderedMerge.pick, (by decide : ¬ (5 : Int64) ≤ 3)])

end Reader
end BTrader
