import BTrader.Journal.ReaderChoice

/-! Where `current` may point, and what stays silent after a journal was left: over any calls
of the reader, returning or throwing, among writers that do what they like to the files. -/
namespace BTrader
open ByteMemory Infra Procedure

namespace Reader

def keys (s : Reader × FileStore) : List UInt64 := s.1.journals.map Prod.fst

/-- The journals of one location, whatever their destination. -/
def OfLocation (uid : UInt32) (key : UInt64) : Prop := ∃ destId, key = journalKey uid destId

/-- The call joins the journal of that key. -/
def Call.Joins : Call → UInt64 → Prop
  | .join location destId .., key => journalKey location.uid destId = key
  | _, _ => False

/-- What may happen to a reader and its files while nobody joins that journal. -/
inductive Elsewhere (key : UInt64) : Reader × FileStore → Reader × FileStore → Prop
  | call (c : Call) (s : Reader × FileStore) (other : ¬ c.Joins key) :
      Elsewhere key s (after c.run s)
  | files (r : Reader) (store store' : FileStore) : Elsewhere key (r, store) (r, store')

/-- `dataAvailable` says there is a frame, and it is one of that journal. -/
def Delivers (s : Reader × FileStore) (now : Int64) (key : UInt64) : Prop :=
  ∃ t, dataAvailable now s = .ok true t ∧ t.1.current = some key

/-- Just the journals of these keys are gone: the others stand where they stood, and no frame
of the former is delivered until the journal is joined again. -/
structure Leaves (gone : UInt64 → Prop) (s t : Reader × FileStore) : Prop where
  others : ∀ entry, entry ∈ t.1.journals ↔ entry ∈ s.1.journals ∧ ¬ gone entry.1
  files : t.2 = s.2
  silent : ∀ key, gone key → ∀ u, Relation.ReflTransGen (Elsewhere key) t u →
    u.1.current ≠ some key ∧ ∀ now, ¬ Delivers u now key

section Keys

/-- The upper half of a journal's key is its location. -/
theorem ofLocation_iff (uid : UInt32) (key : UInt64) :
    OfLocation uid key ↔ (key >>> 32) ^^^ uid.toUInt64 = 0 := by
  rw [UInt64.xor_eq_zero_iff, ← UInt64.toNat_inj, UInt64.toNat_shiftRight, UInt32.toNat_toUInt64]
  have upper : key.toNat >>> ((32 : UInt64).toNat % 64) = key.toNat / 2 ^ 32 :=
    Nat.shiftRight_eq_div_pow _ _
  rw [upper]
  constructor
  · rintro ⟨destId, rfl⟩
    have := destId.toNat_lt
    rw [journalKey_toNat]
    omega
  · intro same
    refine ⟨UInt32.ofNat (key.toNat % 2 ^ 32), UInt64.toNat_inj.mp ?_⟩
    have lower : (UInt32.ofNat (key.toNat % 2 ^ 32)).toNat = key.toNat % 2 ^ 32 :=
      UInt32.toNat_ofNat_of_lt' (Nat.mod_lt _ (by decide))
    rw [journalKey_toNat, lower, ← same]
    omega

/-- A sort moves nothing but `current`. -/
theorem sort_rest (now : Int64) (s : Reader × FileStore) :
    (after (sort now) s).1.journals = s.1.journals ∧ (after (sort now) s).2 = s.2 := by
  obtain ⟨r, store⟩ := s
  cases sorted : sortFrom store r.journals now r.current with
  | error e => simp [after, sort, sorted]
  | ok current => simp [after, sort, sorted]

theorem keys_sort (now : Int64) (s : Reader × FileStore) : keys (after (sort now) s) = keys s := by
  rw [keys, (sort_rest now s).1, keys]

end Keys

section Absence
variable {key : UInt64}

def Absent (key : UInt64) (s : Reader × FileStore) : Prop := key ∉ keys s

theorem Absent.congr (absent : Absent key s) (same : keys t = keys s) : Absent key t := by
  rwa [Absent, same]

theorem absent_parts : KeptByParts (Absent key) where
  journal k x s absent := absent.congr (onJournal_rest k x s).1
  sort now s absent := absent.congr (keys_sort now s)
  drop fewer s absent member := absent (((fewer s.1.journals).map Prod.fst).subset member)

theorem absent_join {location : JLocation} {destId : UInt32} {fromTime : Int64}
    {pageRollbackSize : Nat} {order : List (UInt64 × Journal) → List (UInt64 × Journal)}
    (perm : ∀ entries, (order entries).Perm entries) (now : Int64)
    (other : journalKey location.uid destId ≠ key) :
    Keeps (Absent key) (join location destId fromTime pageRollbackSize order now) := by
  refine keeps_bind keeps_get fun s => keeps_branch _ ?_ (absent_parts.sortIdle now)
  refine keeps_bind (keeps_modify ?_) fun _ =>
    keeps_bind (absent_parts.journal _ _) fun _ => absent_parts.sortIdle now
  rintro ⟨r, store⟩ absent member
  rcases List.mem_cons.mp (((perm _).map Prod.fst).mem_iff.mp member) with new | old
  · exact other new.symm
  · exact absent old

/-- Only a join of that key brings the journal back. -/
theorem absent_call (c : Call) (other : ¬ c.Joins key) : Keeps (Absent key) c.run := by
  refine absent_parts.call ?_
  rintro location destId fromTime pageRollbackSize order perm now rfl
  exact absent_join perm now other

theorem Elsewhere.absent (step : Elsewhere key s t) (absent : Absent key s) : Absent key t := by
  cases step with
  | call c s other => exact absent_call c other s absent
  | files r store store' => exact absent

theorem Elsewhere.reachable (step : Elsewhere key s t) (reached : Reachable s) : Reachable t := by
  cases step with
  | call c s other => exact reached.call c
  | files r store store' => exact reached.files store'

/-- A journal that is not joined is neither current nor read. -/
theorem Absent.silent (absent : Absent key s) (reached : Reachable s) :
    s.1.current ≠ some key ∧ ∀ now, ¬ Delivers s now key := by
  refine ⟨fun current => absent (reached.indexed.current key current), ?_⟩
  rintro now ⟨t, ran, current⟩
  have indexed : Indexed t := (indexed_parts.dataAvailable now).ok reached.indexed ran
  have gone : Absent key t := (absent_parts.dataAvailable now).ok absent ran
  exact gone (indexed.current key current)

theorem silent_run (absent : Absent key s) (reached : Reachable s)
    (run : Relation.ReflTransGen (Elsewhere key) s u) :
    u.1.current ≠ some key ∧ ∀ now, ¬ Delivers u now key := by
  have kept : Absent key u ∧ Reachable u := by
    induction run with
    | refl => exact ⟨absent, reached⟩
    | tail _ step ih => exact ⟨step.absent ih.1, step.reachable ih.2⟩
  exact kept.1.silent kept.2

end Absence

section Leaving

/-- Taking the journals of these keys out, forgetting the current one and sorting. -/
theorem leaves_drop {journals' : List (UInt64 × Journal)} {gone : UInt64 → Prop}
    (left :
      t = after (sort now) (({ s.1 with journals := journals', current := none } : Reader), s.2))
    (reached' : Reachable t)
    (others : ∀ entry, entry ∈ journals' ↔ entry ∈ s.1.journals ∧ ¬ gone entry.1) :
      Leaves gone s t := by
  obtain ⟨entries, files⟩ :=
    sort_rest now (({ s.1 with journals := journals', current := none } : Reader), s.2)
  rw [← left] at entries files
  refine ⟨fun entry => ?_, files, ?_⟩
  · rw [entries]
    exact others entry
  · intro key dropped u run
    refine silent_run ?_ reached' run
    intro member
    obtain ⟨entry, present, rfl⟩ := List.mem_map.mp member
    rw [entries] at present
    exact ((others entry).mp present).2 dropped

/-- Keys are distinct, so erasing the first entry of a key erases them all. -/
theorem mem_eraseP_key {entries : List (UInt64 × Journal)} (distinct : (entries.map Prod.fst).Nodup)
    (key : UInt64) (entry : UInt64 × Journal) :
    (entry ∈ entries.eraseP fun e => e.1 = key) ↔ entry ∈ entries ∧ entry.1 ≠ key := by
  by_cases same : entry.1 = key
  · constructor
    · intro kept
      have erased : entry.1 ∈ (entries.map Prod.fst).eraseP fun k => k = key := by
        rw [List.eraseP_map]
        exact List.mem_map_of_mem kept
      rw [same] at erased
      have plain :
          ((entries.map Prod.fst).eraseP fun k => k = key) = (entries.map Prod.fst).erase key := by
        rw [List.erase_eq_eraseP']
        rfl
      rw [plain] at erased
      exact absurd erased distinct.not_mem_erase
    · rintro ⟨_, other⟩
      exact absurd same other
  · rw [List.mem_eraseP_of_neg (by simpa using same)]
    exact ⟨fun member => ⟨member, same⟩, And.left⟩

end Leaving

theorem dataAvailable_current (available : dataAvailable now s = .ok true t) :
    t.1.current ≠ none := by
  obtain ⟨_, u, _, tested⟩ := of_bind_ok available
  obtain ⟨v, w, got, tested⟩ := of_bind_ok tested
  obtain ⟨rfl, rfl⟩ : u = v ∧ u = w := by simpa using got
  intro none
  by_cases idle : u.1.current = Option.none
  · simp [idle] at tested
  · rw [if_neg idle] at tested
    obtain ⟨frame, x, read, seen⟩ := of_bind_ok tested
    have stays : x = u := by
      have unmoved := currentFrame_after u
      rwa [after, read] at unmoved
    obtain ⟨_, rfl⟩ : FrameUnit.hasData frame.1 frame.2 = true ∧ x = t := by simpa using seen
    rw [stays] at none
    exact idle none

/-- Wherever the reader is, `current` is joined, `dataAvailable` says yes only with a current
journal, and the two ways of leaving take out just their journals, for good. -/
theorem pointer_safe {s : Reader × FileStore} (reached : Reachable s) :
    (∀ key, s.1.current = some key → key ∈ keys s) ∧
      (∀ now t, dataAvailable now s = .ok true t → t.1.current ≠ none) ∧
      (∀ uid now, Leaves (OfLocation uid) s (after (disjoin uid now) s)) ∧
      ∀ uid destId now, Leaves (· = journalKey uid destId) s
        (after (disjoinChannel uid destId now) s) := by
  refine ⟨reached.indexed.current, ?_, ?_, ?_⟩
  · intro now t available
    exact dataAvailable_current available
  · intro uid now
    refine leaves_drop rfl (reached.call (.disjoin uid now)) fun entry => ?_
    rw [List.mem_filter, ofLocation_iff]
    simp
  · intro uid destId now
    refine leaves_drop rfl (reached.call (.disjoinChannel uid destId now)) fun entry => ?_
    exact mem_eraseP_key reached.indexed.keys _ entry

/-- The joins are calls. -/
theorem joinAll_reachable {channels : List Channel}
    (orders : ∀ c ∈ channels, ∀ entries, (c.order entries).Perm entries)
    (reached : Reachable s) (joined : joinAll channels s = .ok () t) : Reachable t := by
  induction channels generalizing s with
  | nil =>
    have same : s = t := by simpa [joinAll] using joined
    exact same ▸ reached
  | cons c channels ih =>
    have both : joinAll (c :: channels) =
        join c.location c.destId c.fromTime 0 c.order c.clock >>= fun _ => joinAll channels := rfl
    rw [both] at joined
    obtain ⟨_, u, first, rest⟩ := of_bind_ok joined
    have called := reached.call
      (.join c.location c.destId c.fromTime 0 c.order (orders c List.mem_cons_self) c.clock)
    rw [after, Call.run, first] at called
    exact ih (fun d member => orders d (List.mem_cons_of_mem _ member)) called rest

/-- A reader with two journals joined, one of which is at a frame. -/
theorem pointer_safe_two : ∃ s, Reachable s ∧
    (keys s).Perm [journalKey Writer.simAccount.uid 7, journalKey Writer.simAccount.uid 8] ∧
    (∀ key, s.1.current = some key → key ∈ keys s) ∧
      (∀ now t, dataAvailable now s = .ok true t → t.1.current ≠ none) ∧
      (∀ uid now, Leaves (OfLocation uid) s (after (disjoin uid now) s)) ∧
      ∀ uid destId now, Leaves (· = journalKey uid destId) s
        (after (disjoinChannel uid destId now) s) := by
  obtain ⟨store, distinct, held, clocks⟩ := twoChannels_held
  have tracks : Tracks (make false) store (fun _ => []) :=
    ⟨by simp [make], by simp [make], by simp [make]⟩
  obtain ⟨r, joined, perm, _⟩ :=
    joinAll_spec tracks twoChannels (by simpa [make] using distinct) held
    fun c member => ⟨by simp [Reaches, make], clocks c member⟩
  have reached : Reachable (r, store) :=
    joinAll_reachable (fun c member => (held c member).order) (.start false store) joined
  exact ⟨(r, store), reached, perm, pointer_safe reached⟩

end Reader
end BTrader
