import BTrader.Journal.ReaderPointer

/-! What a join leaves behind when the page of its journal does not load: `try_emplace` comes
before `seek_to_time`, and nothing takes the entry out again. -/
namespace BTrader
open ByteMemory Infra Procedure

namespace Reader

/-- The joined journals, where they stand and `current` are as before. -/
structure Atomic (s t : Reader × FileStore) : Prop where
  journals : ∀ entry, entry ∈ t.1.journals ↔ entry ∈ s.1.journals
  current : t.1.current = s.1.current

/-- The new journal stays joined. While it has no page, no call of `dataAvailable` returns. -/
structure LeftBehind (key : UInt64) (s t : Reader × FileStore) : Prop where
  new : key ∉ keys s
  joined : key ∈ keys t
  others : ∀ entry, entry.1 ≠ key → (entry ∈ t.1.journals ↔ entry ∈ s.1.journals)
  current : t.1.current = s.1.current
  stuck : (∃ j, (key, j) ∈ t.1.journals ∧ j.page = none) →
    ∀ now, dataAvailable now t = .error .nullPointer t

section Failure
variable {s t : Reader × FileStore} {key : UInt64}

/-- A sort throws nothing but the access to a page that is not there. -/
theorem sortFrom_error {store : FileStore} {entries : List (UInt64 × Journal)} {bound : Int64}
    {current : Option UInt64} (failed : sortFrom store entries bound current = .error e) :
      e = .nullPointer := by
  induction entries generalizing bound current with
  | nil => simp [sortFrom] at failed
  | cons entry entries ih =>
    obtain ⟨key, j⟩ := entry
    cases page : j.page with
    | none =>
      simp only [sortFrom, page, Except.error.injEq] at failed
      exact failed.symm
    | some p =>
      simp only [sortFrom, page] at failed
      split at failed
      · exact ih failed
      · exact ih failed

theorem sort_error (failed : sort now s = .error e t) : e = .nullPointer := by
  obtain ⟨r, store⟩ := s
  cases sorted : sortFrom store r.journals now r.current with
  | error e' =>
    obtain ⟨rfl, _⟩ : e' = e ∧ (r, store) = t := by simpa [sort, sorted] using failed
    exact sortFrom_error sorted
  | ok current => simp [sort, sorted] at failed

theorem sortIdle_error
    (failed : (do if (← get).1.current = none then sort now : ReaderM Unit) s = .error e t) :
    e = .nullPointer := by
  by_cases idle : s.1.current = none
  · exact sort_error (by simpa [idle] using failed)
  · simp [idle] at failed

theorem replace_self {r : Reader} (distinct : (r.journals.map Prod.fst).Nodup)
    (member : (key, j) ∈ r.journals) :
    r.replace key j = r := by
  have same : r.journals.map (fun entry => if entry.1 = key then (key, j) else entry) =
      r.journals.map id := by
    refine List.map_congr_left fun entry present => ?_
    obtain ⟨k, i⟩ := entry
    by_cases here : k = key
    · subst here
      have found := find_of_mem distinct present
      rw [find_of_mem distinct member] at found
      simpa using found
    · simp [here]
  rw [replace, same, List.map_id]

/-- A procedure that throws and leaves the journal and its files as they were. -/
theorem onJournal_unmoved {r : Reader} {store : FileStore} {x : JournalM α}
    (distinct : (r.journals.map Prod.fst).Nodup) (member : (key, j) ∈ r.journals)
    (threw : x (j, store key) = .error e (j, store key)) :
    onJournal key x (r, store) = .error e (r, store) := by
  simp only [onJournal, find_of_mem distinct member, threw, replace_self distinct member,
    Function.update_eq_self]

/-- A join that throws a `JournalError` threw it while it moved the journal it had put in. -/
theorem join_cases {location : JLocation} {destId : UInt32} {fromTime : Int64}
    {pageRollbackSize : Nat} {order : List (UInt64 × Journal) → List (UInt64 × Journal)}
    (failed :
      join location destId fromTime pageRollbackSize order now s = .error (.journalError what) t) :
    s.1.find (journalKey location.uid destId) = none ∧
      onJournal (journalKey location.uid destId) (Journal.seekToTime fromTime)
        ({ s.1 with journals := order ((journalKey location.uid destId,
          Journal.make location destId false s.1.isLazy pageRollbackSize) :: s.1.journals) }, s.2) =
        .error (.journalError what) t := by
  obtain ⟨r, store⟩ := s
  cases found : r.find (journalKey location.uid destId) with
  | some j =>
    rw [join_known store found] at failed
    have := sortIdle_error failed
    contradiction
  | none =>
    rw [join_new store found] at failed
    refine ⟨rfl, ?_⟩
    cases moved : onJournal (journalKey location.uid destId) (Journal.seekToTime fromTime)
        ({ r with journals := order ((journalKey location.uid destId,
          Journal.make location destId false r.isLazy pageRollbackSize) :: r.journals) },
            store) with
    | ok a u =>
      rw [bind_ok moved] at failed
      have := sortIdle_error failed
      contradiction
    | error e u =>
      rw [bind_error moved] at failed
      exact failed

end Failure

/-- No failed join is atomic: the new journal stays joined, and while it has no page every
`dataAvailable` reads through a null pointer. -/
theorem failed_join {s t : Reader × FileStore} {location : JLocation} {destId : UInt32}
    {fromTime : Int64} {pageRollbackSize : Nat}
    {order : List (UInt64 × Journal) → List (UInt64 × Journal)}
    (perm : ∀ entries, (order entries).Perm entries)
    (failed :
      join location destId fromTime pageRollbackSize order now s = .error (.journalError what) t) :
    ¬ Atomic s t ∧ LeftBehind (journalKey location.uid destId) s t := by
  obtain ⟨absent, moved⟩ := join_cases failed
  generalize journalKey location.uid destId = key at absent moved ⊢
  generalize Journal.make location destId false s.1.isLazy pageRollbackSize = journal at moved
  let opened : Reader × FileStore :=
    ({ s.1 with journals := order ((key, journal) :: s.1.journals) }, s.2)
  have left : after (onJournal key (Journal.seekToTime fromTime)) opened = t := by rw [after, moved]
  have new : key ∉ keys s := find_eq_none_iff.mp absent
  obtain ⟨same, kept, current⟩ := onJournal_rest key (Journal.seekToTime fromTime) opened
  rw [left] at same kept current
  have joined : key ∈ keys t := by
    rw [keys, same]
    exact ((perm _).map Prod.fst).mem_iff.mpr List.mem_cons_self
  have others (entry : UInt64 × Journal) (other : entry.1 ≠ key) :
      entry ∈ t.1.journals ↔ entry ∈ s.1.journals := by
    rw [kept entry other, (perm _).mem_iff, List.mem_cons]
    constructor
    · rintro (rfl | old)
      · exact absurd rfl other
      · exact old
    · exact Or.inr
  refine ⟨fun atomic => ?_, new, joined, others, current, ?_⟩
  · obtain ⟨entry, member, named⟩ := List.mem_map.mp joined
    exact new (List.mem_map.mpr ⟨entry, (atomic.journals entry).mp member, named⟩)
  · rintro ⟨j, member, page⟩ now
    exact dataAvailable_unloaded (fun loaded => loaded _ member page) now

section Mismatch

/-- A page whose header has a version, but not this one. -/
def oldPage : Memory := fun a => if a = 16 then 24 else 0

def oldFiles (location : JLocation) : JournalFiles :=
  ⟨[1], fun _ => ⟨findPageSize location, oldPage⟩, fun _ => true⟩

def oldMessage (location : JLocation) (destId : UInt32) : String :=
  PageUnit.getPagePath location destId 1 ++ " version mismatch, required " ++
    toString journalVersion ++
    ", found " ++ toString (0 : UInt32)

theorem load_old (location : JLocation) (destId : UInt32) (isLazy : Bool) :
    PageUnit.load location destId 1 false isLazy (oldFiles location) =
      .error (.journalError (oldMessage location destId)) (oldFiles location) := by
  have bounds := findPageSize_bounds location
  have mib : mebibyte = 1048576 := rfl
  have mapped :
      loadMmapBuffer (PageUnit.getPagePath location destId 1) 1 (findPageSize location) false isLazy
      (oldFiles location) = .ok () (oldFiles location) := by
    have created : (oldFiles location).create 1 = oldFiles location := if_pos (by simp [oldFiles])
    have clear : (oldFiles location).bytes 1 (findPageSize location - 1) = 0 := if_neg (by omega)
    have stretched :
        (if master false isLazy = true then (oldFiles location).stretch 1 (findPageSize location)
        else oldFiles location) = oldFiles location := by
      split
      · exact JournalFiles.stretch_self rfl clear
      · rfl
    have mappable : (oldFiles location).mappable 1 = true := rfl
    simp only [loadMmapBuffer, bind_apply, get_apply, mappable, if_true, created,
      stretched, set_apply]
  have nonempty : ((oldFiles location).file 1).size ≠ 0 := by
    change findPageSize location ≠ 0
    omega
  have valid : PageUnit.lastFramePosition ((oldFiles location).bytes 1) ≠ 0 :=
    (by decide : PageUnit.lastFramePosition oldPage ≠ 0)
  have version : PageUnit.version ((oldFiles location).bytes 1) = 0 :=
    (by decide : PageUnit.version oldPage = 0)
  rw [PageUnit.load, bind_ok mapped]
  have mismatch : (0 : UInt32) ≠ journalVersion := by decide
  simp [nonempty, valid, version, mismatch, oldMessage]

theorem seekToTime_old (location : JLocation) (destId : UInt32) (isLazy : Bool) :
    Journal.seekToTime 0 (Journal.make location destId false isLazy 0, oldFiles location) =
      .error (.journalError (oldMessage location destId))
        (Journal.make location destId false isLazy 0, oldFiles location) := by
  have found :
      PageUnit.findPageId location destId 0 (oldFiles location) = .ok 1 (oldFiles location) := by
    simp [PageUnit.findPageId, PageUnit.listPageId, oldFiles]
  have loaded :=
    onSnd_error (s := Journal.make location destId false isLazy 0) (load_old location destId isLazy)
  simp only [Journal.make] at loaded ⊢
  simp [Journal.seekToTime, onSnd_ok found, Journal.loadPage, loaded]

/-- Whatever else is joined, a journal with such a page does not join. -/
theorem join_mismatch {r : Reader} {store : FileStore} {location : JLocation} {destId : UInt32}
    (distinct : (r.journals.map Prod.fst).Nodup)
    (absent : journalKey location.uid destId ∉ r.journals.map Prod.fst)
    (held : store (journalKey location.uid destId) = oldFiles location) (now : Int64) :
    join location destId 0 0 id now (r, store) = .error (.journalError (oldMessage location destId))
      ({ r with journals := (journalKey location.uid destId,
        Journal.make location destId false r.isLazy 0) :: r.journals }, store) := by
  have unknown : r.find (journalKey location.uid destId) = none := by
    rw [find, List.lookup_eq_none_iff]
    intro entry member
    rw [bne_iff_ne]
    intro same
    exact absent (List.mem_map.mpr ⟨entry, member, same.symm⟩)
  rw [join_new store unknown]
  generalize journalKey location.uid destId = key at absent held ⊢
  refine bind_error (onJournal_unmoved ?_ List.mem_cons_self ?_) _
  · exact List.nodup_cons.mpr ⟨absent, distinct⟩
  · rw [held]
    exact seekToTime_old location destId r.isLazy

/-- Such a journal beside one that offers a frame. -/
theorem join_beside : ∃ s t, Reachable s ∧
    join Writer.simAccount 8 0 0 id 5 s =
      .error (.journalError (oldMessage Writer.simAccount 8)) t ∧
    (∃ u, dataAvailable 5 s = .ok true u) ∧ ¬ Loaded t := by
  obtain ⟨⟨r, store⟩, reached, loaded, idle, offered⟩ := joined_ahead
  replace idle : r.current = none := idle
  have apart : journalKey Writer.simAccount.uid 8 ≠ journalKey Writer.simAccount.uid 7 := by
    intro same
    exact absurd (journalKey_inj.mp same).2 (by decide)
  obtain ⟨store', held, others⟩ : ∃ store' : FileStore,
      store' (journalKey Writer.simAccount.uid 8) = oldFiles Writer.simAccount ∧
        store' (journalKey Writer.simAccount.uid 7) = store (journalKey Writer.simAccount.uid 7) :=
    ⟨Function.update store _ _, Function.update_self _ _ _, Function.update_of_ne apart.symm _ _⟩
  generalize journalKey Writer.simAccount.uid 7 = key at offered apart others
  have named : r.journals.map Prod.fst = [key] := by
    simpa [fronts, Function.comp_def] using congrArg (List.map Prod.fst) offered
  have offered' : fronts (r, store') = [(key, some 5)] := by
    rw [← offered]
    refine List.map_congr_left fun entry member => ?_
    have inside := List.mem_map_of_mem (f := Prod.fst) member
    rw [named, List.mem_singleton] at inside
    simp only [front, inside, others]
  have reached' : Reachable (r, store') := reached.files store'
  have available : ∃ u, dataAvailable 5 (r, store') = .ok true u := by
    obtain ⟨b, r', ran, current, shown, _⟩ := dataAvailable_eq reached'.indexed loaded 5
    rw [offered', idle] at current
    have picked : r'.current = some key := by
      rw [current]
      simp [OrderedMerge.pick]
    have offers : Offers (r, store') key 5 := by
      rw [Offers, offered']
      exact List.mem_cons_self
    exact ⟨(r', store'), by rw [ran, shown.mpr ⟨key, 5, picked, offers⟩]⟩
  have absent : journalKey Writer.simAccount.uid 8 ∉ r.journals.map Prod.fst := by
    rw [named]
    exact fun member => apart (List.mem_singleton.mp member)
  have failed := join_mismatch reached'.indexed.keys absent held 5
  exact ⟨(r, store'), _, reached', failed, available, fun loaded => loaded _ List.mem_cons_self rfl⟩

theorem failed_join_old : ∃ s t, Reachable s ∧
    join Writer.simAccount 8 0 0 id 5 s =
      .error (.journalError (oldMessage Writer.simAccount 8)) t ∧
    ¬ Atomic s t ∧ LeftBehind (journalKey Writer.simAccount.uid 8) s t := by
  obtain ⟨s, t, reached, failed, _⟩ := join_beside
  exact ⟨s, t, reached, failed, failed_join (fun _ => List.Perm.refl _) failed⟩

/-- A frame was there to be read. After the join that threw, there is no way to it. -/
theorem join_blocks : ∃ s t, Reachable s ∧
    join Writer.simAccount 8 0 0 id 5 s =
      .error (.journalError (oldMessage Writer.simAccount 8)) t ∧
    (∃ u, dataAvailable 5 s = .ok true u) ∧ ∀ now, dataAvailable now t = .error .nullPointer t := by
  obtain ⟨s, t, reached, failed, available, unloaded⟩ := join_beside
  exact ⟨s, t, reached, failed, available, fun now => dataAvailable_unloaded unloaded now⟩

end Mismatch
end Reader
end BTrader
