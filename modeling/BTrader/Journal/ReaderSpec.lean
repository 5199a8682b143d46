import BTrader.Lib.OrderedMerge
import BTrader.Journal.PublishOrder
import BTrader.Journal.Reader

/-! What the reader's functions do when every joined journal faces the rest of the
frames its page shows. -/
namespace BTrader
open ByteMemory Infra Procedure

/-- The journal's page shows `passed ++ rest` and the cursor is between the two. -/
structure Journal.Facing (files : JournalFiles) (j : Journal)
    (passed rest : List Frame) : Prop where
  page : ∃ p, j.page = some p ∧ PageUnit.Shows p.size (files.bytes p.pageId) (passed ++ rest)
  frame : j.frame = 24 + span passed
  typed : ∀ f ∈ passed ++ rest, 0 < f.msgType

namespace Journal.Facing

variable {files : JournalFiles} {j : Journal} {passed rest : List Frame}

theorem hasData (facing : Facing files j passed rest) (page : j.page = some p) :
    FrameUnit.hasData (files.bytes p.pageId) j.frame = !rest.isEmpty := by
  obtain ⟨q, same, shown⟩ := facing.page
  obtain rfl : p = q := Option.some.inj (page.symm.trans same)
  rw [facing.frame]
  cases rest with
  | nil => simpa using shown.slot
  | cons f rest =>
    rw [shown.chain.get.hasData, decide_eq_true (facing.typed f (by simp))]
    rfl

theorem holds (facing : Facing files j passed (f :: rest)) (page : j.page = some p) :
    Holds (files.bytes p.pageId) j.frame f := by
  obtain ⟨q, same, shown⟩ := facing.page
  obtain rfl : p = q := Option.some.inj (page.symm.trans same)
  rw [facing.frame]
  exact shown.chain.get

/-- `next` passes the frame in front of the cursor. -/
theorem next (facing : Facing files j passed (f :: rest)) :
    ∃ j', Journal.next (j, files) = .ok () (j', files) ∧ j'.page = j.page ∧
      Facing files j' (passed ++ [f]) rest := by
  obtain ⟨p, page, shown⟩ := facing.page
  have holds := facing.holds page
  have type : FrameUnit.msgType (files.bytes p.pageId) j.frame ≠ pageEndTag := by
    rw [holds.msgType]
    intro zero
    have positive := facing.typed f (by simp)
    rw [zero] at positive
    exact absurd positive (by decide)
  refine ⟨{ j with frame := FrameUnit.moveToNext (files.bytes p.pageId) j.frame
                   pageFrameNb := j.pageFrameNb + 1 }, ?_, rfl,
                     ⟨⟨p, page, by simpa using shown⟩, ?_, ?_⟩⟩
  · simp [Journal.next, page, type]
  · change FrameUnit.moveToNext (files.bytes p.pageId) j.frame = _
    rw [holds.moveToNext, facing.frame]
    simp [Nat.add_assoc]
  · simpa using facing.typed

end Journal.Facing

namespace Reader

/-- The two uids stand side by side in the key. -/
theorem journalKey_toNat (locationUid destId : UInt32) :
    (journalKey locationUid destId).toNat = locationUid.toNat * 2 ^ 32 + destId.toNat := by
  have small : locationUid.toNat <<< 32 < 2 ^ 64 := by
    have := locationUid.toNat_lt
    rw [Nat.shiftLeft_eq]
    omega
  have shifted : (locationUid.toUInt64 <<< 32).toNat = locationUid.toNat <<< 32 := by
    rw [UInt64.toNat_shiftLeft]
    exact Nat.mod_eq_of_lt small
  rw [journalKey, UInt64.toNat_or, shifted, UInt32.toNat_toUInt64,
    ← Nat.shiftLeft_add_eq_or_of_lt destId.toNat_lt, Nat.shiftLeft_eq]

theorem journalKey_inj : journalKey u d = journalKey u' d' ↔ u = u' ∧ d = d' := by
  constructor
  · intro same
    have value := congrArg UInt64.toNat same
    rw [journalKey_toNat, journalKey_toNat] at value
    have := d.toNat_lt
    have := d'.toNat_lt
    exact ⟨UInt32.toNat_inj.mp (by omega), UInt32.toNat_inj.mp (by omega)⟩
  · rintro ⟨rfl, rfl⟩
    rfl

/-- Every joined journal faces its pending frames, and the current one is joined. -/
structure Tracks (r : Reader) (store : FileStore) (pending : UInt64 → List Frame) : Prop where
  keys : (r.journals.map Prod.fst).Nodup
  journals : ∀ entry ∈ r.journals, ∃ passed,
    Journal.Facing (store entry.1) entry.2 passed (pending entry.1)
  current : ∀ key, r.current = some key → key ∈ r.journals.map Prod.fst

variable {r : Reader} {store : FileStore} {pending : UInt64 → List Frame} {now : Int64}

def heads (r : Reader) (pending : UInt64 → List Frame) : List (UInt64 × Option Int64) :=
  r.journals.map fun entry => (entry.1, (pending entry.1).head?.map Frame.genTime)

theorem sortFrom_eq (entries : List (UInt64 × Journal))
    (facing : ∀ entry ∈ entries, ∃ passed,
      Journal.Facing (store entry.1) entry.2 passed (pending entry.1))
    (bound : Int64) (current : Option UInt64) :
    sortFrom store entries bound current = .ok (OrderedMerge.pick
      (entries.map fun entry =>
        (entry.1, (pending entry.1).head?.map Frame.genTime)) bound current) := by
  induction entries generalizing bound current with
  | nil => rfl
  | cons entry entries ih =>
    obtain ⟨key, j⟩ := entry
    obtain ⟨passed, here⟩ := facing (key, j) List.mem_cons_self
    have rest := ih (fun e member => facing e (List.mem_cons_of_mem _ member))
    replace here : Journal.Facing (store key) j passed (pending key) := here
    obtain ⟨p, page, _⟩ := here.page
    have data := here.hasData page
    cases list : pending key with
    | nil =>
      rw [list] at data
      simp [sortFrom, page, data, list, rest, OrderedMerge.pick]
    | cons f fs =>
      rw [list] at data here
      have time := (here.holds page).genTime
      by_cases le : f.genTime ≤ bound
      · simp [sortFrom, page, data, time, list, rest, OrderedMerge.pick, le]
      · simp [sortFrom, page, data, time, list, rest, OrderedMerge.pick, le]

theorem sort_eq (tracks : Tracks r store pending) (now : Int64) :
    sort now (r, store) =
      .ok () ({ r with current := OrderedMerge.pick (heads r pending) now r.current }, store) := by
  have picked := sortFrom_eq r.journals tracks.journals now r.current
  simp only [sort, bind_apply, get_apply, picked, set_apply]
  rfl

theorem mem_heads : (key, some t) ∈ heads r pending ↔
    key ∈ r.journals.map Prod.fst ∧ ∃ f rest, pending key = f :: rest ∧ f.genTime = t := by
  simp only [heads, List.mem_map, Prod.mk.injEq]
  constructor
  · rintro ⟨entry, member, rfl, head⟩
    cases list : pending entry.1 with
    | nil => simp [list] at head
    | cons f rest => exact ⟨⟨entry, member, rfl⟩, f, rest, rfl, by simpa [list] using head⟩
  · rintro ⟨⟨entry, member, rfl⟩, f, rest, list, rfl⟩
    exact ⟨entry, member, rfl, by simp [list]⟩

/-- The current journal is one whose pending frames begin earliest. -/
structure Chosen (r : Reader) (pending : UInt64 → List Frame) (key : UInt64)
    (f : Frame) : Prop where
  current : r.current = some key
  joined : key ∈ r.journals.map Prod.fst
  head : (pending key).head? = some f
  earliest : ∀ key' ∈ r.journals.map Prod.fst, ∀ g ∈ (pending key').head?, f.genTime ≤ g.genTime

/-- `sort` with a clock behind no pending frame. -/
theorem sort_spec (tracks : Tracks r store pending)
    (clock : ∀ key ∈ r.journals.map Prod.fst, ∀ f ∈ pending key, f.genTime ≤ now) :
    ∃ r', sort now (r, store) = .ok () (r', store) ∧ r'.journals = r.journals ∧
      r'.isLazy = r.isLazy ∧ Tracks r' store pending ∧
      ((∃ key f, Chosen r' pending key f) ∨
        (r' = r ∧ ∀ key ∈ r.journals.map Prod.fst, pending key = [])) := by
  have sorted := sort_eq tracks now
  by_cases some' : ∃ key ∈ r.journals.map Prod.fst, pending key ≠ []
  · obtain ⟨key, member, nonempty⟩ := some'
    obtain ⟨f, rest, list⟩ := List.exists_cons_of_ne_nil nonempty
    have behind : ∀ k t, (k, some t) ∈ heads r pending → t ≤ now := by
      intro k t head
      obtain ⟨joined, g, gs, here, rfl⟩ := mem_heads.mp head
      exact clock k joined g (by rw [here]; exact List.mem_cons_self)
    obtain ⟨k, t, picked, earliest⟩ := OrderedMerge.pick_earliest behind r.current
      (mem_heads.mpr ⟨member, f, rest, list, rfl⟩)
    obtain ⟨joined, g, gs, here, rfl⟩ := mem_heads.mp earliest.1
    rw [picked] at sorted
    refine ⟨_, sorted, rfl, rfl, ⟨tracks.keys, tracks.journals, ?_⟩,
      Or.inl ⟨k, g, rfl, joined, ?_, ?_⟩⟩
    · rintro key' rfl'
      obtain rfl := Option.some.inj rfl'
      exact joined
    · rw [here]
      rfl
    · intro key' joined' h head
      cases list' : pending key' with
      | nil => simp [list'] at head
      | cons h' hs =>
        obtain rfl : h' = h := by simpa [list'] using head
        exact earliest.2 key' h'.genTime (mem_heads.mpr ⟨joined', h', hs, list', rfl⟩)
  · have none : ∀ key ∈ r.journals.map Prod.fst, pending key = [] := by
      intro key member
      by_contra nonempty
      exact some' ⟨key, member, nonempty⟩
    have empty : ∀ head ∈ heads r pending, head.2 = Option.none := by
      intro head member
      obtain ⟨entry, present, rfl⟩ := List.mem_map.mp member
      simp [none entry.1 (List.mem_map_of_mem present)]
    rw [OrderedMerge.pick_empty empty] at sorted
    exact ⟨r, sorted, rfl, rfl, tracks, Or.inr ⟨rfl, none⟩⟩

theorem find_eq_none_iff : r.find key = none ↔ key ∉ r.journals.map Prod.fst := by
  rw [find, List.lookup_eq_none_iff]
  constructor
  · intro absent member
    obtain ⟨entry, present, rfl⟩ := List.mem_map.mp member
    simpa using absent entry present
  · intro absent entry present
    rw [bne_iff_ne]
    rintro rfl
    exact absent (List.mem_map_of_mem present)

theorem find_of_mem (keys : (r.journals.map Prod.fst).Nodup) (member : (key, j) ∈ r.journals) :
    r.find key = some j := by
  obtain ⟨isLazy, current, journals⟩ := r
  simp only [find] at member keys ⊢
  induction journals with
  | nil => simp at member
  | cons entry rest ih =>
    obtain ⟨k, i⟩ := entry
    rw [List.map_cons, List.nodup_cons] at keys
    rcases List.mem_cons.mp member with same | later
    · obtain ⟨rfl, rfl⟩ : key = k ∧ j = i := by simpa using same
      simp
    · have other : key ≠ k := by
        rintro rfl
        exact keys.1 (List.mem_map.mpr ⟨_, later, rfl⟩)
      rw [List.lookup_cons, beq_false_of_ne other]
      exact ih keys.2 later

theorem joined_entry (tracks : Tracks r store pending) (joined : key ∈ r.journals.map Prod.fst) :
    ∃ j passed, (key, j) ∈ r.journals ∧ r.find key = some j ∧
      Journal.Facing (store key) j passed (pending key) := by
  obtain ⟨⟨k, j⟩, member, rfl⟩ := List.mem_map.mp joined
  obtain ⟨passed, facing⟩ := tracks.journals _ member
  exact ⟨j, passed, member, find_of_mem tracks.keys member, facing⟩

theorem currentFrame_spec (tracks : Tracks r store pending) (current : r.current = some key) :
    ∃ j p passed, r.find key = some j ∧ j.page = some p ∧
      Journal.Facing (store key) j passed (pending key) ∧
      currentFrame (r, store) = .ok ((store key).bytes p.pageId, j.frame) (r, store) := by
  obtain ⟨j, passed, _, found, facing⟩ := joined_entry tracks (tracks.current key current)
  obtain ⟨p, page, _⟩ := facing.page
  refine ⟨j, p, passed, found, page, facing, ?_⟩
  simp [currentFrame, current, found, page]

/-- `dataAvailable` chooses an earliest pending frame, or finds every journal
drained. -/
theorem dataAvailable_spec (tracks : Tracks r store pending)
    (clock : ∀ key ∈ r.journals.map Prod.fst, ∀ f ∈ pending key, f.genTime ≤ now) :
    ∃ b r', dataAvailable now (r, store) = .ok b (r', store) ∧ r'.journals = r.journals ∧
      Tracks r' store pending ∧
      ((b = true ∧ ∃ key f, Chosen r' pending key f) ∨
        (b = false ∧ r' = r ∧ ∀ key ∈ r.journals.map Prod.fst, pending key = [])) := by
  obtain ⟨r', sorted, same, _, tracks', result⟩ := sort_spec tracks clock
  cases current : r'.current with
  | none =>
    rcases result with ⟨key, f, chosen⟩ | ⟨rfl, empty⟩
    · rw [chosen.current] at current
      contradiction
    · refine ⟨false, r', ?_, same, tracks', Or.inr ⟨rfl, rfl, empty⟩⟩
      simp [dataAvailable, sorted, current]
  | some key =>
    obtain ⟨j, p, passed, _, page, facing, read⟩ := currentFrame_spec tracks' current
    have data := facing.hasData page
    have available : dataAvailable now (r, store) = .ok (!(pending key).isEmpty) (r', store) := by
      simp [dataAvailable, sorted, current, read, data]
    refine ⟨_, r', available, same, tracks', ?_⟩
    rcases result with ⟨key', f, chosen⟩ | ⟨rfl, empty⟩
    · obtain rfl : key' = key := Option.some.inj (chosen.current.symm.trans current)
      have nonempty : pending key' ≠ [] := by
        intro nil
        have := chosen.head
        simp [nil] at this
      exact Or.inl ⟨by simpa using nonempty, key', f, chosen⟩
    · have drained := empty key (tracks'.current key current)
      exact Or.inr ⟨by simp [drained], rfl, empty⟩

/-- One of the journals is put where it faces the frames that are pending of it now. -/
theorem Tracks.replace (keys : (r.journals.map Prod.fst).Nodup)
    (facing : ∃ passed, Journal.Facing (store key) j passed (pending key))
    (others : ∀ entry ∈ r.journals, entry.1 ≠ key →
      ∃ passed, Journal.Facing (store entry.1) entry.2 passed (pending entry.1))
    (current : ∀ k, r.current = some k → k ∈ r.journals.map Prod.fst) :
    Tracks (r.replace key j) store pending := by
  refine ⟨by rwa [replace_keys], fun entry member => ?_, fun k same => ?_⟩
  · rcases mem_replace member with rfl | ⟨other, present⟩
    · exact facing
    · exact others entry present other
  · rw [replace_keys]
    exact current k same

theorem read_spec (tracks : Tracks r store pending) (current : r.current = some key)
    (head : pending key = f :: rest) :
    ∃ m a, currentFrame (r, store) = .ok (m, a) (r, store) ∧ FrameUnit.read m a = f := by
  obtain ⟨j, p, passed, _, page, facing, read⟩ := currentFrame_spec tracks current
  rw [head] at facing
  exact ⟨_, _, read, (facing.holds page).read⟩

/-- `next` passes the current journal's frame and sorts again. -/
theorem next_spec (tracks : Tracks r store pending) (current : r.current = some key)
    (found : r.find key = some j) (facing : Journal.Facing (store key) j passed (f :: rest))
    (head : pending key = f :: rest)
    (clock : ∀ key ∈ r.journals.map Prod.fst, ∀ f ∈ pending key, f.genTime ≤ now) :
    ∃ r' j', next now (r, store) = .ok () (r', store) ∧
      r'.journals = (r.replace key j').journals ∧ j'.page = j.page ∧
      Journal.Facing (store key) j' (passed ++ [f]) rest ∧
      r'.journals.map Prod.fst = r.journals.map Prod.fst ∧
      Tracks r' store (Function.update pending key rest) := by
  obtain ⟨j', moved, page, facing'⟩ := facing.next
  have advanced : onJournal key Journal.next (r, store) = .ok () (r.replace key j', store) := by
    simp [onJournal, found, moved]
  have keys := replace_keys r key j'
  have tracks' : Tracks (r.replace key j') store (Function.update pending key rest) := by
    refine .replace tracks.keys ⟨passed ++ [f], ?_⟩ (fun entry present other => ?_) tracks.current
    · rw [Function.update_self]
      exact facing'
    · rw [Function.update_of_ne other]
      exact tracks.journals _ present
  have clock' : ∀ k ∈ (r.replace key j').journals.map Prod.fst,
      ∀ g ∈ Function.update pending key rest k, g.genTime ≤ now := by
    rw [keys]
    intro k member' g present
    apply clock k member' g
    by_cases same : k = key
    · subst same
      rw [Function.update_self] at present
      rw [head]
      exact List.mem_cons_of_mem _ present
    · rwa [Function.update_of_ne same] at present
  obtain ⟨r', sorted, same, _, tracks'', _⟩ := sort_spec tracks' clock'
  refine ⟨r', j', ?_, same, page, facing', by rw [same, keys], tracks''⟩
  simp [next, current, advanced, sorted]

section Join
variable {r : Reader} {location : JLocation} {destId : UInt32} {fromTime : Int64}
    {pageRollbackSize : Nat}
  {order : List (UInt64 × Journal) → List (UInt64 × Journal)} {now : Int64}

theorem join_known (store : FileStore) (found : r.find (journalKey location.uid destId) = some j) :
    join location destId fromTime pageRollbackSize order now (r, store) =
      (do if (← get).1.current = none then sort now : ReaderM Unit) (r, store) := by
  simp [join, found]

theorem join_new (store : FileStore) (absent : r.find (journalKey location.uid destId) = none) :
    join location destId fromTime pageRollbackSize order now (r, store) =
      (onJournal (journalKey location.uid destId) (Journal.seekToTime fromTime) >>= fun _ =>
        (do if (← get).1.current = none then sort now : ReaderM Unit))
        ({ r with journals := order ((journalKey location.uid destId,
          Journal.make location destId false r.isLazy pageRollbackSize) :: r.journals) },
            store) := by
  simp [join, absent]

end Join

/-- Joining a channel whose journal seeks to a cursor that faces `frames`. -/
theorem join_spec {location : JLocation} {destId : UInt32} {fromTime : Int64}
    {order : List (UInt64 × Journal) → List (UInt64 × Journal)} {files' : JournalFiles}
    (tracks : Tracks r store pending) (perm : ∀ entries, (order entries).Perm entries)
    (new : journalKey location.uid destId ∉ r.journals.map Prod.fst)
    (seek : Journal.seekToTime fromTime (Journal.make location destId false r.isLazy 0,
      store (journalKey location.uid destId)) = .ok () (j', files'))
    (facing : Journal.Facing files' j' passed frames)
    (clock : ∀ key ∈ r.journals.map Prod.fst, ∀ f ∈ pending key, f.genTime ≤ now)
    (clock' : ∀ f ∈ frames, f.genTime ≤ now) :
    ∃ r', join location destId fromTime 0 order now (r, store) =
        .ok () (r', Function.update store (journalKey location.uid destId) files') ∧
      (r'.journals.map Prod.fst).Perm (journalKey location.uid destId :: r.journals.map Prod.fst) ∧
      (journalKey location.uid destId, j') ∈ r'.journals ∧ r'.isLazy = r.isLazy ∧
      Tracks r' (Function.update store (journalKey location.uid destId) files')
        (Function.update pending (journalKey location.uid destId) frames) := by
  generalize keyEq : journalKey location.uid destId = key at *
  let journal := Journal.make location destId false r.isLazy 0
  let opened : Reader := { r with journals := order ((key, journal) :: r.journals) }
  have absent : r.find key = none := find_eq_none_iff.mpr new
  have entries : opened.journals.Perm ((key, journal) :: r.journals) := perm _
  have keys : (opened.journals.map Prod.fst).Perm (key :: r.journals.map Prod.fst) :=
    entries.map Prod.fst
  have nodup : (opened.journals.map Prod.fst).Nodup :=
    keys.nodup_iff.mpr (List.nodup_cons.mpr ⟨new, tracks.keys⟩)
  have found : opened.find key = some journal :=
    find_of_mem nodup (entries.mem_iff.mpr List.mem_cons_self)
  let joined := opened.replace key j'
  let store' := Function.update store key files'
  let pending' := Function.update pending key frames
  have sought :
      onJournal key (Journal.seekToTime fromTime) (opened, store) = .ok () (joined, store') := by
    simp [onJournal, found, journal, seek, joined, store']
  have keys' : joined.journals.map Prod.fst = opened.journals.map Prod.fst :=
    replace_keys opened key j'
  have tracks' : Tracks joined store' pending' := by
    refine .replace nodup ⟨passed, ?_⟩ (fun entry present other => ?_) fun k current => ?_
    · simp only [store', pending', Function.update_self]
      exact facing
    · simp only [store', pending', Function.update_of_ne other]
      rcases List.mem_cons.mp (entries.mem_iff.mp present) with head | old
      · exact absurd (congrArg Prod.fst head) other
      · exact tracks.journals _ old
    · exact keys.mem_iff.mpr (List.mem_cons_of_mem _ (tracks.current k current))
  have behind : ∀ k ∈ joined.journals.map Prod.fst, ∀ f ∈ pending' k, f.genTime ≤ now := by
    rw [keys']
    intro k member f present
    by_cases same : k = key
    · subst same
      simp only [pending', Function.update_self] at present
      exact clock' f present
    · simp only [pending', Function.update_of_ne same] at present
      have old := keys.mem_iff.mp member
      exact clock k ((List.mem_cons.mp old).resolve_left same) f present
  have present : (key, j') ∈ joined.journals := by
    simp only [joined, replace, List.mem_map]
    exact ⟨(key, journal), entries.mem_iff.mpr List.mem_cons_self, by simp⟩
  have joins : join location destId fromTime 0 order now (r, store) =
      (do if (← get).1.current = none then sort now : ReaderM Unit) (joined, store') := by
    rw [join_new store (by rwa [keyEq]), keyEq]
    exact bind_ok sought _
  rw [joins]
  cases current : r.current with
  | none =>
    obtain ⟨r', sorted, same, lazySame, tracks'', _⟩ := sort_spec tracks' behind
    refine ⟨r', ?_, by rw [same, keys']; exact keys, by rw [same]; exact present,
      lazySame, tracks''⟩
    have none' : joined.current = Option.none := current
    simp [none', sorted, store']
  | some k =>
    refine ⟨joined, ?_, by rw [keys']; exact keys, present, rfl, tracks'⟩
    have some' : joined.current = Option.some k := current
    simp [some', store']

end Reader
end BTrader
