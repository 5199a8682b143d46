import BTrader.Journal.PageWalk

/-! What an observer of a page sees between any two stores of a write. The stores
are those of the write functions in program order, each one atomic. -/
namespace BTrader
open ByteMemory Infra Procedure

namespace PageUnit

def noData (m : Memory) (a : Nat) : Bool := !FrameUnit.hasData m a

/-- An observer walks the page by stored lengths and stops at the first slot
without data. -/
def observe (size : Nat) (m : Memory) : Option (List (Nat × Frame) × Nat) :=
  walk noData m size (firstFrameAddress m)

/-- The page shows exactly these frames. -/
structure Shows (size : Nat) (m : Memory) (fs : List Frame) : Prop where
  header : Header size m
  chain : Chain m 24 fs
  slot : FrameUnit.hasData m (24 + span fs) = false

theorem Shows.observe {m : Memory} {size : Nat} (shows' : Shows size m fs)
    (types : ∀ f ∈ fs, 0 < f.msgType) (inside : 24 + span fs ≤ size) :
    observe size m = some (place 24 fs, 24 + span fs) := by
  have short := length_le_span fs
  rw [PageUnit.observe, shows'.header.firstFrameAddress]
  apply walk_chain shows'.chain _ _ (by omega)
  · intro b f holds member
    simp [noData, holds.hasData, types f member]
  · simp [noData, shows'.slot]

theorem Stored.shows {m : Memory} {size : Nat} (stored : Stored size m fs) : Shows size m fs :=
  ⟨stored.header, stored.chain, stored.slot_hasData⟩

/-- A page sealed with a marker shows the frames before it. -/
theorem Stored.shows_sealed {m : Memory} {size : Nat} (stored : Stored size m (fs ++ [mark]))
    (isPageEnd : mark.msgType = pageEndTag) : Shows size m fs := by
  have parts := chain_concat.mp stored.chain
  refine ⟨stored.header, parts.1, ?_⟩
  rw [parts.2.hasData, isPageEnd]
  rfl

theorem Shows.congr {m m' : Memory} {size : Nat} (shows' : Shows size m fs)
    (same : ∀ x, x < 16 ∨ 24 ≤ x → x < 24 + span fs → m' x = m x)
    (slot : FrameUnit.hasData m' (24 + span fs) = false) : Shows size m' fs :=
  ⟨shows'.header.congr (fun x hx => same x (Or.inl hx.2) (by have := hx.2; omega)),
    shows'.chain.congr (fun x hx => same x (Or.inr hx.1) hx.2), slot⟩

theorem last_frame {m : Memory} (cursor : x < 16 ∨ 24 ≤ x) :
    m.exec (setLastFramePosition position) x = m x := by
  rw [Memory.exec, write_frame]
  simp only [setLastFramePosition, Store.Touches, word64_address, word64_length]
  omega

/-- The last frame position is no part of what an observer sees. -/
theorem Shows.before_last {m : Memory} {size : Nat}
    (shows' : Shows size (m.exec (setLastFramePosition position)) fs) : Shows size m fs := by
  have same (x : Nat) (cursor : x < 16 ∨ 24 ≤ x) :
      m x = m.exec (setLastFramePosition position) x := (last_frame cursor).symm
  refine shows'.congr (fun x cursor _ => same x cursor) ?_
  rw [FrameUnit.hasData_congr (fun x hx => same x (Or.inr (by have := hx.1; omega)))]
  exact shows'.slot

end PageUnit

namespace Writer
open PageUnit

variable {m : Memory} {fs : List Frame}

/-- The stores of a write before the one that publishes its length. -/
def Draft.unpublishedStores (d : Draft) (a : Nat) : List StoreOp :=
  d.fillStores a ++
    (clearBytes (a + 40 + d.data.length) sizeofFrameHeader ++ [FrameUnit.setGenTime a d.genTime])

theorem Draft.stores_split (d : Draft) (a : Nat) :
    d.stores a = d.unpublishedStores a ++
      [FrameUnit.setDataLength a (UInt32.ofNat d.data.length),
       PageUnit.setLastFramePosition (UInt64.ofNat a)] := by
  simp [Draft.stores, Draft.unpublishedStores, closeStores]

theorem Draft.unpublished_touches {d : Draft} (member : op ∈ d.unpublishedStores a)
    (touched : (op m).Touches x) : a + 4 ≤ x := by
  simp only [Draft.unpublishedStores, Draft.fillStores, openStores, List.mem_append, List.mem_cons,
    List.not_mem_nil, or_false] at member
  rcases member with (opened | copied | targeted) | cleared | rfl
  · rcases opened with rfl | rfl | rfl | rfl | rfl <;>
      simp [Store.Touches, FrameUnit.setHeaderLength, FrameUnit.setTriggerTime,
        FrameUnit.setMsgType, FrameUnit.setSource, FrameUnit.setDest] at touched <;> omega
  · have := copyBytes_touches copied touched
    omega
  · cases retarget : d.retarget with
    | none => simp [retargetStores, retarget] at targeted
    | some target =>
      simp only [retargetStores, retarget, List.mem_cons, List.not_mem_nil, or_false] at targeted
      rcases targeted with rfl | rfl <;>
        simp [Store.Touches, FrameUnit.setSource, FrameUnit.setDest] at touched <;> omega
  · have := copyBytes_touches cleared touched
    omega
  · simp [Store.Touches, FrameUnit.setGenTime] at touched
    omega

/-- A slot keeps length 0 under stores that leave its first word alone. -/
theorem shows_under {size : Nat} {ops : List StoreOp} (stored : Stored size m fs)
    (above : ∀ op ∈ ops, ∀ m x, (op m).Touches x → 24 + span fs + 4 ≤ x) :
    Shows size (m.execAll ops) fs ∧ FrameUnit.frameLength (m.execAll ops) (24 + span fs) = 0 := by
  have kept (x : Nat) (low : x < 24 + span fs + 4) : m.execAll ops x = m x := by
    apply execAll_frame
    intro op member m' touched
    have := above op member m' x touched
    omega
  have zero : FrameUnit.frameLength (m.execAll ops) (24 + span fs) = 0 :=
    load32_zero (fun x hx => (kept x hx.2).trans (stored.clear x hx.1))
  refine ⟨stored.shows.congr (fun x _ low => kept x (by omega)) ?_, zero⟩
  rw [FrameUnit.hasData, zero]
  rfl

/-- What a page shows after the first `n` stores of a write on it. -/
theorem Draft.stores_shows {size : Nat} (d : Draft) (stored : Stored size m fs)
    (fits : d.data.length + 40 < 2 ^ 32) (n : Nat) :
    let ops := d.stores (24 + span fs)
    let shown := if n + 1 < ops.length then fs else fs ++ [d.frame]
    Shows size (m.execAll (ops.take n)) shown ∧
      FrameUnit.frameLength (m.execAll (ops.take n)) (24 + span shown) = 0 := by
  intro ops shown
  let before := d.unpublishedStores (24 + span fs)
  have split : ops = before ++
      [FrameUnit.setDataLength (24 + span fs) (UInt32.ofNat d.data.length),
      setLastFramePosition (UInt64.ofNat (24 + span fs))] := d.stores_split _
  have count : ops.length = before.length + 2 := by rw [split]; simp
  by_cases unpublished : n + 1 < ops.length
  · have shownEq : shown = fs := if_pos unpublished
    have taken : ops.take n = before.take n := by
      rw [split, List.take_append_of_le_length (by omega)]
    rw [shownEq, taken]
    apply shows_under stored
    intro op member m' x touched
    exact unpublished_touches (List.mem_of_mem_take member) touched
  · have shownEq : shown = fs ++ [d.frame] := if_neg unpublished
    have written : Stored size (m.execAll ops) (fs ++ [d.frame]) := stored.place (d.places fits)
    rw [shownEq]
    by_cases whole : ops.length ≤ n
    · rw [List.take_of_length_le whole]
      exact ⟨written.shows, written.slot_length⟩
    · have almost : n = before.length + 1 := by omega
      let m' := m.execAll (ops.take n)
      have last : m.execAll ops = m'.exec (setLastFramePosition (UInt64.ofNat (24 + span fs))) := by
        have parts : ops = ops.take n ++ [setLastFramePosition (UInt64.ofNat (24 + span fs))] := by
          rw [split, almost]
          simp [List.take_append, List.take_of_length_le]
        rw [parts, execAll_append]
        rfl
      rw [last] at written
      refine ⟨written.shows.before_last, ?_⟩
      rw [← written.slot_length]
      exact load32_congr (fun x hx => (last_frame (Or.inr (by have := hx.1; omega))).symm)

/-- The page left behind shows the same frames at every point of `closePage`. -/
theorem sealStores_shows {size : Nat} (stored : Stored size m fs) (t pe : Int64) (s d : UInt32)
    (n : Nat) : Shows size (m.execAll ((sealStores (24 + span fs) t pe s d).take n)) fs := by
  have written := (stored.sealed t pe s d).shows_sealed rfl
  have count : (pageEndStores (24 + span fs) t pe s d).length = 7 := rfl
  rw [sealStores] at written ⊢
  rcases Nat.lt_trichotomy n 7 with early | rfl | late
  · rw [List.take_append_of_le_length (by omega)]
    refine (shows_under stored ?_).1
    intro op member m' x touched
    have member : op ∈ (pageEndStores (24 + span fs) t pe s d).take 6 :=
      List.take_subset_take_left _ (by omega) member
    simp only [pageEndStores, List.take_succ_cons, List.take_zero, List.mem_cons, List.not_mem_nil,
      or_false] at member
    rcases member with rfl | rfl | rfl | rfl | rfl | rfl <;>
      simp [Store.Touches, FrameUnit.setHeaderLength, FrameUnit.setTriggerTime,
        FrameUnit.setMsgType, FrameUnit.setSource, FrameUnit.setDest,
        FrameUnit.setGenTime] at touched <;> omega
  · rw [List.take_append_of_le_length (by omega), List.take_of_length_le (by omega)]
    rw [execAll_append] at written
    exact written.before_last
  · rw [List.take_of_length_le (by simp [count]; omega)]
    exact written

end Writer

namespace WriteOp
open PageUnit

variable {location : JLocation} {destId : UInt32} {files : JournalFiles} {log : Log}

/-- The operations that open, fill and close their frame in place. -/
def InPlace : WriteOp → Prop
  | copyFrame _ _ _ => False
  | _ => True

theorem InPlace.stores_eq {op : WriteOp} (inPlace : op.InPlace) (s d : UInt32) :
    ∃ draft : Writer.Draft, op.frame s d = draft.frame ∧ op.stores s d = draft.stores := by
  cases op with
  | copyFrame source t pe => exact inPlace.elim
  | _ => exact ⟨_, rfl, rfl⟩

/-- A page store that leaves the other pages alone. -/
theorem shows_closed (layout : Layout location files log) (k : Nat) (other : log.lastPageId ≤ k)
    (ops : List StoreOp) (page : (log.closed.map Prod.fst)[i]? = some fs) :
    Shows (findPageSize location) ((files.store k ops).bytes (i + 1)) fs := by
  have bound := (List.getElem?_eq_some_iff.mp page).1
  rw [List.length_map] at bound
  rw [List.getElem?_map] at page
  obtain ⟨⟨gs, mark⟩, closed, rfl⟩ := Option.map_eq_some_iff.mp page
  rw [JournalFiles.store_bytes_other _ (by rw [Log.lastPageId] at other; omega)]
  exact (layout.closed closed).shows_sealed mark.isPageEnd

/-- What all pages show while the frame is stored in the opened journal. -/
theorem opened_shows {op : WriteOp} (inPlace : op.InPlace) (layout : Layout location files log)
    (adm : op.Admissible location) (n : Nat) :
    let ops := op.stores location.uid destId (24 + span log.current)
    let current := if n + 1 < ops.length then log.current
      else log.current ++ [op.frame location.uid destId]
    (∀ i fs, (PagedLog.pages (⟨log.closed, current⟩ : Log))[i]? = some fs →
      Shows (findPageSize location) ((files.store log.lastPageId (ops.take n)).bytes (i + 1)) fs) ∧
    FrameUnit.frameLength ((files.store log.lastPageId (ops.take n)).bytes log.lastPageId)
      (24 + span current) = 0 := by
  intro ops current
  obtain ⟨draft, frame, stores⟩ := inPlace.stores_eq location.uid destId
  have bounds := findPageSize_bounds location
  have mib : mebibyte = 1048576 := rfl
  have small := adm.size_lt location.uid destId
  have fits : draft.data.length + 40 < 2 ^ 32 := by
    rw [frame, Frame.size_eq, Writer.Draft.frame_data] at small
    omega
  have page : Shows (findPageSize location)
        ((files.store log.lastPageId (ops.take n)).bytes log.lastPageId) current ∧
      FrameUnit.frameLength ((files.store log.lastPageId (ops.take n)).bytes log.lastPageId)
        (24 + span current) = 0 := by
    rw [JournalFiles.store_bytes_same]
    have shown := draft.stores_shows layout.current fits n
    rwa [← frame, ← stores] at shown
  refine ⟨?_, page.2⟩
  intro i fs here
  have bound := (List.getElem?_eq_some_iff.mp here).1
  simp only [PagedLog.pages, List.length_append, List.length_map, List.length_singleton] at bound
  by_cases last : i = log.closed.length
  · subst last
    obtain rfl : current = fs := by simpa [PagedLog.pages] using here
    exact page.1
  · rw [PagedLog.pages, List.getElem?_append_left (by simp; omega)] at here
    exact shows_closed layout _ (le_refl _) _ here

/-- What all pages show while the last one is sealed and the new one is blank. -/
theorem sealing_shows (layout : Layout location files log) (t pe : Int64) (destId : UInt32)
    (n : Nat) (marker : PageEnd) :
    let shown : Log := ⟨log.closed ++ [(log.current, marker)], []⟩
    let now := (files.addPage (log.lastPageId + 1) (findPageSize location)).store log.lastPageId
      ((Writer.sealStores (24 + span log.current) t pe location.uid destId).take n)
    (∀ i fs, shown.pages[i]? = some fs → Shows (findPageSize location) (now.bytes (i + 1)) fs) ∧
    FrameUnit.frameLength (now.bytes shown.lastPageId) (24 + span shown.current) = 0 := by
  intro shown now
  have blank := initial_stored (findPageSize location)
  have old := Writer.sealStores_shows layout.current t pe location.uid destId n
  refine ⟨?_, ?_⟩
  · intro i fs here
    have bound := (List.getElem?_eq_some_iff.mp here).1
    simp only [shown, PagedLog.pages, List.map_append, List.map_cons, List.map_nil,
      List.length_append, List.length_map, List.length_singleton, List.append_assoc] at bound here
    rcases Nat.lt_trichotomy i log.closed.length with before | rfl | after
    · rw [List.getElem?_append_left (by simpa using before)] at here
      have page := shows_closed layout log.lastPageId (le_refl _)
        ((Writer.sealStores (24 + span log.current) t pe location.uid destId).take n) here
      rw [JournalFiles.store_bytes_other _ (by rw [Log.lastPageId]; omega)] at page ⊢
      rwa [JournalFiles.addPage_bytes_other _ (by rw [Log.lastPageId]; omega)]
    · obtain rfl : log.current = fs := by simpa using here
      rw [← Log.lastPageId, JournalFiles.store_bytes_same,
        JournalFiles.addPage_bytes_other _ (by omega)]
      exact old
    · obtain rfl : i = log.closed.length + 1 := by omega
      obtain rfl : [] = fs := by simpa using here
      rw [← Log.lastPageId, JournalFiles.store_bytes_other _ (by omega),
        JournalFiles.addPage_bytes_same]
      exact blank.shows
  · have last : shown.lastPageId = log.lastPageId + 1 := by simp [shown, Log.lastPageId]
    rw [last, JournalFiles.store_bytes_other _ (by omega), JournalFiles.addPage_bytes_same]
    exact blank.slot_length

theorem opened_contents (op : WriteOp) :
    (op.opened location destId log).contents = log.contents := by
  unfold opened
  split
  · rfl
  · simp [PagedLog.contents]

end WriteOp

/-- An observer of the journal's pages sees exactly the frames `seen`, with an empty
slot behind the last one. -/
structure Observed (location : JLocation) (files : JournalFiles) (seen : List Frame)
    (pages : List (List Frame)) : Prop where
  frames : pages.flatten = seen
  walks : ∀ i fs, pages[i]? = some fs →
    PageUnit.observe (findPageSize location) (files.bytes (i + 1)) =
      some (place 24 fs, 24 + span fs)
  slot : ∃ fs, pages.getLast? = some fs ∧
    FrameUnit.frameLength (files.bytes pages.length) (24 + span fs) = 0

/-- Whatever is mapped and wherever the writer is, this is what an observer sees. -/
def Sees (location : JLocation) (seen : List Frame) (files : JournalFiles) : Prop :=
  ∃ pages, Observed location files seen pages

namespace WriteOp
open PageUnit

variable {location : JLocation} {destId : UInt32} {files : JournalFiles} {log : Log}

theorem sees_of_shows {shown : Log}
    (bounded : PagedLog.Bounded Frame.size (pageRoom (findPageSize location)) shown)
    (typed : shown.Typed)
    (pages :
      ∀ i fs, shown.pages[i]? = some fs → Shows (findPageSize location) (files.bytes (i + 1)) fs)
    (slot : FrameUnit.frameLength (files.bytes shown.lastPageId) (24 + span shown.current) = 0) :
    Sees location shown.contents files := by
  have count : shown.pages.length = shown.lastPageId := by simp [PagedLog.pages, Log.lastPageId]
  refine ⟨shown.pages, shown.contents_pages, fun i fs page => ?_, shown.current,
    by simp [PagedLog.pages], ?_⟩
  · have member := List.mem_of_getElem? page
    have used := bounded.page member
    have room := pageRoom_bounds location
    rw [used_eq_span] at used
    refine (pages i fs page).observe ?_ (by omega)
    intro f present
    apply typed f
    rw [← shown.contents_pages]
    exact List.mem_flatten.mpr ⟨fs, member, present⟩
  · rw [count]
    exact slot

/-- Between writes the journal's content is seen. -/
theorem sees_layout (layout : Layout location files log) (typed : log.Typed) :
    Sees location log.contents files := by
  refine sees_of_shows layout.bounded typed (fun i fs page => ?_) layout.current.slot_length
  have bound := (List.getElem?_eq_some_iff.mp page).1
  simp only [PagedLog.pages, List.length_append, List.length_map, List.length_singleton] at bound
  by_cases last : i = log.closed.length
  · subst last
    obtain rfl : log.current = fs := by simpa [PagedLog.pages] using page
    exact layout.current.shows
  · rw [PagedLog.pages, List.getElem?_append_left (by simp; omega)] at page
    have shows' := shows_closed layout log.lastPageId (le_refl _) [] page
    rwa [JournalFiles.store_bytes_other _ (by rw [Log.lastPageId]; omega)] at shows'

/-- While a page is sealed and the next one is blank. -/
theorem sees_sealing (layout : Layout location files log) (typed : log.Typed) (marker : PageEnd)
    {sub : List StoreOp} {t pe : Int64}
    (inside : sub <+: Writer.sealStores (24 + span log.current) t pe location.uid destId) :
    Sees location log.contents
      ((files.addPage (log.lastPageId + 1) (findPageSize location)).store log.lastPageId sub) := by
  obtain ⟨pages, slot⟩ := sealing_shows layout t pe destId sub.length marker
  rw [← List.prefix_iff_eq_take.mp inside] at pages slot
  let shown : Log := ⟨log.closed ++ [(log.current, marker)], []⟩
  have same : shown.contents = log.contents := by simp [shown, PagedLog.contents]
  have room := pageRoom_bounds location
  have bounds := findPageSize_bounds location
  have mib : mebibyte = 1048576 := rfl
  have bounded : PagedLog.Bounded Frame.size (pageRoom (findPageSize location)) shown := by
    refine ⟨fun entry member => ?_, show 0 < pageRoom (findPageSize location) by omega⟩
    rcases List.mem_append.mp member with old | new
    · exact layout.bounded.closed entry old
    · exact List.mem_singleton.mp new ▸ layout.bounded.current
  rw [← same]
  exact sees_of_shows bounded (fun f member => typed f (same ▸ member)) pages slot

/-- While the frame is stored in the opened journal: it is seen from its length store on. -/
theorem sees_opened {op : WriteOp} (inPlace : op.InPlace) (layout : Layout location files log)
    (adm : op.Admissible location) (typed : log.Typed)
    (typed' : 0 < (op.frame location.uid destId).msgType)
    (fits : log.roomFor location (op.frame location.uid destId)) {sub : List StoreOp}
    (inside : sub <+: op.stores location.uid destId (24 + span log.current)) :
    Sees location
      (if sub.length + 1 < (op.stores location.uid destId (24 + span log.current)).length then
        log.contents
        else log.contents ++ [op.frame location.uid destId])
      (files.store log.lastPageId sub) := by
  obtain ⟨pages, slot⟩ := opened_shows inPlace layout adm sub.length
  rw [← List.prefix_iff_eq_take.mp inside] at pages slot
  have small := adm.size_lt location.uid destId
  have room := pageRoom_bounds location
  have written : op.append location destId log =
      ⟨log.closed, log.current ++ [op.frame location.uid destId]⟩ := PagedLog.append_of_fits fits _
  split
  · rw [if_pos ‹_›] at pages slot
    exact sees_of_shows layout.bounded typed pages slot
  · rw [if_neg ‹_›] at pages slot
    have contents :
        PagedLog.contents (⟨log.closed, log.current ++ [op.frame location.uid destId]⟩ : Log) =
        log.contents ++ [op.frame location.uid destId] := by
      rw [← written]
      exact PagedLog.contents_append _ _ _
    have bounded : PagedLog.Bounded Frame.size (pageRoom (findPageSize location))
        (⟨log.closed, log.current ++ [op.frame location.uid destId]⟩ : Log) := by
      rw [← written]
      exact layout.bounded.append (by omega) _
    rw [← contents]
    refine sees_of_shows bounded (fun f member => ?_) pages slot
    rw [contents] at member
    rcases List.mem_append.mp member with old | new
    · exact typed f old
    · exact List.mem_singleton.mp new ▸ typed'

end WriteOp
end BTrader
