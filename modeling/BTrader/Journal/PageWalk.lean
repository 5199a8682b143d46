import BTrader.Journal.Session

/-! The page walk: from the page header on by each frame's stored length. -/
namespace BTrader
open ByteMemory Infra Procedure

/-- The frames at the addresses they take when they are laid end to end. -/
def place : Nat → List Frame → List (Nat × Frame)
  | _, [] => []
  | a, f :: fs => (a, f) :: place (a + f.size) fs

theorem place_append (a : Nat) (fs gs : List Frame) :
    place a (fs ++ gs) = place a fs ++ place (a + span fs) gs := by
  induction fs generalizing a with
  | nil => simp [place]
  | cons f fs ih => simp only [List.cons_append, place, ih, span_cons, Nat.add_assoc]

@[simp] theorem place_map_snd (a : Nat) (fs : List Frame) : (place a fs).map Prod.snd = fs := by
  induction fs generalizing a with
  | nil => rfl
  | cons f fs ih => simp only [place, List.map_cons, ih]

theorem place_bounds (member : (b, f) ∈ place a fs) : a ≤ b ∧ b + f.size ≤ a + span fs := by
  induction fs generalizing a with
  | nil => simp [place] at member
  | cons g fs ih =>
    simp only [place, List.mem_cons, Prod.mk.injEq] at member
    rw [span_cons]
    rcases member with ⟨rfl, rfl⟩ | member
    · omega
    · have := ih member
      omega

namespace PageUnit

/-- Walk by stored lengths until `stop` holds of a header: the frames passed with
their addresses, and the address of the header that stopped the walk. -/
def walk (stop : Memory → Nat → Bool) (m : Memory) : Nat → Nat → Option (List (Nat × Frame) × Nat)
  | 0, _ => none
  | fuel + 1, a =>
    if stop m a = true then some ([], a)
    else (walk stop m fuel (FrameUnit.moveToNext m a)).map fun (frames, last) =>
      ((a, FrameUnit.read m a) :: frames, last)

/-- A page end header or a slot of length 0. -/
def atPageEnd (m : Memory) (a : Nat) : Bool :=
  decide (FrameUnit.frameLength m a = 0) || decide (FrameUnit.msgType m a = pageEndTag)

/-- The walk of a page of that size. -/
def walkPage (size : Nat) (m : Memory) : Option (List (Nat × Frame) × Nat) :=
  walk atPageEnd m size (firstFrameAddress m)

theorem walk_chain {stop : Memory → Nat → Bool} {m : Memory} (chain : Chain m a fs)
    (passes : ∀ b f, Holds m b f → f ∈ fs → stop m b = false)
    (stops : stop m (a + span fs) = true) (enough : fs.length < fuel) :
    walk stop m fuel a = some (place a fs, a + span fs) := by
  induction fs generalizing a fuel with
  | nil =>
    obtain ⟨fuel, rfl⟩ : ∃ n, fuel = n + 1 := ⟨fuel - 1, by simp at enough; omega⟩
    simp only [span_nil, Nat.add_zero] at stops
    simp [walk, stops, place]
  | cons f fs ih =>
    obtain ⟨fuel, rfl⟩ : ∃ n, fuel = n + 1 := ⟨fuel - 1, by simp at enough; omega⟩
    have here := passes a f chain.1 List.mem_cons_self
    rw [span_cons, ← Nat.add_assoc] at stops ⊢
    have rest :=
      ih chain.2 (fun b g holds member => passes b g holds (List.mem_cons_of_mem _ member))
      stops (by simpa using enough)
    simp [walk, here, chain.1.moveToNext, chain.1.read, rest, place]

theorem atPageEnd_of_holds {m : Memory} (holds : Holds m a f) :
    atPageEnd m a = decide (f.msgType = pageEndTag) := by
  have positive : FrameUnit.frameLength m a ≠ 0 := by
    intro zero
    have := holds.length
    rw [zero] at this
    exact absurd this.symm (Nat.ne_of_gt f.size_pos)
  simp [atPageEnd, positive, holds.msgType]

theorem walkPage_empty {size : Nat} {m : Memory} (header : Header size m) (positive : 0 < size)
    (ends : atPageEnd m 24 = true) : walkPage size m = some ([], 24) := by
  obtain ⟨n, rfl⟩ : ∃ n, size = n + 1 := ⟨size - 1, by omega⟩
  simp [walkPage, header.firstFrameAddress, walk, ends]

/-- What the walk of one page has to find. `last` tells the journal's last page
from the closed ones. -/
structure WalkOk (size : Nat) (last : Bool) (m : Memory) (fs : List Frame) : Prop where
  visits : walkPage size m = some (place 24 fs, 24 + span fs)
  ends : if last then FrameUnit.frameLength m (24 + span fs) = 0
    else FrameUnit.msgType m (24 + span fs) = pageEndTag ∧
      0 < FrameUnit.frameLength m (24 + span fs)
  lastFrame : (lastFramePosition m).toNat = if last then 24 + span fs.dropLast else 24 + span fs
  inside : ∀ b f, (b, f) ∈ place 24 fs → b + f.size ≤ size
  endInside : 24 + span fs + sizeofFrameHeader ≤ size

theorem walkPage_chain {size : Nat} {m : Memory} (header : Header size m) (chain : Chain m 24 fs)
    (types : ∀ f ∈ fs, f.msgType ≠ pageEndTag) (ends : atPageEnd m (24 + span fs) = true)
    (inside : 24 + span fs ≤ size) : walkPage size m = some (place 24 fs, 24 + span fs) := by
  have short := length_le_span fs
  rw [walkPage, header.firstFrameAddress]
  apply walk_chain chain _ ends (by omega)
  intro b f holds member
  rw [atPageEnd_of_holds holds]
  simpa using types f member

theorem walk_stored {size : Nat} {m : Memory} (stored : Stored size m fs) (rest : fs = gs ++ tail)
    (types : ∀ f ∈ gs, f.msgType ≠ pageEndTag) (ends : atPageEnd m (24 + span gs) = true)
    (inside : 24 + span gs ≤ size) :
    walkPage size m = some (place 24 gs, 24 + span gs) := by
  subst rest
  exact walkPage_chain stored.header (chain_append.mp stored.chain).1 types ends inside

/-- The frames a walk finds are determined by the page. -/
theorem place_inj (same : (place a fs, n) = (place a gs, n')) : fs = gs := by
  have frames := congrArg (fun p => p.1.map Prod.snd) same
  simpa using frames

end PageUnit

/-- The layout property of a journal after `written`: its pages hold the written
frames in order and each of them is walked as `WalkOk` says. -/
def LaidOut (location : JLocation) (files : JournalFiles) (written : List Frame) : Prop :=
  ∃ pages : List (List Frame), pages.flatten = written ∧ files.ids = List.range' 1 pages.length ∧
    ∀ i fs, pages[i]? = some fs →
      PageUnit.WalkOk (findPageSize location) (decide (i + 1 = pages.length))
        (files.bytes (i + 1)) fs

/-- The pages are walked to these frames, in order. -/
def Walks (location : JLocation) (files : JournalFiles) (frames : List Frame) : Prop :=
  ∃ pages : List (List Frame), pages.flatten = frames ∧ files.ids = List.range' 1 pages.length ∧
    ∀ i fs, pages[i]? = some fs →
      PageUnit.walkPage (findPageSize location) (files.bytes (i + 1)) =
        some (place 24 fs, 24 + span fs)

theorem LaidOut.walks {location : JLocation} {files : JournalFiles} {frames : List Frame}
    (laid : LaidOut location files frames) : Walks location files frames := by
  obtain ⟨pages, flat, ids, walks⟩ := laid
  exact ⟨pages, flat, ids, fun i fs page => (walks i fs page).visits⟩

theorem Walks.unique {location : JLocation} {files : JournalFiles} {frames : List Frame}
    {pages : List (List Frame)} (walks : Walks location files frames)
    (ids : files.ids = List.range' 1 pages.length)
    (walked : ∀ i fs, pages[i]? = some fs →
      PageUnit.walkPage (findPageSize location) (files.bytes (i + 1)) =
        some (place 24 fs, 24 + span fs)) : pages.flatten = frames := by
  obtain ⟨pages', flat, ids', walked'⟩ := walks
  have count : pages.length = pages'.length := by
    have := congrArg List.length (ids.symm.trans ids')
    simpa using this
  have same : pages = pages' := by
    apply List.ext_getElem count
    intro i bound bound'
    have walk := walked i _ (List.getElem?_eq_getElem bound)
    have walk' := walked' i _ (List.getElem?_eq_getElem bound')
    exact PageUnit.place_inj (Option.some.inj (walk.symm.trans walk'))
  rw [same, flat]

theorem Chain.placed (chain : Chain m a fs) (member : (b, f) ∈ place a fs) : Holds m b f := by
  induction fs generalizing a with
  | nil => simp [place] at member
  | cons g fs ih =>
    simp only [place, List.mem_cons, Prod.mk.injEq] at member
    rcases member with ⟨rfl, rfl⟩ | member
    · exact chain.1
    · exact ih chain.2 member

theorem Layout.walkOk {location : JLocation} {files : JournalFiles} {log : Log} {i : Nat}
    (layout : Layout location files log) (types : ∀ f ∈ log.contents, f.msgType ≠ pageEndTag)
    (page : log.pages[i]? = some fs) :
    PageUnit.WalkOk (findPageSize location) (decide (i + 1 = log.lastPageId))
      (files.bytes (i + 1)) fs := by
  have bounds := findPageSize_bounds location
  have mib : mebibyte = 1048576 := rfl
  have count : log.pages.length = log.lastPageId := by simp [PagedLog.pages, Log.lastPageId]
  have typed : ∀ f ∈ fs, f.msgType ≠ pageEndTag := by
    intro f member
    apply types f
    rw [← log.contents_pages]
    exact List.mem_flatten.mpr ⟨fs, List.mem_of_getElem? page, member⟩
  have bound := (List.getElem?_eq_some_iff.mp page).1
  rw [count, Log.lastPageId] at bound
  by_cases last : i = log.closed.length
  · subst last
    obtain rfl : log.current = fs := by simpa [PagedLog.pages] using page
    have stored := layout.current
    have inside := layout.current_inside
    rw [Log.lastPageId, decide_eq_true rfl]
    rw [Log.lastPageId] at stored
    have slot := stored.slot_length
    refine ⟨?_, slot, ?_, ?_, by unfold sizeofFrameHeader; omega⟩
    · apply PageUnit.walk_stored stored (List.append_nil _).symm typed _ (by omega)
      simp [PageUnit.atPageEnd, slot]
    · exact stored.lastFrameAddress (by omega)
    · intro b f member
      have := place_bounds member
      omega
  · have inner : i < log.closed.length := by omega
    obtain ⟨mark, closed⟩ : ∃ mark, log.closed[i]? = some (fs, mark) := by
      rw [PagedLog.pages, List.getElem?_append_left (by simpa using inner),
        List.getElem?_map] at page
      obtain ⟨⟨gs, mark⟩, closed, same⟩ := Option.map_eq_some_iff.mp page
      exact ⟨mark, by rw [closed, ← same]⟩
    have stored := layout.closed closed
    have inside := layout.bounded.closed _ (List.mem_of_getElem? closed)
    have room := pageRoom_bounds location
    simp only [used_eq_span] at inside
    have whole : span (fs ++ [mark.frame]) = span fs + 40 := by simp [mark.size_eq]
    have marker : Holds (files.bytes (i + 1)) (24 + span fs) mark.frame :=
      (chain_concat.mp stored.chain).2
    rw [decide_eq_false (by rw [Log.lastPageId]; omega)]
    refine ⟨?_, ⟨marker.msgType.trans mark.isPageEnd, marker.length_pos⟩, ?_, ?_, by
      unfold sizeofFrameHeader; omega⟩
    · apply PageUnit.walk_stored stored rfl typed _ (by omega)
      rw [PageUnit.atPageEnd_of_holds marker, mark.isPageEnd]
      rfl
    · have address := stored.lastFrameAddress (by omega)
      rw [List.dropLast_concat] at address
      exact address
    · intro b f member
      have := place_bounds member
      omega

theorem Layout.laidOut {location : JLocation} {files : JournalFiles} {log : Log}
    (layout : Layout location files log) (types : ∀ f ∈ log.contents, f.msgType ≠ pageEndTag) :
    LaidOut location files log.contents := by
  have count : log.pages.length = log.lastPageId := by simp [PagedLog.pages, Log.lastPageId]
  refine ⟨log.pages, log.contents_pages, by rw [layout.ids, count], ?_⟩
  intro i fs page
  rw [count]
  exact layout.walkOk types page

namespace Writer

/-- Every journal that writers of message types other than the page end tag fill is
laid out page by page as it was written. -/
theorem session_laidOut (location : JLocation) (destId : UInt32) (isLazy : Bool)
    (started now : Int64) {ops : List WriteOp} (adm : ∀ op ∈ ops, op.Admissible location) :
    ∃ w files, session location destId isLazy started now ops JournalFiles.fresh = .ok w files ∧
      LaidOut location files (ops.map (WriteOp.frame location.uid destId)) := by
  obtain ⟨files, ran, layout⟩ := session_fresh location destId isLazy started now adm
  have contents := WriteOp.contents_appendAll location destId PagedLog.empty ops
  refine ⟨_, files, ran, ?_⟩
  have laid := layout.laidOut (by
    rw [contents]
    intro f member
    obtain ⟨op, present, rfl⟩ := List.mem_map.mp (by simpa using member)
    exact (adm op present).msgType _ _)
  simpa [contents] using laid

def simAccount : JLocation := .make .backtest .td "sim" "account" "/runtime"

theorem session_laidOut_order :
    ∃ w files, session simAccount 7 false 1 2 [.mark 3 101 4 5, .writeRaw 6 203 [1, 2, 3] 7 8]
        JournalFiles.fresh = .ok w files ∧
      LaidOut simAccount files ([.mark 3 101 4 5, .writeRaw 6 203 [1, 2, 3] 7 8].map
        (WriteOp.frame simAccount.uid 7)) :=
  session_laidOut simAccount 7 false 1 2 (by
    intro op member
    simp only [List.mem_cons, List.not_mem_nil, or_false] at member
    rcases member with rfl | rfl <;>
      exact ⟨by simp [WriteOp.frame, WriteOp.content, pageEndTag], by
        simp [WriteOp.frame, WriteOp.content, findPageSize, simAccount, JLocation.make, mebibyte]⟩)

/-- A mark of the page end tag makes its own writer leave the page. -/
theorem mark_pageEnd (w : Handle) (t pe g : Int64) (layout : Layout w.location files log)
    (fits : 24 + span log.current + 40 + 40 < findPageSize w.location) :
    mark t pageEndTag pe g (w.atEnd log, files) =
      .ok () (w.placed (log.lastPageId + 1) 24 0 0 false,
        (files.store log.lastPageId ((w.draft none t pageEndTag [] g).stores
          (24 + span log.current))).addPage (log.lastPageId + 1) (findPageSize w.location)) := by
  let d := w.draft none t pageEndTag [] g
  let a := 24 + span log.current
  let filled := files.store log.lastPageId (d.fillStores a)
  let after := files.store log.lastPageId (d.stores a)
  have opened := w.openFrame_fits t pageEndTag 0 pe log.current.length 0
    layout.current.header (by omega) (by omega)
  have fills : openStores a t pageEndTag w.location.uid w.destId = d.fillStores a := by
    simp [d, Draft.fillStores, copyBytes, retargetStores, Handle.draft]
  have complete := d.fill (files.bytes log.lastPageId) a
  have header := d.fillStores_header layout.current.header (a := a) (by omega)
  rw [← JournalFiles.store_bytes_same files] at complete header
  have closed := w.closeFrame_stores log.current.length 0 g header complete.header (by omega)
  have whole :
      filled.store log.lastPageId (closeStores a (a + 40 + 0) (UInt32.ofNat 0) g) = after :=
    (JournalFiles.store_append _ _ _).symm
  have ended : FrameUnit.msgType (after.bytes log.lastPageId) a = pageEndTag := by
    have holds :=
      d.stores_holds (files.bytes log.lastPageId) (a := a) (by omega) (by simp [d, Handle.draft])
    rw [JournalFiles.store_bytes_same]
    exact holds.msgType
  have positive : 1 ≤ log.lastPageId := by
    rw [Log.lastPageId]
    omega
  have absent : log.lastPageId + 1 ∉ after.ids := by
    rw [JournalFiles.store_ids, layout.mem_ids]
    omega
  have page : Journal.loadPage (log.lastPageId + 1) (w.opening.placed log.lastPageId a
      log.current.length, after) = .ok () (w.opening.placed (log.lastPageId + 1) 24 0,
        after.addPage (log.lastPageId + 1) (findPageSize w.location)) :=
    Opening.loadPage_new absent (layout.mappable _) rfl (by omega)
  have loaded := Opening.loadNextPage_placed positive page
  rw [← Opening.next_pageEnd ended] at loaded
  have moved := Handle.onJournal_placed 0 true loaded
  rw [show UInt32.ofNat 0 = 0 from rfl, fills] at opened
  rw [mark, Handle.atEnd, bind_ok opened, closed, whole, bind_ok moved, Handle.unlock_placed]

/-- That page then walks to no frame and the page after it too, so the frame is not
found. -/
theorem mark_pageEnd_not_laidOut :
    ∃ w files, session simAccount 7 false 1 2 [.mark 3 pageEndTag 4 5] JournalFiles.fresh =
        .ok w files ∧
      ¬ LaidOut simAccount files
        ([.mark 3 pageEndTag 4 5].map (WriteOp.frame simAccount.uid 7)) := by
  let w := handleAt simAccount 7 false 1
  let d := w.draft none 3 pageEndTag [] 5
  have layout := Layout.start simAccount
  have marked := mark_pageEnd w 3 4 5 layout (by
    simp [PagedLog.empty, w, handleAt, findPageSize, simAccount, JLocation.make, mebibyte])
  have blank := layout.current
  have first := blank.place (d.places (by simp [d, Handle.draft]))
  simp only [PagedLog.empty, span_nil, Nat.add_zero, List.nil_append] at first
  have second := PageUnit.initial_stored (findPageSize simAccount)
  have positive : 0 < findPageSize simAccount := by
    simp [findPageSize, simAccount, JLocation.make, mebibyte]
  have ran : WriteOp.runAll [.mark 3 pageEndTag 4 5] _ = .ok () (_, _) :=
    (bind_ok marked _).trans rfl
  refine ⟨_, _, session_ok (make_fresh simAccount 7 false 1 2) ran, ?_⟩
  rintro ⟨pages, flat, ids, walks⟩
  have count : pages.length = 2 := by
    have := congrArg List.length ids
    simpa [JournalFiles.addPage, JournalFiles.fresh] using this.symm
  obtain ⟨fs, gs, rfl⟩ := List.length_eq_two.mp count
  have one := (walks 0 fs rfl).visits
  have two := (walks 1 gs rfl).visits
  have last : Log.lastPageId (PagedLog.empty : Log) = 1 := rfl
  rw [last, JournalFiles.addPage_bytes_other _ (by omega), JournalFiles.store_bytes_same] at one
  rw [last, JournalFiles.addPage_bytes_same] at two
  have stays := PageUnit.walkPage_empty first.header positive (by
    rw [PageUnit.atPageEnd_of_holds first.chain.1]
    rfl)
  have blank := PageUnit.walkPage_empty second.header positive (by
    have slot := second.slot_length
    rw [span_nil] at slot
    simp [PageUnit.atPageEnd, slot])
  have fsNil : [] = fs := PageUnit.place_inj (Option.some.inj (stays.symm.trans one))
  have gsNil : [] = gs := PageUnit.place_inj (Option.some.inj (blank.symm.trans two))
  rw [← fsNil, ← gsNil] at flat
  simp at flat

end Writer
end BTrader
