import BTrader.Journal.WriterThreads

/-! What an observer sees while a write is made, action by action: the frames closed before,
and from the length store on the new one too. -/
namespace BTrader
open ByteMemory Infra Procedure Interleaving

namespace Writer

/-- The action that stores the length of a frame. -/
def StoresLength (length : UInt32) (s s' : SharedWriter) : Prop :=
  ∃ page frame, s' = ((s.1.1, s.1.2.store page [FrameUnit.setDataLength frame length]), s.2)

namespace Handle

variable {w : Handle} {files : JournalFiles} {log : Log} {k a nb n : Nat}
    {mapped : List Nat} {t : Int}
  {old new : List Frame} {post : Unit → Int → SharedWriter → Prop}

/-- The frames seen before and after the length store of a write. -/
def Publishes (w : Handle) (old new : List Frame) (length : UInt32)
    (post : Unit → Int → SharedWriter → Prop)
    (t : Int) (p : ThreadM Unit) (s : SharedWriter) : Prop :=
  p.Turns (fun s => Sees w.location old s.1.2) (fun s => Sees w.location new s.1.2)
    (StoresLength length) post t s

theorem closeStores_split (a next : Nat) (length : UInt32) (g : Int64) :
    closeStores a next length g =
      (clearBytes next sizeofFrameHeader ++ [FrameUnit.setGenTime a g]) ++
      [FrameUnit.setDataLength a length, PageUnit.setLastFramePosition (UInt64.ofNat a)] := by
  simp [closeStores]

/-- The frame is closed: its length is the last but one of the stores. -/
theorem closeFrame_publishes {len : Nat} {g : Int64}
    (header : PageUnit.Header (findPageSize w.location) (files.bytes k))
    (opened : FrameUnit.headerLength (files.bytes k) a = 40)
    (type : FrameUnit.msgType (files.bytes k) a ≠ pageEndTag) (first : 24 ≤ a)
    (fits : a + 40 + len + 40 < findPageSize w.location)
    (before :
      ∀ sub, sub <+: clearBytes (a + 40 + len) sizeofFrameHeader ++ [FrameUnit.setGenTime a g] →
      Sees w.location old (files.store k sub))
    (published : Sees w.location new (files.store k (clearBytes (a + 40 + len) sizeofFrameHeader ++
      [FrameUnit.setGenTime a g] ++ [FrameUnit.setDataLength a (UInt32.ofNat len)])))
    (after :
      Sees w.location new (files.store k (closeStores a (a + 40 + len) (UInt32.ofNat len) g)))
    (rest : ∀ u, t ≤ u → post ⟨⟩ u ((w.placed k (a + 40 + len) (nb + 1) 0 false,
      files.store k (closeStores a (a + 40 + len) (UInt32.ofNat len) g)), mapped)) :
    w.Publishes old new (UInt32.ofNat len) post t (Threads.closeFrame len g)
      ((w.placed k a nb len true, files), mapped) := by
  obtain ⟨length, passes⟩ := closeFrame_asserted header opened fits
  have start := before [] List.nil_prefix
  rw [JournalFiles.store_nil] at start
  have passed := w.next_closed nb 0 true g opened type first fits
  let stamped := clearBytes (a + 40 + len) sizeofFrameHeader ++ [FrameUnit.setGenTime a g]
  let lengthStore := FrameUnit.setDataLength a (UInt32.ofNat len)
  let last := PageUnit.setLastFramePosition (UInt64.ofNat a)
  have split : closeStores a (a + 40 + len) (UInt32.ofNat len) g = stamped ++ [lengthStore, last] :=
    closeStores_split a _ _ g
  have whole : files.store k (closeStores a (a + 40 + len) (UInt32.ofNat len) g) =
      ((files.store k stamped).store k [lengthStore]).store k [last] := by
    rw [split, ← JournalFiles.store_append, ← JournalFiles.store_append]
    rfl
  rw [whole] at after passed rest
  rw [JournalFiles.store_append] at published
  refine Prog.Turns.lift start (get_apply _)
    (Prog.Turns.lift start (onFst_ok currentPage_placed) ?_)
  simp only [placed_journal, placed_sizeToWrite, Opening.placed_frame, length, if_neg passes]
  rw [split, Threads.storeHere_append, Prog.bind_bind]
  refine Prog.Leads.turns (storeHere_leads before fun u begun => ?_)
  -- the next action is the length store
  refine Prog.Turns.moves (before _ (List.prefix_refl _)) (onFst_ok (store_placed [lengthStore]))
    ⟨k, a, rfl⟩ ?_
  refine Prog.Leads.onFst published (store_placed [last]) ?_
  exact passOn_leads passed (fun _ _ _ => after) fun v later => rest v (begun.trans later)

theorem assertSize_placed {len : Nat}
    (header : PageUnit.Header (findPageSize w.location) (files.bytes k))
    (present : k ∈ mapped) (short : len + 104 < findPageSize w.location) :
    Threads.assertSize k (UInt32.ofNat len) ((w.placed k a nb n false, files), mapped) =
      .ok ⟨⟩ ((w.placed k a nb n false, files), mapped) := by
  obtain ⟨_, size⟩ := addressBorder_eq w.location header
  have length := dataLength_toNat w.location len (by omega)
  have inside : ¬ findPageSize w.location < sizeofFrameHeader + len + sizeofFrameHeader := by
    unfold sizeofFrameHeader
    omega
  rw [Threads.assertSize, bind_ok (get_apply _)]
  simp only [present, not_true_eq_false, size, length, inside, if_false]
  rfl

theorem openFrame_eq (now : Int → Int64) (trigger : Int64) (ty : Int32) (length : UInt32)
    (f : Nat → ThreadM Unit) :
    Threads.openFrame now trigger ty length >>= f = (do
      let page ← Prog.onFst (onJournal Journal.currentPage)
      Prog.lift (Threads.assertSize page.pageId length)
      Prog.onFst lock
      Threads.changePage now trigger length
      let frame ← Threads.openHeader trigger ty length
      f frame : ThreadM Unit) := by
  simp only [Threads.openFrame, Prog.bind_bind]

/-- Nothing is published while the frame is opened, also when the page is changed for it. -/
theorem openFrame_publishes {op : WriteOp} (layout : Layout w.location files log)
    (adm : op.Admissible w.location)
    (typed : log.Typed) {trigger pe : Int64} (times : op.pageEndTimes = (trigger, pe))
    {ty : Int32} {len : Nat}
    (size : (op.frame w.location.uid w.destId).data.length = len) {f : Nat → ThreadM Unit}
    {length : UInt32}
    (opening :
      ∀ sub, sub <+: openStores (24 + span (op.opened w.location w.destId log).current) trigger ty
        w.location.uid w.destId →
      Sees w.location log.contents
        ((op.openedFiles w log files).store (op.opened w.location w.destId log).lastPageId sub))
    (rest : ∀ u, t ≤ u → w.Publishes log.contents new length post u
      (f (24 + span (op.opened w.location w.destId log).current))
      ((w.placed (op.opened w.location w.destId log).lastPageId
        (24 + span (op.opened w.location w.destId log).current)
          (op.opened w.location w.destId log).current.length len true,
        (op.openedFiles w log files).store (op.opened w.location w.destId log).lastPageId
          (openStores (24 + span (op.opened w.location w.destId log).current) trigger ty
            w.location.uid w.destId)),
        [(op.opened w.location w.destId log).lastPageId])) :
    w.Publishes log.contents new length post t
      (Threads.openFrame (fun _ => pe) trigger ty (UInt32.ofNat len) >>= f)
      ((w.atEnd log, files), [log.lastPageId]) := by
  have start := WriteOp.sees_layout layout typed
  have short : len + 104 < findPageSize w.location := by
    have := adm.size_lt w.location.uid w.destId
    rw [Frame.size_eq, size] at this
    omega
  have room := pageRoom_bounds w.location
  have fitsIff : log.roomFor w.location (op.frame w.location.uid w.destId) ↔
      24 + span log.current + 40 + len + 40 < findPageSize w.location := by
    change span log.current + (op.frame w.location.uid w.destId).size < _ ↔ _
    rw [Frame.size_eq, size]
    omega
  rw [openFrame_eq]
  refine Prog.Turns.lift start (onFst_ok currentPage_placed) ?_
  refine Prog.Turns.lift start
    (assertSize_placed layout.current.header (List.mem_singleton_self _) short) ?_
  refine Prog.Turns.lift start (onFst_ok lock_placed) ?_
  refine Prog.Leads.turns (changePage_leads layout trigger short start (fun fits u later => ?_)
    (fun full _ sub inside => ?_) fun full v u read later => ?_)
  · have opened : op.opened w.location w.destId log = log := if_pos (fitsIff.mpr fits)
    have openedFiles : op.openedFiles w log files = files := if_pos (fitsIff.mpr fits)
    rw [opened, openedFiles] at opening rest
    exact Prog.Leads.turns (openHeader_leads trigger ty short (fun _ => opening) fun v after =>
      rest v (later.trans after))
  · exact WriteOp.sees_sealing layout typed (op.marker w.location.uid w.destId) inside
  · have opened : op.opened w.location w.destId log =
        ⟨log.closed ++ [(log.current, op.marker w.location.uid w.destId)], []⟩ :=
          if_neg fun fits => full (fitsIff.mp fits)
    have openedFiles : op.openedFiles w log files = w.sealedFiles log trigger pe files := by
      rw [WriteOp.openedFiles, if_neg fun fits => full (fitsIff.mp fits), times]
    have last : (op.opened w.location w.destId log).lastPageId = log.lastPageId + 1 := by
      rw [opened]
      simp [Log.lastPageId]
    have left :
        [log.lastPageId + 1, log.lastPageId].erase log.lastPageId = [log.lastPageId + 1] := by
      rw [List.erase_cons_tail (by simp), List.erase_cons_head]
    rw [last, opened, openedFiles] at opening rest
    rw [left]
    exact Prog.Leads.turns (openHeader_leads trigger ty short (fun _ => opening) fun v' after =>
      rest v' (read.trans (later.trans after)))

/-- What the operation leaves, the new frame in sight. -/
def Done (w : Handle) (op : WriteOp) (log : Log) (files : JournalFiles) (_ : Unit) (_ : Int)
    (s : SharedWriter) : Prop :=
  op.run (w.atEnd log, files) = .ok () s.1 ∧
    Sees w.location (log.contents ++ [op.frame w.location.uid w.destId]) s.1.2

section
variable {op : WriteOp} {retarget : Option (UInt32 × UInt32)} {trigger pe g : Int64} {ty : Int32}
    {data : List UInt8}

theorem unpublished_fill (d : Draft) (a : Nat) {sub : List StoreOp}
    (inside :
      sub <+: clearBytes (a + 40 + d.data.length) sizeofFrameHeader ++
      [FrameUnit.setGenTime a d.genTime]) :
    d.fillStores a ++ sub <+: d.unpublishedStores a := by
  rw [Draft.unpublishedStores, Nat.add_assoc] at *
  exact (List.prefix_append_right_inj _).mpr inside

theorem stores_length (d : Draft) (a : Nat) :
    (d.stores a).length = (d.unpublishedStores a).length + 2 := by
  rw [d.stores_split, List.length_append]
  rfl

/-- What is seen at each point of the stores of a write in the opened journal. -/
theorem sees_stores (inPlace : op.InPlace) (layout : Layout w.location files log)
    (adm : op.Admissible w.location)
    (typed : log.Typed) (typed' : 0 < (op.frame w.location.uid w.destId).msgType) {d : Draft}
    (stores : op.stores w.location.uid w.destId = d.stores) :
    let opened := op.opened w.location w.destId log
    let a := 24 + span opened.current
    (∀ sub, sub <+: d.unpublishedStores a →
      Sees w.location log.contents ((op.openedFiles w log files).store opened.lastPageId sub)) ∧
    ∀ sub, sub <+: d.stores a → (d.unpublishedStores a).length < sub.length →
      Sees w.location (log.contents ++ [op.frame w.location.uid w.destId])
        ((op.openedFiles w log files).store opened.lastPageId sub) := by
  intro opened a
  have same : opened.contents = log.contents := WriteOp.opened_contents op
  have count : (d.stores (24 + span (op.opened w.location w.destId log).current)).length =
    (d.unpublishedStores a).length + 2 := stores_length d a
  have seen {sub : List StoreOp} (inside : sub <+: d.stores a) := WriteOp.sees_opened inPlace
    (WriteOp.openedFiles_layout w op layout) adm (fun f member => typed f (same ▸ member)) typed'
    (WriteOp.opened_roomFor adm w.destId log) (stores ▸ inside)
  rw [same, stores] at seen
  refine ⟨fun sub inside => ?_, fun sub inside late => ?_⟩
  · have within : sub <+: d.stores a := by
      rw [d.stores_split]
      exact inside.trans (List.prefix_append _ _)
    have short := inside.length_le
    have before := seen within
    rwa [if_pos (by omega)] at before
  · have after := seen inside
    rwa [if_neg (by omega)] at after

/-- What the operation leaves, written out. -/
theorem run_opened_stores (layout : Layout w.location files log)
    (adm : op.Admissible w.location) {d : Draft}
    (frame : op.frame w.location.uid w.destId = d.frame)
    (stores : op.stores w.location.uid w.destId = d.stores) :
    let opened := op.opened w.location w.destId log
    let a := 24 + span opened.current
    op.run (w.atEnd log, files) = .ok () (w.placed opened.lastPageId (a + 40 + d.data.length)
      (opened.current.length + 1) 0 false,
        (op.openedFiles w log files).store opened.lastPageId (d.stores a)) := by
  intro opened a
  have fits := WriteOp.opened_roomFor adm w.destId log
  have ran := (WriteOp.run_append_fits w (WriteOp.openedFiles_layout w op layout) adm fits).1
  rw [← WriteOp.run_opened w layout adm, WriteOp.append, PagedLog.append_of_fits fits,
    stores] at ran
  rw [ran]
  simp [atEnd, Log.lastPageId, opened, a, frame, Draft.frame_size, Nat.add_assoc]

/-- A write publishes its frame, however its payload gets behind the header. -/
theorem draft_publishes (inPlace : op.InPlace) (layout : Layout w.location files log)
    (adm : op.Admissible w.location) (typed : log.Typed)
    (typed' : 0 < (op.frame w.location.uid w.destId).msgType)
    (times : op.pageEndTimes = (trigger, pe))
    (frame : op.frame w.location.uid w.destId = (w.draft retarget trigger ty data g).frame)
    (stores : op.stores w.location.uid w.destId = (w.draft retarget trigger ty data g).stores)
    {f : Nat → ThreadM Unit}
    (fills : ∀ {files' k a nb u}, FrameUnit.headerLength (files'.bytes k) a = 40 →
      (∀ sub, sub <+: copyBytes (a + 40) data ++ retargetStores a retarget →
        Sees w.location log.contents (files'.store k sub)) →
      (∀ v, u ≤ v → w.Publishes log.contents (log.contents ++ [op.frame w.location.uid w.destId])
        (UInt32.ofNat data.length) (w.Done op log files) v
        (Threads.closeFrame data.length g) ((w.placed k a nb data.length true,
          files'.store k (copyBytes (a + 40) data ++ retargetStores a retarget)), [k])) →
      w.Publishes log.contents (log.contents ++ [op.frame w.location.uid w.destId])
        (UInt32.ofNat data.length)
        (w.Done op log files) u (f a)
        ((w.placed k a nb data.length true, files'), [k])) :
    w.Publishes log.contents (log.contents ++ [op.frame w.location.uid w.destId])
      (UInt32.ofNat data.length)
      (w.Done op log files) t
      (Threads.openFrame (fun _ => pe) trigger ty (UInt32.ofNat data.length) >>= f)
      ((w.atEnd log, files), [log.lastPageId]) := by
  let d := w.draft retarget trigger ty data g
  let opened := op.opened w.location w.destId log
  let a := 24 + span opened.current
  let k := opened.lastPageId
  obtain ⟨unpublished, published⟩ := sees_stores inPlace layout adm typed typed' stores
  have layout' := WriteOp.openedFiles_layout w op layout
  have fits := WriteOp.opened_roomFor adm w.destId log
  have room := pageRoom_bounds w.location
  have inside : a + 40 + data.length + 40 < findPageSize w.location := by
    have used : span opened.current + (op.frame w.location.uid w.destId).size <
        pageRoom (findPageSize w.location) := fits
    rw [frame, Draft.frame_size] at used
    change span opened.current + (40 + data.length) < _ at used
    omega
  have first : 24 ≤ a := Nat.le_add_right _ _
  have fillSplit : d.fillStores a = openStores a trigger ty w.location.uid w.destId ++
      (copyBytes (a + 40) data ++ retargetStores a retarget) := rfl
  have fillInside : d.fillStores a <+: d.unpublishedStores a := List.prefix_append _ _
  have opening {sub : List StoreOp} (within : sub <+: d.fillStores a) :=
    unpublished sub (within.trans fillInside)
  refine openFrame_publishes layout adm typed times (by rw [frame]; rfl)
    (fun sub within => opening (within.trans (List.prefix_append _ _))) fun u _ => ?_
  have header₁ : FrameUnit.headerLength (((op.openedFiles w log files).store k
      (openStores a trigger ty w.location.uid w.destId)).bytes k) a = 40 := by
    rw [JournalFiles.store_bytes_same]
    exact (openStores_header _ _ _ _ _ _).1
  refine fills header₁ (fun sub within => ?_) fun v _ => ?_
  · rw [← JournalFiles.store_append]
    exact opening ((List.prefix_append_right_inj _).mpr within)
  · have filled := d.fill ((op.openedFiles w log files).bytes k) a
    have header₂ := d.fillStores_header layout'.current.header first
    rw [← JournalFiles.store_bytes_same (op.openedFiles w log files)] at filled header₂
    rw [← JournalFiles.store_append, ← fillSplit]
    have type :
        FrameUnit.msgType (((op.openedFiles w log files).store k (d.fillStores a)).bytes k) a ≠
        pageEndTag := by
      rw [filled.msgType, ← frame]
      exact adm.msgType w.location.uid w.destId
    have whole : ((op.openedFiles w log files).store k (d.fillStores a)).store k
        (closeStores a (a + 40 + data.length) (UInt32.ofNat data.length) g) =
          (op.openedFiles w log files).store k (d.stores a) :=
            (JournalFiles.store_append _ _ _).symm
    have written := published (d.stores a) (List.prefix_refl _) (by
      rw [stores_length]
      exact Nat.lt_add_of_pos_right (by decide))
    refine closeFrame_publishes header₂ filled.header type first inside
      (fun sub within => ?_) ?_ ?_ fun u' _ => ?_
    · rw [← JournalFiles.store_append]
      exact unpublished _ (unpublished_fill d a within)
    · have split :
        d.stores a = (d.unpublishedStores a ++
        [FrameUnit.setDataLength a (UInt32.ofNat data.length)]) ++
          [PageUnit.setLastFramePosition (UInt64.ofNat a)] := by
        rw [d.stores_split, List.append_assoc]
        rfl
      have parts : d.fillStores a ++ (clearBytes (a + 40 + data.length) sizeofFrameHeader ++
          [FrameUnit.setGenTime a g] ++ [FrameUnit.setDataLength a (UInt32.ofNat data.length)]) =
            d.unpublishedStores a ++ [FrameUnit.setDataLength a (UInt32.ofNat data.length)] := by
        rw [← List.append_assoc]
        rfl
      rw [← JournalFiles.store_append, parts]
      exact published _ (split ▸ List.prefix_append _ _)
        (by rw [List.length_append]; exact Nat.lt_succ_self _)
    · rw [whole]
      exact written
    · rw [whole]
      exact ⟨run_opened_stores layout adm frame stores, written⟩

theorem writeWith_publishes (inPlace : op.InPlace) (layout : Layout w.location files log)
    (adm : op.Admissible w.location) (typed : log.Typed)
    (typed' : 0 < (op.frame w.location.uid w.destId).msgType)
    (times : op.pageEndTimes = (trigger, pe))
    (frame : op.frame w.location.uid w.destId = (w.draft retarget trigger ty data g).frame)
    (stores : op.stores w.location.uid w.destId = (w.draft retarget trigger ty data g).stores) :
    w.Publishes log.contents (log.contents ++ [op.frame w.location.uid w.destId])
      (UInt32.ofNat data.length)
      (w.Done op log files) t
      (Threads.writeWith retarget trigger ty data pe g) ((w.atEnd log, files),
        [log.lastPageId]) := by
  refine draft_publishes inPlace layout adm typed typed' times frame stores
    fun opened filling closing => ?_
  have start := filling [] List.nil_prefix
  rw [JournalFiles.store_nil] at start
  refine Prog.Leads.turns (dataAddress_leads start opened fun v later => ?_)
  exact Prog.Leads.turns (storeHere_leads filling fun v' after => closing v' (later.trans after))

theorem markWith_publishes (inPlace : op.InPlace) (layout : Layout w.location files log)
    (adm : op.Admissible w.location) (typed : log.Typed)
    (typed' : 0 < (op.frame w.location.uid w.destId).msgType)
    (times : op.pageEndTimes = (trigger, pe))
    (frame : op.frame w.location.uid w.destId = (w.draft none trigger ty [] g).frame)
    (stores : op.stores w.location.uid w.destId = (w.draft none trigger ty [] g).stores) :
    w.Publishes log.contents (log.contents ++ [op.frame w.location.uid w.destId]) 0
      (w.Done op log files) t
      (Threads.markWith trigger ty pe g) ((w.atEnd log, files), [log.lastPageId]) := by
  refine draft_publishes inPlace layout adm typed typed' times frame stores fun _ _ closing => ?_
  have plain := closing _ (le_refl _)
  rwa [copyBytes, retargetStores, List.append_nil, JournalFiles.store_nil] at plain

end

/-- The length store of every write publishes its frame. -/
theorem actions_publish {op : WriteOp} (inPlace : op.InPlace) (layout : Layout w.location files log)
    (adm : op.Admissible w.location) (typed : log.Typed)
    (typed' : 0 < (op.frame w.location.uid w.destId).msgType) :
    w.Publishes log.contents (log.contents ++ [op.frame w.location.uid w.destId])
      (UInt32.ofNat (op.frame w.location.uid w.destId).data.length)
      (w.Done op log files) t (op.actions inPlace)
      ((w.atEnd log, files), [log.lastPageId]) := by
  cases op with
  | write t data ty pe g => exact writeWith_publishes inPlace layout adm typed typed' rfl rfl rfl
  | writeAs t data ty s d pe g =>
    exact writeWith_publishes inPlace layout adm typed typed' rfl rfl rfl
  | writeAt g t data ty pe => exact writeWith_publishes inPlace layout adm typed typed' rfl rfl rfl
  | writeRaw t ty data pe g => exact writeWith_publishes inPlace layout adm typed typed' rfl rfl rfl
  | writeBytes t ty data length covered pe g =>
    exact writeWith_publishes inPlace layout adm typed typed' rfl rfl rfl
  | mark t ty pe g => exact markWith_publishes inPlace layout adm typed typed' rfl rfl rfl
  | markAt g t ty pe => exact markWith_publishes inPlace layout adm typed typed' rfl rfl rfl
  | copyFrame source t pe => exact inPlace.elim

end Handle

/-- Publish-last order of every write of a session. Of the states the writer passes through, one
store after another, an observer sees exactly the frames closed before up to the store of the new
frame's length, and from it on the new one too, with an empty slot behind it; the last state is
what the write leaves. -/
theorem publish_last (location : JLocation) (destId : UInt32) (isLazy : Bool) (started now : Int64)
    {ops : List WriteOp} (adm : ∀ op ∈ ops, op.Admissible location)
    (typed : ∀ op ∈ ops, 0 < (op.frame location.uid destId).msgType) {op : WriteOp}
    (inPlace : op.InPlace) (adm' : op.Admissible location)
    (typed' : 0 < (op.frame location.uid destId).msgType) :
    ∃ w files, session location destId isLazy started now ops JournalFiles.fresh = .ok w files ∧
      ∃ early before after late,
        (op.actions inPlace).trail 0 ((w, files), w.mapped) = early ++ before :: after :: late ∧
        StoresLength (UInt32.ofNat (op.frame location.uid destId).data.length) before after ∧
        (∀ s ∈ early ++ [before],
          Sees location (ops.map (WriteOp.frame location.uid destId)) s.1.2) ∧
        (∀ s ∈ after :: late, Sees location
          (ops.map (WriteOp.frame location.uid destId) ++ [op.frame location.uid destId]) s.1.2) ∧
        ∃ last, (after :: late).getLast? = some last ∧ op.run (w, files) = .ok () last.1 := by
  obtain ⟨files, ran, layout⟩ := session_fresh location destId isLazy started now adm
  let w := handleAt location destId isLazy started
  let log := WriteOp.appendAll location destId PagedLog.empty ops
  have contents : log.contents = ops.map (WriteOp.frame location.uid destId) := by
    simpa using WriteOp.contents_appendAll location destId PagedLog.empty ops
  have typedAll : log.Typed := by
    intro f member
    rw [contents] at member
    obtain ⟨o, present, rfl⟩ := List.mem_map.mp member
    exact typed o present
  have publishes : w.Publishes log.contents (log.contents ++ [op.frame location.uid destId])
      (UInt32.ofNat (op.frame location.uid destId).data.length)
      (w.Done op log files) 0 (op.actions inPlace)
      ((w.atEnd log, files), [log.lastPageId]) :=
        Handle.actions_publish inPlace layout adm' typedAll typed'
  rw [contents] at publishes
  obtain ⟨early, before, after, late, passed, moved, kept, way, _, last, split, seen, ended,
      visible⟩ := publishes.trail
  refine ⟨w.atEnd log, files, ran, early, before, after, late, passed, moved, kept,
    fun s member => ?_, last, ?_, ended⟩
  · rw [split] at member
    rcases List.mem_append.mp member with passing | final
    · exact seen s passing
    · rw [List.mem_singleton.mp final, ← contents]
      exact visible
  · rw [split, List.getLast?_append]
    rfl

/-- A mark and a forwarded frame. -/
def earlierWrites : List WriteOp := [.mark 3 101 4 5, .writeAs 4 [1, 2] 102 8 9 5 6]

def rawWrite : WriteOp := .writeRaw 6 203 [1, 2, 3] 7 8

theorem rawWrite_inPlace : rawWrite.InPlace := trivial

theorem writes_admissible : ∀ op ∈ rawWrite :: earlierWrites, op.Admissible simAccount := by
  intro op member
  simp only [rawWrite, earlierWrites, List.mem_cons, List.not_mem_nil, or_false] at member
  rcases member with rfl | rfl | rfl <;>
    exact ⟨by simp [WriteOp.frame, WriteOp.content, pageEndTag], by
      simp [WriteOp.frame, WriteOp.content, findPageSize, simAccount, JLocation.make, mebibyte]⟩

theorem writes_typed :
    ∀ op ∈ rawWrite :: earlierWrites, 0 < (op.frame simAccount.uid 7).msgType := by decide

theorem publish_last_order :
    ∃ w files, session simAccount 7 false 1 2 earlierWrites JournalFiles.fresh = .ok w files ∧
      ∃ early before after late,
        (rawWrite.actions rawWrite_inPlace).trail 0 ((w, files), w.mapped) =
          early ++ before :: after :: late ∧
        StoresLength (UInt32.ofNat (rawWrite.frame simAccount.uid 7).data.length) before after ∧
        (∀ s ∈ early ++ [before],
          Sees simAccount (earlierWrites.map (WriteOp.frame simAccount.uid 7)) s.1.2) ∧
        (∀ s ∈ after :: late, Sees simAccount
          (earlierWrites.map (WriteOp.frame simAccount.uid 7) ++
            [rawWrite.frame simAccount.uid 7]) s.1.2) ∧
        ∃ last, (after :: late).getLast? = some last ∧ rawWrite.run (w, files) = .ok () last.1 := by
  obtain ⟨adm', adm⟩ := List.forall_mem_cons.mp writes_admissible
  obtain ⟨typed', typed⟩ := List.forall_mem_cons.mp writes_typed
  exact publish_last simAccount 7 false 1 2 adm typed rawWrite_inPlace adm' typed'

end Writer
end BTrader
