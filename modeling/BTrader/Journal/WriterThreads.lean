import BTrader.Journal.ThreadSteps
import BTrader.Journal.ClockAgreement

/-! What the actions of a write lead to, whatever is asked of the states on the way: each lemma
takes as hypotheses what its stores are to keep. -/
namespace BTrader
open ByteMemory Infra Procedure Interleaving

theorem Infra.JournalFiles.store_nil (files : JournalFiles) (k : Nat) :
    files.store k [] = files := by
  simp [JournalFiles.store, JournalFiles.modify, JournalFiles.bytes]

namespace Writer.Threads

theorem storeHere_append (first second : List StoreOp) :
    storeHere (first ++ second) = storeHere first >>= fun _ => storeHere second := by
  induction first with
  | nil => rfl
  | cons op ops ih =>
    rw [List.cons_append, storeHere, ih]
    rfl

end Writer.Threads

namespace Writer.Handle

variable {w : Handle} {busy : SharedWriter → Prop} {files : JournalFiles} {log : Log}
    {mapped : List Nat}
  {k a nb n : Nat} {locked : Bool} {t : Int} {now : Int → Int64}

theorem storeHere_leads {ops : List StoreOp} {post : Unit → Int → SharedWriter → Prop}
    (within : ∀ sub, sub <+: ops → busy ((w.placed k a nb n locked, files.store k sub), mapped))
    (rest : ∀ u, t ≤ u → post ⟨⟩ u ((w.placed k a nb n locked, files.store k ops), mapped)) :
    (Threads.storeHere ops).Leads busy post t ((w.placed k a nb n locked, files), mapped) := by
  induction ops generalizing files with
  | nil =>
    intro u later
    simpa only [JournalFiles.store_nil] using rest u later
  | cons op ops ih =>
    have start := within [] List.nil_prefix
    rw [JournalFiles.store_nil] at start
    refine .onFst start (store_placed [op]) (ih (fun sub inside => ?_) fun u later => ?_)
    · rw [← JournalFiles.store_append]
      exact within (op :: sub) (List.cons_prefix_cons.mpr ⟨rfl, inside⟩)
    · rw [← JournalFiles.store_append]
      exact rest u later

/-- Stores to a page left behind. -/
theorem storeAt_leads {left : Nat} {ops : List StoreOp} {post : Unit → Int → SharedWriter → Prop}
    (within : ∀ sub, sub <+: ops → busy ((w.placed k a nb n locked, files.store left sub), mapped))
    (rest : ∀ u, t ≤ u → post ⟨⟩ u ((w.placed k a nb n locked, files.store left ops), mapped)) :
    (Threads.storeAt left ops).Leads busy post t ((w.placed k a nb n locked, files), mapped) := by
  induction ops generalizing files with
  | nil =>
    intro u later
    simpa only [JournalFiles.store_nil] using rest u later
  | cons op ops ih =>
    have start := within [] List.nil_prefix
    rw [JournalFiles.store_nil] at start
    refine .onFst start (modify_apply _ _) (ih (fun sub inside => ?_) fun u later => ?_)
    · rw [← JournalFiles.store_append]
      exact within (op :: sub) (List.cons_prefix_cons.mpr ⟨rfl, inside⟩)
    · rw [← JournalFiles.store_append]
      exact rest u later

theorem loadNextPage_layout (w : Handle) (layout : Layout w.location files log) (a nb n : Nat)
    (locked : Bool) :
    onJournal Journal.loadNextPage (w.placed log.lastPageId a nb n locked, files) =
      .ok () (w.placed (log.lastPageId + 1) 24 0 n locked,
        files.addPage (log.lastPageId + 1) (findPageSize w.location)) := by
  have absent : log.lastPageId + 1 ∉ files.ids := by
    rw [layout.mem_ids]
    omega
  have positive : 1 ≤ log.lastPageId := by
    rw [Log.lastPageId]
    omega
  exact onJournal_placed n locked (Opening.loadNextPage_placed positive
    (Opening.loadPage_new absent (layout.mappable _) rfl (by omega)))

theorem loadNextPage_leads {post : Unit → Int → SharedWriter → Prop}
    (layout : Layout w.location files log)
    (before : busy ((w.placed log.lastPageId a nb n locked, files), mapped))
    (rest : ∀ u, t ≤ u → post ⟨⟩ u ((w.placed (log.lastPageId + 1) 24 0 n locked,
      files.addPage (log.lastPageId + 1) (findPageSize w.location)),
        (log.lastPageId + 1) :: mapped)) :
    Threads.loadNextPage.Leads busy post t ((w.placed log.lastPageId a nb n locked, files),
      mapped) := by
  refine .lift before ?_ rest
  rw [bind_ok (onFst_ok (w.loadNextPage_layout layout a nb n locked)),
    bind_ok (onFst_ok currentPage_placed)]
  rfl

/-- The next page is mapped, the old one sealed and unmapped. -/
theorem closePage_leads {post : Unit → Int → SharedWriter → Prop}
    (layout : Layout w.location files log) (trigger : Int64)
    (before : busy ((w.placed log.lastPageId a nb n locked, files), mapped))
    (sealing :
      ∀ v sub, sub <+: sealStores (24 + span log.current) trigger (now v) w.location.uid w.destId →
      busy ((w.placed (log.lastPageId + 1) 24 0 n locked,
        (files.addPage (log.lastPageId + 1) (findPageSize w.location)).store log.lastPageId sub),
        (log.lastPageId + 1) :: mapped))
    (rest : ∀ v u, t ≤ v → v ≤ u → post ⟨⟩ u ((w.placed (log.lastPageId + 1) 24 0 n locked,
      w.sealedFiles log trigger (now v) files),
        ((log.lastPageId + 1) :: mapped).erase log.lastPageId)) :
    (Threads.closePage now trigger).Leads busy post t
      ((w.placed log.lastPageId a nb n locked, files), mapped) := by
  have inside := layout.current_inside
  have bounds := findPageSize_bounds w.location
  have mib : mebibyte = 1048576 := rfl
  have same : (files.addPage (log.lastPageId + 1) (findPageSize w.location)).bytes log.lastPageId =
      files.bytes log.lastPageId := JournalFiles.addPage_bytes_other files (by omega)
  have behind : FrameUnit.moveToNext (files.bytes log.lastPageId)
      (PageUnit.lastFrameAddress (files.bytes log.lastPageId)) = 24 + span log.current :=
    layout.current.last_moveToNext (by omega)
  rw [← same] at behind
  have start := sealing t [] List.nil_prefix
  rw [JournalFiles.store_nil] at start
  refine .lift before (get_apply _) (.onFst before currentPage_placed
    (Prog.Leads.bind (loadNextPage_leads layout before fun u₀ begun =>
      .lift start (get_apply _) ?_)))
  simp only [behind]
  refine Prog.Leads.bind (storeAt_leads (fun sub first => ?_) fun u later => ?_)
  · exact sealing t sub (first.trans (List.prefix_append _ _))
  · have opened (v : Int) := sealing v _ (List.prefix_append
      ((pageEndStores (24 + span log.current) trigger (now v) w.location.uid w.destId).take 5) _)
    refine Prog.Leads.reading (opened t) fun v read =>
      Prog.Leads.bind (storeAt_leads (fun sub last => ?_) fun u' after => ?_)
    · rw [← JournalFiles.store_append]
      exact sealing v _ ((List.prefix_append_right_inj _).mpr last)
    · rw [← JournalFiles.store_append]
      exact .lift (sealing v _ (List.prefix_refl _)) (modify_apply _ _)
        fun u'' last => rest v u'' (begun.trans (later.trans read)) (after.trans last)

/-- The border test: the page stays, or it is changed. -/
theorem changePage_leads {post : Unit → Int → SharedWriter → Prop}
    (layout : Layout w.location files log)
    (trigger : Int64) {len : Nat} (short : len + 104 < findPageSize w.location)
    (before : busy ((w.placed log.lastPageId (24 + span log.current) nb n locked, files), mapped))
    (here : 24 + span log.current + 40 + len + 40 < findPageSize w.location → ∀ u, t ≤ u →
      post ⟨⟩ u ((w.placed log.lastPageId (24 + span log.current) nb n locked, files), mapped))
    (sealing : ¬ 24 + span log.current + 40 + len + 40 < findPageSize w.location → ∀ v sub,
      sub <+: sealStores (24 + span log.current) trigger (now v) w.location.uid w.destId →
      busy ((w.placed (log.lastPageId + 1) 24 0 n locked,
        (files.addPage (log.lastPageId + 1) (findPageSize w.location)).store log.lastPageId sub),
        (log.lastPageId + 1) :: mapped))
    (next : ¬ 24 + span log.current + 40 + len + 40 < findPageSize w.location →
      ∀ v u, t ≤ v → v ≤ u →
      post ⟨⟩ u ((w.placed (log.lastPageId + 1) 24 0 n locked,
        w.sealedFiles log trigger (now v) files),
        ((log.lastPageId + 1) :: mapped).erase log.lastPageId)) :
    (Threads.changePage now trigger (UInt32.ofNat len)).Leads busy post t
      ((w.placed log.lastPageId (24 + span log.current) nb n locked, files), mapped) := by
  have length := dataLength_toNat w.location len (by omega)
  obtain ⟨border, _⟩ := addressBorder_eq w.location layout.current.header
  refine .lift before (get_apply _) (.onFst before currentPage_placed ?_)
  simp only [placed_journal, Opening.placed_frame, border, length, sizeofFrameHeader]
  by_cases fits : 24 + span log.current + 40 + len + 40 < findPageSize w.location
  · rw [if_neg (by omega)]
    exact here fits
  · rw [if_pos (by omega)]
    exact closePage_leads layout trigger before (sealing fits) (next fits)

theorem openHeader_leads {post : Nat → Int → SharedWriter → Prop} (trigger : Int64)
    (ty : Int32) {len : Nat} (short : len + 104 < findPageSize w.location)
    (opening : ∀ n' sub, sub <+: openStores a trigger ty w.location.uid w.destId →
      busy ((w.placed k a nb n' locked, files.store k sub), mapped))
    (rest : ∀ u, t ≤ u → post a u ((w.placed k a nb len locked,
      files.store k (openStores a trigger ty w.location.uid w.destId)), mapped)) :
    (Threads.openHeader trigger ty (UInt32.ofNat len)).Leads busy post t
      ((w.placed k a nb n locked, files), mapped) := by
  have length := dataLength_toNat w.location len (by omega)
  have start := opening n [] List.nil_prefix
  rw [JournalFiles.store_nil] at start
  refine .lift start (get_apply _) (Prog.Leads.bind (storeHere_leads (opening n) fun u later => ?_))
  refine .onFst (opening n _ (List.prefix_refl _)) setSizeToWrite_placed fun v after => ?_
  rw [length]
  exact rest v (later.trans after)

/-- The address behind the header of the open frame. -/
theorem dataAddress_leads {post : Nat → Int → SharedWriter → Prop}
    (before : busy ((w.placed k a nb n locked, files), mapped))
    (opened : FrameUnit.headerLength (files.bytes k) a = 40)
    (rest : ∀ u, t ≤ u → post (a + 40) u ((w.placed k a nb n locked, files), mapped)) :
    (Threads.dataAddress a).Leads busy post t ((w.placed k a nb n locked, files), mapped) := by
  refine .onFst before currentPage_placed (.lift before (get_apply _) fun u later => ?_)
  have address : FrameUnit.dataAddress (files.bytes k) a = a + 40 := by
    rw [FrameUnit.dataAddress, opened]
    rfl
  rw [address]
  exact rest u later

/-- The assertions of `closeFrame` pass. -/
theorem closeFrame_asserted {len : Nat}
    (header : PageUnit.Header (findPageSize w.location) (files.bytes k))
    (opened : FrameUnit.headerLength (files.bytes k) a = 40)
    (fits : a + 40 + len + 40 < findPageSize w.location) :
    a + (FrameUnit.headerLength (files.bytes k) a).toNat + len = a + 40 + len ∧
    ¬ (len < len ∨ PageUnit.addressBorder (files.bytes k) ≤ a + 40 + len) := by
  obtain ⟨border, _⟩ := addressBorder_eq w.location header
  rw [border, opened]
  exact ⟨rfl, by omega⟩

theorem closeFrame_leads {post : Unit → Int → SharedWriter → Prop} {len : Nat} {g : Int64}
    (header : PageUnit.Header (findPageSize w.location) (files.bytes k))
    (opened : FrameUnit.headerLength (files.bytes k) a = 40)
    (fits : a + 40 + len + 40 < findPageSize w.location)
    (before : busy ((w.placed k a nb len locked, files), mapped))
    (rest : (do
      Threads.storeHere (closeStores a (a + 40 + len) (UInt32.ofNat len) g)
      Threads.passOn : ThreadM Unit).Leads busy post t
        ((w.placed k a nb len locked, files), mapped)) :
    (Threads.closeFrame len g).Leads busy post t ((w.placed k a nb len locked, files), mapped) := by
  obtain ⟨length, passes⟩ := closeFrame_asserted header opened fits
  refine .lift before (get_apply _) (.onFst before currentPage_placed ?_)
  simp only [placed_journal, placed_sizeToWrite, Opening.placed_frame, length, if_neg passes]
  exact rest

/-- The cursor passes the closed frame, and the lock is given back. -/
theorem passOn_leads {post : Unit → Int → SharedWriter → Prop}
    (passed :
      onJournal Journal.next (w.placed k a nb 0 true, files) =
      .ok () (w.placed k a' nb' 0 true, files))
    (closed : ∀ a nb n, busy ((w.placed k a nb n true, files), mapped))
    (rest : ∀ u, t ≤ u → post ⟨⟩ u ((w.placed k a' nb' 0 false, files), mapped)) :
    Threads.passOn.Leads busy post t ((w.placed k a nb n true, files), mapped) :=
  .onFst (closed _ _ _) setSizeToWrite_placed
    (.onFst (closed _ _ _) passed (.onFst (closed _ _ _) unlock_placed rest))

end Writer.Handle
end BTrader
