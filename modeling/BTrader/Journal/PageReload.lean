import BTrader.Journal.SharedJournal
import BTrader.Journal.WriterStates

/-! Loading the pages of a journal again. A master mapping writes the last byte of the page
file whenever it is loaded, so what writers store has to end before that byte. -/
namespace BTrader
open ByteMemory Infra Procedure

namespace PageUnit

/-- A page whose last frame or marker ends before the last byte, which nothing was stored to. -/
structure Spared (size : Nat) (m : Memory) : Prop extends Sound size m where
  clear : ∀ x, size ≤ x + 1 → m x = 0
  ends : FrameUnit.moveToNext m (lastFrameAddress m) < size

variable {size : Nat} {m : Memory} {a : Nat} {f : Frame}

theorem initial_spared (large : 24 < size) : Spared size (initial size) := by
  have stored := initial_stored size
  refine ⟨initial_sound size, ?_, ?_⟩
  · intro x beyond
    apply stored.clear
    rw [span_nil]
    omega
  · rw [stored.last_moveToNext (by simp), span_nil]
    exact large

/-- Stores behind the header that move the last frame position. -/
theorem Sound.replace {ops : List StoreOp} (sound : Sound size m) (first : 24 ≤ a)
    (small : a < 2 ^ 64) (last : lastFramePosition (m.execAll ops) = UInt64.ofNat a)
    (frame : ∀ x, x < 16 → m.execAll ops x = m x) :
    Sound size (m.execAll ops) ∧ lastFrameAddress (m.execAll ops) = a := by
  have address : lastFrameAddress (m.execAll ops) = a := by
    rw [lastFrameAddress, last, UInt64.toNat_ofNat']
    exact Nat.mod_eq_of_lt small
  refine ⟨⟨sound.header.congr fun x inside => frame x inside.2, ?_⟩, address⟩
  rw [address]
  exact first

theorem Sound.place (sound : Sound size m) (places : Places stores f) (first : 24 ≤ a)
    (small : a < 2 ^ 64) :
    Sound size (m.execAll (stores a)) ∧ lastFrameAddress (m.execAll (stores a)) = a :=
  sound.replace first small (places.last m a) fun x low =>
    places.frame m a x (Or.inl low) (Or.inl (by omega))

theorem Sound.seal (sound : Sound size m) (t g : Int64) (s d : UInt32) (first : 24 ≤ a)
    (small : a < 2 ^ 64) :
    Sound size (m.execAll (Writer.sealStores a t g s d)) ∧
      lastFrameAddress (m.execAll (Writer.sealStores a t g s d)) = a :=
  sound.replace first small (Writer.sealStores_last m) fun x low =>
    Writer.sealStores_frame m (Or.inl low) (Or.inl (by omega))

/-- The frame or marker that became the last one lies between the header and the last byte, and
nothing was stored to that byte. -/
theorem Spared.replace {ops : List StoreOp} (spared : Spared size m)
    (placed : Sound size (m.execAll ops) ∧ lastFrameAddress (m.execAll ops) = a)
    (holds : Holds (m.execAll ops) a f) (ends : a + f.size < size)
    (frame : ∀ x, size ≤ x + 1 → m.execAll ops x = m x) : Spared size (m.execAll ops) := by
  obtain ⟨sound, address⟩ := placed
  refine ⟨sound, ?_, ?_⟩
  · intro x beyond
    rw [frame x beyond]
    exact spared.clear x beyond
  · rw [address, holds.moveToNext]
    exact ends

/-- A frame that fits, wherever it is put. -/
theorem Spared.place (spared : Spared size m) (places : Places stores f) (first : 24 ≤ a)
    (fits : a + f.size + 40 < size) (small : size < 2 ^ 32) :
      Spared size (m.execAll (stores a)) := by
  apply spared.replace (spared.toSound.place places first (by omega))
    (places.holds m a first) (by omega)
  intro x beyond
  apply places.frame m a x (Or.inr (by omega))
  unfold sizeofFrameHeader
  omega

/-- A marker that ends before the last byte. -/
theorem Spared.seal (spared : Spared size m) (t g : Int64) (s d : UInt32) (first : 24 ≤ a)
    (room : a + 40 < size) (small : size < 2 ^ 32) :
      Spared size (m.execAll (Writer.sealStores a t g s d)) := by
  apply spared.replace (spared.toSound.seal t g s d first (by omega))
    (Writer.sealStores_holds m t g s d first) room
  intro x beyond
  exact Writer.sealStores_frame m (Or.inr (by omega)) (Or.inr (by omega))

theorem Sound.behind (sound : Sound size m) : 24 ≤ FrameUnit.moveToNext m (lastFrameAddress m) :=
  sound.position.trans (Nat.le_add_right _ _)

end PageUnit

namespace Infra.JournalFiles

/-- Every page is spared, and every page can be mapped. Page ids start at 1. -/
structure Spared (location : JLocation) (files : JournalFiles) : Prop where
  size : ∀ p ∈ files.ids, (files.file p).size = findPageSize location
  page : ∀ p ∈ files.ids, PageUnit.Spared (findPageSize location) (files.bytes p)
  mappable : ∀ p, files.mappable p = true
  positive : ∀ p ∈ files.ids, 1 ≤ p

/-- The files after a master mapping of the page: a missing page is created. -/
def withPage (files : JournalFiles) (p size : Nat) : JournalFiles :=
  if p ∈ files.ids then files else files.addPage p size

variable {location : JLocation} {files : JournalFiles} {p : Nat}

theorem withPage_present (present : p ∈ files.ids) (size : Nat) : files.withPage p size = files :=
  if_pos present

theorem withPage_bytes (present : q ∈ files.ids) (p size : Nat) :
    (files.withPage p size).bytes q = files.bytes q := by
  unfold withPage
  split
  · rfl
  · rename_i absent
    apply addPage_bytes_other
    rintro rfl
    exact absent present

theorem mem_withPage (files : JournalFiles) (p size : Nat) : p ∈ (files.withPage p size).ids := by
  unfold withPage
  split
  · assumption
  · simp [addPage]

theorem withPage_ids (files : JournalFiles) (p size : Nat) :
    files.ids ⊆ (files.withPage p size).ids := by
  unfold withPage
  split
  · exact List.Subset.refl _
  · simp [addPage]

theorem Spared.fresh (location : JLocation) : Spared location JournalFiles.fresh :=
  ⟨by simp [JournalFiles.fresh], by simp [JournalFiles.fresh], fun _ => rfl,
    by simp [JournalFiles.fresh]⟩

theorem Spared.sound (spared : Spared location files) : Sound location files :=
  ⟨spared.size, fun p present => (spared.page p present).toSound⟩

theorem Spared.store {ops : List StoreOp} (spared : Spared location files)
    (page : PageUnit.Spared (findPageSize location) ((files.bytes p).execAll ops)) :
    Spared location (files.store p ops) := by
  refine ⟨fun q member => ?_, fun q member => ?_, spared.mappable, spared.positive⟩
  · rw [store_size]
    exact spared.size q member
  · by_cases same : q = p
    · subst same
      rwa [store_bytes_same]
    · rw [store_bytes_other files same]
      exact spared.page q member

theorem Spared.withPage (spared : Spared location files) (positive : 1 ≤ p) :
    Spared location (files.withPage p (findPageSize location)) := by
  have bounds := findPageSize_bounds location
  have mib : mebibyte = 1048576 := rfl
  by_cases present : p ∈ files.ids
  · rwa [withPage_present present]
  · have sound := (Extends.addPage spared.sound present).sound
    rw [JournalFiles.withPage, if_neg present]
    have split {q : Nat} (member : q ∈ (files.addPage p (findPageSize location)).ids) :
        q ∈ files.ids ∨ q = p := by simpa [JournalFiles.addPage] using member
    refine ⟨sound.size, fun q member => ?_, spared.mappable, fun q member => ?_⟩
    · rcases split member with old | rfl
      · rw [addPage_bytes_other files (by
          rintro rfl
          exact present old)]
        exact spared.page q old
      · rw [addPage_bytes_same]
        exact PageUnit.initial_spared (by omega)
    · rcases split member with old | rfl
      · exact spared.positive q old
      · exact positive

end Infra.JournalFiles

namespace PageUnit

variable {location : JLocation} {files files' : JournalFiles} {p : Nat}

/-- Every mode of loading a page leaves the files as they are. -/
theorem load_spared (spared : files.Spared location) (present : p ∈ files.ids) (destId : UInt32)
    (isWriting isLazy : Bool) :
    load location destId p isWriting isLazy files = .ok ⟨p, findPageSize location⟩ files := by
  have bounds := findPageSize_bounds location
  have mib : mebibyte = 1048576 := rfl
  apply load_checked ?_ spared.sound present
  have created : files.create p = files := if_pos present
  have stretched : files.stretch p (findPageSize location) = files :=
    JournalFiles.stretch_self (spared.size p present) ((spared.page p present).clear _ (by omega))
  simp only [loadMmapBuffer, bind_apply, get_apply, spared.mappable, if_true, created,
    stretched, ite_self, set_apply]

theorem load_withPage (spared : files.Spared location) (writable : master isWriting isLazy = true)
    (destId : UInt32) (p : Nat) :
    load location destId p isWriting isLazy files =
      .ok ⟨p, findPageSize location⟩ (files.withPage p (findPageSize location)) := by
  by_cases present : p ∈ files.ids
  · rw [JournalFiles.withPage_present present]
    exact load_spared spared present destId isWriting isLazy
  · rw [JournalFiles.withPage, if_neg present]
    exact load_new present (spared.mappable p) writable location destId

theorem findBackwards_mem {destId : UInt32} {time : Int64} {pageIds : List Nat}
    (found : findBackwards location destId time pageIds files = .ok (some p) files') :
      p ∈ pageIds := by
  induction pageIds generalizing files with
  | nil =>
    rw [findBackwards, pure_apply, EStateM.Result.ok.injEq] at found
    exact absurd found.1 (by simp)
  | cons q rest ih =>
    rw [findBackwards] at found
    obtain ⟨_, files₁, _, found₁⟩ := of_bind_ok found
    obtain ⟨_, _, read, found₂⟩ := of_bind_ok found₁
    obtain ⟨rfl, rfl⟩ := EStateM.Result.ok.inj read
    rw [branch_apply] at found₂
    split at found₂
    · rw [pure_apply, EStateM.Result.ok.injEq, Option.some.injEq] at found₂
      exact found₂.1 ▸ List.mem_cons_self
    · exact List.mem_cons_of_mem _ (ih found₂)

/-- The page a seek begins on is the first one or one that exists. -/
theorem findPageId_mem {destId : UInt32} {time : Int64}
    (found : findPageId location destId time files = .ok p files') : p = 1 ∨ p ∈ files.ids := by
  have listed {q : Nat} (member : q ∈ listPageId files) : q ∈ files.ids :=
    List.mem_mergeSort.mp member
  cases pages : listPageId files with
  | nil =>
    have empty : findPageId location destId time files = .ok 1 files := by simp [findPageId, pages]
    rw [empty, EStateM.Result.ok.injEq] at found
    exact Or.inl found.1.symm
  | cons front rest =>
    have first : front ∈ files.ids := listed (by
      rw [pages]
      exact List.mem_cons_self)
    by_cases zero : time = 0
    · have begins : findPageId location destId time files = .ok front files := by
        simp [findPageId, pages, zero]
      rw [begins, EStateM.Result.ok.injEq] at found
      exact Or.inr (found.1 ▸ first)
    · have searches : findPageId location destId time files =
          (findBackwards location destId time (front :: rest).reverse >>= fun back =>
            pure (back.getD front)) files := by
        simp only [findPageId, bind_apply, get_apply, pages, zero, if_false]
      rw [searches] at found
      obtain ⟨back, files₁, searched, done⟩ := of_bind_ok found
      rw [pure_apply, EStateM.Result.ok.injEq] at done
      cases back with
      | none => exact Or.inr (done.1 ▸ first)
      | some q =>
        have here := findBackwards_mem searched
        rw [List.mem_reverse, ← pages] at here
        exact Or.inr (done.1 ▸ listed here)

end PageUnit

namespace Opening

/-- A journal object with its cursor on a page, behind the page header, over files that have
these pages. -/
inductive On (o : Opening) (ids : List Nat) : Journal × JournalFiles → Prop
  | intro (k a nb : Nat) (files : JournalFiles) (present : k ∈ files.ids) (first : 24 ≤ a)
      (spared : files.Spared o.location) (kept : ids ⊆ files.ids) :
        On o ids (o.placed k a nb, files)

variable {o : Opening} {files : JournalFiles} {ids : List Nat} {s s' : Journal × JournalFiles}
    {k a nb p : Nat}

section
variable (writable : master o.isWriting o.isLazy = true)
include writable

theorem loadPage_withPage (a nb : Nat) (spared : files.Spared o.location) (present : k ∈ files.ids)
    (positive : 1 ≤ p) :
    Journal.loadPage p (o.placed k a nb, files) =
      .ok () (o.placed p 24 0, files.withPage p (findPageSize o.location)) := by
  have loaded := onSnd_ok (s := o.placed k a nb) (PageUnit.load_withPage spared writable o.destId p)
  have here := files.mem_withPage p (findPageSize o.location)
  have first := ((spared.withPage positive).page p here).header.firstFrameAddress
  simp only [placed] at loaded
  by_cases same : k = p
  · subst same
    rw [JournalFiles.withPage_present present] at first ⊢
    simp [Journal.loadPage, placed, first]
  · simp [Journal.loadPage, placed, loaded, first, same]

theorem loadPage_first (spared : files.Spared o.location) (positive : 1 ≤ p) :
    Journal.loadPage p (o.make, files) =
      .ok () (o.placed p 24 0, files.withPage p (findPageSize o.location)) := by
  have loaded := onSnd_ok (s := o.make) (PageUnit.load_withPage spared writable o.destId p)
  have here := files.mem_withPage p (findPageSize o.location)
  have first := ((spared.withPage positive).page p here).header.firstFrameAddress
  simp only [make, Journal.make] at loaded
  simp [Journal.loadPage, make, Journal.make, placed, loaded, first]

theorem On.loadNextPage (on : On o ids s) :
    ∃ s', Journal.loadNextPage s = .ok () s' ∧ On o ids s' := by
  obtain ⟨k, a, nb, files, present, _, spared, kept⟩ := on
  have positive := spared.positive k present
  have loaded := loadPage_withPage writable a nb spared present (show 1 ≤ k + 1 by omega)
  refine ⟨_, loadNextPage_placed positive loaded, ?_⟩
  exact .intro _ _ _ _ (files.mem_withPage _ _) (le_refl 24) (spared.withPage (by omega))
    (List.Subset.trans kept (files.withPage_ids _ _))

theorem On.next (on : On o ids s) : ∃ s', Journal.next s = .ok () s' ∧ On o ids s' := by
  have changes := on.loadNextPage writable
  obtain ⟨k, a, nb, files, present, first, spared, kept⟩ := on
  by_cases ended : FrameUnit.msgType (files.bytes k) a = pageEndTag
  · rwa [next_pageEnd ended]
  · exact ⟨_, next_placed nb ended,
      .intro _ _ _ _ present (first.trans (Nat.le_add_right _ _)) spared kept⟩

/-- A seek ends on a page, and the pages that were there stay. -/
theorem seekToTime_on {time : Int64} (spared : files.Spared o.location)
    (ran : Journal.seekToTime time (o.make, files) = .ok () s) : On o files.ids s := by
  obtain ⟨_, _, start, ran₁⟩ := of_bind_ok ran
  obtain ⟨rfl, rfl⟩ := EStateM.Result.ok.inj start
  obtain ⟨p, ⟨j₁, files₁⟩, found, ran₂⟩ := of_bind_ok ran₁
  obtain ⟨rfl, searched⟩ := of_onSnd_ok found
  obtain rfl : files₁ = files := Journal.findPageId_files spared.sound searched
  have positive : 1 ≤ p := by
    rcases PageUnit.findPageId_mem searched with rfl | present
    · exact le_refl 1
    · exact spared.positive p present
  rw [bind_ok (loadPage_first writable spared positive)] at ran₂
  have landed : On o files₁.ids (o.placed p 24 0, files₁.withPage p (findPageSize o.location)) :=
    .intro _ _ _ _ (files₁.mem_withPage _ _) (le_refl 24) (spared.withPage positive)
      (files₁.withPage_ids _ _)
  obtain ⟨_, _, read, ran₃⟩ := of_bind_ok ran₂
  obtain ⟨rfl, rfl⟩ := EStateM.Result.ok.inj read
  obtain ⟨_, _, skipped, ran₄⟩ := of_bind_ok ran₃
  have changes : Keeps (On o files₁.ids) Journal.loadNextPage := by
    intro s on
    obtain ⟨s', moved, on'⟩ := on.loadNextPage writable
    rwa [after, moved]
  have moves : Keeps (On o files₁.ids) Journal.next := by
    intro s on
    obtain ⟨s', moved, on'⟩ := on.next writable
    rwa [after, moved]
  exact (Journal.keeps_skipFrames moves _ _).ok
    ((Journal.keeps_skipFullPages changes _ _).ok landed skipped) ran₄

end

end Opening

namespace Writer.Handle

variable {w : Handle} {files : JournalFiles} {k : Nat}

/-- The files after a page change: the next page is there, and a marker is behind the last frame
of the page left. -/
def changedFiles (w : Handle) (k : Nat) (t pe : Int64) (files : JournalFiles) : JournalFiles :=
  (files.withPage (k + 1) (findPageSize w.location)).store k
    (sealStores (FrameUnit.moveToNext (files.bytes k)
      (PageUnit.lastFrameAddress (files.bytes k))) t pe
      w.location.uid w.destId)

theorem closePage_spared (w : Handle) (spared : files.Spared w.location) (present : k ∈ files.ids)
    (a nb n : Nat) (t pe : Int64) (locked : Bool) :
    closePage t pe (w.placed k a nb n locked, files) =
      .ok () (w.placed (k + 1) 24 0 n locked, w.changedFiles k t pe files) := by
  have positive := spared.positive k present
  have loaded := Opening.loadPage_withPage (o := w.opening) rfl a nb spared present
    (show 1 ≤ k + 1 by omega)
  apply w.closePage_loaded n t pe locked positive loaded
  rw [opening_location, JournalFiles.withPage_bytes present]

theorem changedFiles_spared (w : Handle) (spared : files.Spared w.location)
    (present : k ∈ files.ids) (t pe : Int64)
    (room : FrameUnit.moveToNext (files.bytes k) (PageUnit.lastFrameAddress (files.bytes k)) + 40 <
      findPageSize w.location) : (w.changedFiles k t pe files).Spared w.location := by
  have bounds := findPageSize_bounds w.location
  have mib : mebibyte = 1048576 := rfl
  apply (spared.withPage (by omega)).store
  rw [JournalFiles.withPage_bytes present]
  have page := spared.page k present
  exact page.seal t pe w.location.uid w.destId page.behind room (by omega)

/-- The page that is changed to. -/
theorem changedFiles_header (w : Handle) (spared : files.Spared w.location) (t pe : Int64) :
    PageUnit.Header (findPageSize w.location) ((w.changedFiles k t pe files).bytes (k + 1)) := by
  rw [changedFiles, JournalFiles.store_bytes_other _ (show k + 1 ≠ k by omega)]
  exact ((spared.withPage (by omega)).page _ (files.mem_withPage _ _)).header

/-- The marker is the last item of the page left. -/
theorem changedFiles_marker (w : Handle) (spared : files.Spared w.location)
    (present : k ∈ files.ids) (t pe : Int64) {b : Nat} (small : b < 2 ^ 64)
    (behind :
      FrameUnit.moveToNext (files.bytes k) (PageUnit.lastFrameAddress (files.bytes k)) = b) :
    (w.changedFiles k t pe files).Sound w.location ∧
      PageUnit.lastFrameAddress ((w.changedFiles k t pe files).bytes k) = b ∧
      Holds ((w.changedFiles k t pe files).bytes k) b
        (pageEndFrame t pe w.location.uid w.destId) := by
  have page := (spared.page k present).toSound
  have first : 24 ≤ b := behind ▸ page.behind
  obtain ⟨sound, last⟩ := page.seal t pe w.location.uid w.destId first small
  have marker := sealStores_holds (files.bytes k) t pe w.location.uid w.destId first
  have bytes : (w.changedFiles k t pe files).bytes k =
      (files.bytes k).execAll (sealStores b t pe w.location.uid w.destId) := by
    rw [changedFiles, JournalFiles.store_bytes_same, JournalFiles.withPage_bytes present, behind]
  rw [bytes]
  refine ⟨?_, last, marker⟩
  have whole := (spared.withPage (show 1 ≤ k + 1 by omega)).sound
  apply whole.store
  rwa [JournalFiles.withPage_bytes present, behind]

end Writer.Handle

namespace WriteOp

variable {files : JournalFiles} {k a : Nat}

/-- What a writer with its cursor on a page of spared files leaves. -/
def EndsOn (w : Writer.Handle) (files : JournalFiles)
    (result : EStateM.Result Fault (Writer × JournalFiles) Unit) : Prop :=
  ∃ k a nb files', result = .ok () (w.placed k a nb 0 false, files') ∧ k ∈ files'.ids ∧ 24 ≤ a ∧
    files'.Spared w.location ∧ files.ids ⊆ files'.ids

theorem stores_spared (w : Writer.Handle) {op : WriteOp} (spared : files.Spared w.location)
    (present : k ∈ files.ids) (first : 24 ≤ a)
    (fits : a + (op.frame w.location.uid w.destId).size + 40 < findPageSize w.location) :
    (files.store k (op.stores w.location.uid w.destId a)).Spared w.location := by
  have bounds := findPageSize_bounds w.location
  have mib : mebibyte = 1048576 := rfl
  have places : Places (op.stores w.location.uid w.destId) (op.frame w.location.uid w.destId) :=
    places_of_size _ _ (by omega)
  exact spared.store ((spared.page k present).place places first fits (by omega))

/-- The frame becomes the last one of its page. -/
theorem stores_behind (w : Writer.Handle) {op : WriteOp} (files : JournalFiles) (k : Nat)
    (first : 24 ≤ a)
    (fits : a + (op.frame w.location.uid w.destId).size + 40 < findPageSize w.location) :
    let m := (files.store k (op.stores w.location.uid w.destId a)).bytes k
    FrameUnit.moveToNext m (PageUnit.lastFrameAddress m) =
      a + (op.frame w.location.uid w.destId).size := by
  have bounds := findPageSize_bounds w.location
  have mib : mebibyte = 1048576 := rfl
  have places : Places (op.stores w.location.uid w.destId) (op.frame w.location.uid w.destId) :=
    places_of_size _ _ (by omega)
  have last :
      PageUnit.lastFrameAddress ((files.bytes k).execAll (op.stores w.location.uid w.destId a)) =
      a := by
    rw [PageUnit.lastFrameAddress, places.last, UInt64.toNat_ofNat']
    exact Nat.mod_eq_of_lt (by omega)
  simp only [JournalFiles.store_bytes_same, last]
  exact (places.holds (files.bytes k) a first).moveToNext

theorem run_spared_fits (w : Writer.Handle) {op : WriteOp} (nb : Nat)
    (spared : files.Spared w.location) (present : k ∈ files.ids) (first : 24 ≤ a)
    (fits : a + (op.frame w.location.uid w.destId).size + 40 < findPageSize w.location) :
    EndsOn w files (op.run (w.placed k a nb 0 false, files)) := by
  have on : Opening.On w.opening files.ids (w.opening.placed k a nb,
      files.store k (op.stores w.location.uid w.destId a)) :=
    .intro k a nb _ present first (stores_spared w spared present first fits) (List.Subset.refl _)
  obtain ⟨s', moved, on'⟩ := on.next rfl
  obtain ⟨k', a', nb', files', present', first', spared', kept⟩ := on'
  exact ⟨k', a', nb', files', run_moves w nb (spared.page k present).header first fits
    fun locked => Writer.Handle.onJournal_placed 0 locked moved, present', first', spared', kept⟩

/-- A frame that does not fit is written on the next page. -/
theorem run_changes (w : Writer.Handle) {op : WriteOp} (nb : Nat) (spared : files.Spared w.location)
    (present : k ∈ files.ids)
    (small : (op.frame w.location.uid w.destId).size + 64 < findPageSize w.location)
    (full : ¬ a + (op.frame w.location.uid w.destId).size + 40 < findPageSize w.location) :
    op.run (w.placed k a nb 0 false, files) =
      op.run (w.placed (k + 1) 24 0 0 false,
        w.changedFiles k op.pageEndTimes.1 op.pageEndTimes.2 files) := by
  have header := w.changedFiles_header (k := k) spared op.pageEndTimes.1 op.pageEndTimes.2
  exact run_changed w nb (spared.page k present).header header small full
    (w.closePage_spared spared present a nb 0 op.pageEndTimes.1 op.pageEndTimes.2)

/-- There it is the only frame the writer knows of. -/
theorem run_nextPage (w : Writer.Handle) {op : WriteOp} (nb : Nat)
    (spared : files.Spared w.location)
    (present : k ∈ files.ids) (type : (op.frame w.location.uid w.destId).msgType ≠ pageEndTag)
    (small : (op.frame w.location.uid w.destId).size + 64 < findPageSize w.location)
    (full : ¬ a + (op.frame w.location.uid w.destId).size + 40 < findPageSize w.location) :
    op.run (w.placed k a nb 0 false, files) =
      .ok () (w.placed (k + 1) (24 + (op.frame w.location.uid w.destId).size) 1 0 false,
        (w.changedFiles k op.pageEndTimes.1 op.pageEndTimes.2 files).store (k + 1)
          (op.stores w.location.uid w.destId 24)) := by
  rw [run_changes w nb spared present small full]
  exact run_fits w 0 (w.changedFiles_header spared _ _) type (le_refl 24) (by omega)

/-- A write keeps the files spared unless it changes a page whose last frame or marker reaches
the border. -/
theorem run_spared (w : Writer.Handle) {op : WriteOp} (nb : Nat) (spared : files.Spared w.location)
    (present : k ∈ files.ids) (first : 24 ≤ a)
    (small : (op.frame w.location.uid w.destId).size + 64 < findPageSize w.location)
    (room : ¬ a + (op.frame w.location.uid w.destId).size + 40 < findPageSize w.location →
      FrameUnit.moveToNext (files.bytes k) (PageUnit.lastFrameAddress (files.bytes k)) + 40 <
        findPageSize w.location) : EndsOn w files (op.run (w.placed k a nb 0 false, files)) := by
  by_cases fits : a + (op.frame w.location.uid w.destId).size + 40 < findPageSize w.location
  · exact run_spared_fits w nb spared present first fits
  · have spared' :=
      w.changedFiles_spared spared present op.pageEndTimes.1 op.pageEndTimes.2 (room fits)
    have present' : k + 1 ∈ (w.changedFiles k op.pageEndTimes.1 op.pageEndTimes.2 files).ids :=
      files.mem_withPage _ _
    have start :
        24 + (op.frame w.location.uid w.destId).size + 40 < findPageSize w.location := by omega
    rw [run_changes w nb spared present small fits]
    obtain ⟨k', a', nb', files', ran, here, first', spared'', kept⟩ :=
      run_spared_fits w 0 spared' present' (le_refl 24) start
    exact ⟨k', a', nb', files', ran, here, first', spared'',
      List.Subset.trans (files.withPage_ids (k + 1) (findPageSize w.location)) kept⟩

end WriteOp

namespace SharedJournal

variable {ι : Type}

/-- No load of a page changes a byte of the journal, and the last frame or marker of a page does not
cover the byte that a load may write. Every frame and marker is the last one of its page when it has
been stored. -/
structure Reloadable (location : JLocation) (destId : UInt32) (files : JournalFiles) : Prop where
  unchanged : ∀ p ∈ files.ids, ∀ isWriting isLazy,
    after (PageUnit.load location destId p isWriting isLazy) files = files
  apart : ∀ p ∈ files.ids,
    FrameUnit.moveToNext (files.bytes p) (PageUnit.lastFrameAddress (files.bytes p)) ≤
      findPageSize location - 1

theorem reloadable_of_spared {location : JLocation} {files : JournalFiles}
    (spared : files.Spared location) (destId : UInt32) : Reloadable location destId files := by
  constructor
  · intro p present isWriting isLazy
    rw [after, PageUnit.load_spared spared present]
  · intro p present
    exact Nat.le_sub_one_of_lt (spared.page p present).ends

section
variable (location : JLocation) (destId : UInt32)

/-- Every payload is shorter than a page allows. -/
def Short (_ : System ι) : Event ι → Prop
  | .opened _ _ _ _ => True
  | .wrote _ op => (op.frame location.uid 0).data.length + 104 < findPageSize location

/-- A write that changes its writer's page finds the last frame or marker there ending before the
border. -/
def Roomy (s : System ι) : Event ι → Prop
  | .opened _ _ _ _ => True
  | .wrote i op => Short location s (.wrote i op) ∧
      ∀ w page, s.writers i = some w → w.journal.page = some page →
        let m := s.files.bytes page.pageId
        PageUnit.addressBorder m ≤ w.journal.frame + (op.frame location.uid destId).size →
          FrameUnit.moveToNext m (PageUnit.lastFrameAddress m) < PageUnit.addressBorder m

/-- The pages are spared, and every writer is on one of them, between two writes. -/
structure Spares (s : System ι) : Prop where
  spared : s.files.Spared location
  writers : ∀ i w, s.writers i = some w → ∃ isLazy start k a nb, k ∈ s.files.ids ∧ 24 ≤ a ∧
    w = (⟨location, destId, isLazy, start⟩ : Writer.Handle).placed k a nb 0 false

end

variable [DecidableEq ι] {location : JLocation} {destId : UInt32} {s s' : System ι}

omit [DecidableEq ι] in
theorem Spares.start : Spares location destId (System.start : System ι) :=
  ⟨.fresh location, by simp [System.start]⟩

/-- One writer moved, the others stay on their pages. -/
theorem Spares.update {files : JournalFiles} {k a : Nat} (spares : Spares location destId s)
    (spared : files.Spared location) (kept : s.files.ids ⊆ files.ids) (i : ι) (isLazy : Bool)
    (start : UInt32) (nb : Nat) (present : k ∈ files.ids) (first : 24 ≤ a) (written : List Frame) :
    Spares location destId ⟨Function.update s.writers i
      (some ((⟨location, destId, isLazy, start⟩ : Writer.Handle).placed k a nb 0 false)), files,
        written⟩ := by
  refine ⟨spared, writers_update ?_ ⟨isLazy, start, k, a, nb, present, first, rfl⟩ i⟩
  intro j v here
  obtain ⟨isLazy', start', k', a', nb', present', first', rfl⟩ := spares.writers j v here
  exact ⟨isLazy', start', k', a', nb', kept present', first', rfl⟩

theorem Spares.opened {w : Writer} {files : JournalFiles} (spares : Spares location destId s)
    (made : Writer.make location destId isLazy 0 started now s.files = .ok w files) (i : ι) :
    Spares location destId ⟨Function.update s.writers i (some w), files, s.written⟩ := by
  rw [Writer.make] at made
  cases sought : Journal.seekToTime now (Journal.make location destId true isLazy 0, s.files) with
  | error e t =>
    rw [sought] at made
    contradiction
  | ok u t =>
    rw [sought] at made
    have on :=
      Opening.seekToTime_on (o := ⟨location, destId, true, isLazy⟩) rfl spares.spared sought
    obtain ⟨k, a, nb, files', present, first, spared, kept⟩ := on
    obtain ⟨rfl, rfl⟩ := EStateM.Result.ok.inj made
    exact spares.update spared kept i isLazy (timeHashed started) nb present first s.written

theorem Spares.step (spares : Spares location destId s) (roomy : Roomy location destId s event)
    (step : Step location destId s event s') : Spares location destId s' := by
  cases step with
  | opened i isLazy started now w files absent made => exact spares.opened made i
  | wrote i op w w' files present ran =>
    obtain ⟨short, room⟩ := roomy
    obtain ⟨isLazy, start, k, a, nb, here, first, rfl⟩ := spares.writers i w present
    obtain ⟨border, _⟩ := Writer.addressBorder_eq location (spares.spared.page k here).header
    have small : (op.frame location.uid destId).size + 64 < findPageSize location := by
      have length : (op.frame location.uid 0).data.length + 104 < findPageSize location := short
      rw [Frame.size_eq, (op.frame_shape location.uid destId location.uid 0).2.1]
      omega
    have behind :
        PageUnit.addressBorder (s.files.bytes k) ≤ a + (op.frame location.uid destId).size →
        FrameUnit.moveToNext (s.files.bytes k) (PageUnit.lastFrameAddress (s.files.bytes k)) <
          PageUnit.addressBorder (s.files.bytes k) :=
      room _ ⟨k, findPageSize location⟩ present rfl
    rw [border] at behind
    let v : Writer.Handle := ⟨location, destId, isLazy, start⟩
    obtain ⟨k', a', nb', files', ran', here', first', spared, kept⟩ :=
      WriteOp.run_spared v nb spares.spared here first small fun full =>
        Nat.add_lt_of_lt_sub (behind (Nat.sub_le_of_le_add (not_lt.mp full)))
    rw [ran, EStateM.Result.ok.injEq, Prod.mk.injEq] at ran'
    obtain ⟨_, rfl, rfl⟩ := ran'
    exact spares.update spared kept i isLazy start nb' here' first' _

theorem Run.spares (run : Run location destId (Roomy location destId) s) :
    Spares location destId s := by
  induction run with
  | start => exact .start
  | step s s' event _ meets stepped ih => exact ih.step meets stepped

/-- In every state of a run whose page changes all find room for their marker, loading changes
nothing. -/
theorem reloadable_of_roomy (location : JLocation) (destId : UInt32) {s : System ι}
    (run : Run location destId (Roomy location destId) s) : Reloadable location destId s.files :=
  reloadable_of_spared run.spares.spared destId

omit [DecidableEq ι] in
/-- A writer in turn is on the last page, whose frames end before the border. -/
theorem InTurn.roomy (inv : Inv location destId s) (inTurn : InTurn location destId s event) :
    Roomy location destId s event := by
  cases event with
  | opened i isLazy started now => trivial
  | wrote i op =>
    refine ⟨inTurn.1.short, ?_⟩
    intro w page present here m _
    obtain ⟨page', here', last, _⟩ := inTurn.2 w present
    obtain rfl : page' = page := Option.some.inj (here'.symm.trans here)
    rcases inv.content with ⟨_, _, none⟩ | ⟨log, layout, _⟩
    · rw [none i] at present
      contradiction
    · have onLast : page'.pageId = log.lastPageId :=
        Option.some.inj (last.symm.trans layout.getLast_ids)
      have bounds := findPageSize_bounds location
      have mib : mebibyte = 1048576 := rfl
      have inside := layout.current_inside
      simp only [m, onLast]
      rw [layout.current.last_moveToNext (by omega),
        (Writer.addressBorder_eq location layout.current.header).1]
      omega

theorem Run.roomy (run : Run location destId (InTurn location destId) s) :
    Run location destId (Roomy location destId) s := by
  induction run with
  | start => exact .start
  | step s s' event run meets stepped ih => exact .step s s' event ih (meets.roomy run.inv) stepped

/-- Two marks by two writers. -/
theorem reloadable_of_roomy_two : ∃ s : System Bool,
    s.written = [(WriteOp.mark 3 101 4 5).frame Writer.simAccount.uid 7,
      (WriteOp.mark 6 102 7 8).frame Writer.simAccount.uid 7] ∧
        Reloadable Writer.simAccount 7 s.files := by
  obtain ⟨s, run, written⟩ := run_inTurn_two
  exact ⟨s, written, reloadable_of_roomy Writer.simAccount 7 run.roomy⟩

/-! Two writers that seal one page one after the other, the second one from a cursor it has kept. -/

def farDest : UInt32 := 0x01000007

def firstWriter : Writer.Handle := Writer.handleAt Writer.simAccount farDest false 1

def secondWriter : Writer.Handle := Writer.handleAt Writer.simAccount farDest false 3

/-- A payload of that many bytes. -/
def longWrite (n : Nat) : WriteOp := .writeRaw 3 101 (List.replicate n 0) 4 5

theorem longWrite_size (n : Nat) (s d : UInt32) : ((longWrite n).frame s d).size = 40 + n := by
  change 40 + (List.replicate n (0 : UInt8)).length = 40 + n
  rw [List.length_replicate]

theorem simAccount_pageSize : findPageSize Writer.simAccount = 16777216 := by
  simp [findPageSize, Writer.simAccount, JLocation.make, mebibyte]

theorem longWrite_short {n : Nat} (small : n < 16777112) (i : Bool) (s : System Bool) :
    Short Writer.simAccount s (.wrote i (longWrite n)) := by
  change (List.replicate n (0 : UInt8)).length + 104 < findPageSize Writer.simAccount
  rw [List.length_replicate, simAccount_pageSize]
  omega

/-- Both writers are opened, and the second one writes a frame of 40 bytes first. -/
theorem run_secondMarked :
    ∃ s : System Bool, Run Writer.simAccount farDest (Short Writer.simAccount) s ∧
    s.files.Spared Writer.simAccount ∧ 1 ∈ s.files.ids ∧
    s.writers false = some (firstWriter.placed 1 24 0 0 false) ∧
    s.writers true = some (secondWriter.placed 1 64 1 0 false) := by
  have size := simAccount_pageSize
  have layout := Layout.start Writer.simAccount
  let files := JournalFiles.fresh.addPage 1 (findPageSize Writer.simAccount)
  have spared : files.Spared Writer.simAccount :=
    (JournalFiles.Spared.fresh Writer.simAccount).withPage (le_refl 1)
  have present : 1 ∈ files.ids := by simp [files, JournalFiles.addPage]
  have fits : 24 + ((longWrite 0).frame secondWriter.location.uid secondWriter.destId).size + 40 <
      findPageSize secondWriter.location := by
    rw [longWrite_size]
    change 24 + (40 + 0) + 40 < findPageSize Writer.simAccount
    omega
  have ran :=
    WriteOp.run_fits secondWriter 0 (spared.page 1 present).header (by decide) (le_refl 24) fits
  have kept := WriteOp.stores_spared secondWriter spared present (le_refl 24) fits
  rw [longWrite_size] at ran
  have opened : Run Writer.simAccount farDest (Short Writer.simAccount) _ :=
    .step _ _ (.opened false false 1 2) .start trivial (.opened System.start false false 1 2 _ _ rfl
      (Writer.make_fresh Writer.simAccount farDest false 1 2))
  have joined : Run Writer.simAccount farDest (Short Writer.simAccount) _ :=
    .step _ _ (.opened true false 3 4) opened trivial (.opened _ true false 3 4 _ _ rfl
      (Writer.make_empty layout rfl rfl farDest false 3 4))
  exact ⟨_, .step _ _ _ joined (longWrite_short (by omega) true _) (.wrote _ true _ _ _ _ rfl ran),
    kept, present, rfl, rfl⟩

/-- The first writer fills the page up to 76 bytes before its end, and its next frame changes the
page: the marker ends 36 bytes before the end. -/
theorem run_sealedOnce :
    ∃ s : System Bool, Run Writer.simAccount farDest (Short Writer.simAccount) s ∧
    s.files.Spared Writer.simAccount ∧ 1 ∈ s.files.ids ∧
    s.writers true = some (secondWriter.placed 1 64 1 0 false) ∧
    FrameUnit.moveToNext (s.files.bytes 1) (PageUnit.lastFrameAddress (s.files.bytes 1)) =
      findPageSize Writer.simAccount - 36 := by
  have size := simAccount_pageSize
  obtain ⟨s, run, spared, present, first, second⟩ := run_secondMarked
  -- the frame that ends 76 bytes before the end of the page
  let filling := longWrite 16777076
  have here : (filling.frame firstWriter.location.uid firstWriter.destId).size = 40 + 16777076 :=
    longWrite_size _ _ _
  have fits : 24 + (filling.frame firstWriter.location.uid firstWriter.destId).size + 40 <
      findPageSize firstWriter.location := by
    change _ < findPageSize Writer.simAccount
    omega
  have ran := WriteOp.run_fits firstWriter 0 (spared.page 1 present).header
    (show (filling.frame firstWriter.location.uid firstWriter.destId).msgType ≠
      pageEndTag by decide)
    (le_refl 24) fits
  have spared₁ := WriteOp.stores_spared firstWriter spared present (le_refl 24) fits
  have behind := WriteOp.stores_behind firstWriter s.files 1 (le_refl 24) fits
  rw [here] at ran behind
  have run₁ : Run Writer.simAccount farDest (Short Writer.simAccount) _ :=
    .step _ _ _ run (longWrite_short (by omega) false s) (.wrote s false _ _ _ _ first ran)
  -- the frame that changes the page
  let next := longWrite 0
  have short : (next.frame firstWriter.location.uid firstWriter.destId).size = 40 + 0 :=
    longWrite_size _ _ _
  have full :
      ¬ 24 + (40 + 16777076) + (next.frame firstWriter.location.uid firstWriter.destId).size + 40 <
      findPageSize firstWriter.location := by
    change ¬ _ < findPageSize Writer.simAccount
    omega
  have small : (next.frame firstWriter.location.uid firstWriter.destId).size + 64 <
      findPageSize firstWriter.location := by
    change _ < findPageSize Writer.simAccount
    omega
  have ran₂ := WriteOp.run_nextPage firstWriter 1 spared₁ present (by decide) small full
  have run₂ : Run Writer.simAccount farDest (Short Writer.simAccount) _ :=
    .step _ _ _ run₁ (longWrite_short (by omega) false _) (.wrote _ false _ _ _ _ rfl ran₂)
  have sealed :=
    firstWriter.changedFiles_spared spared₁ present next.pageEndTimes.1 next.pageEndTimes.2 (by
    rw [behind]
    change _ < findPageSize Writer.simAccount
    omega)
  have spared₂ :=
    WriteOp.stores_spared firstWriter sealed (JournalFiles.mem_withPage _ 2 _) (le_refl 24)
    (show 24 + (next.frame firstWriter.location.uid firstWriter.destId).size + 40 <
        findPageSize firstWriter.location by
      change _ < findPageSize Writer.simAccount
      omega)
  obtain ⟨_, last, marker⟩ := firstWriter.changedFiles_marker spared₁ present next.pageEndTimes.1
    next.pageEndTimes.2 (by omega) behind
  refine ⟨_, run₂, spared₂, JournalFiles.withPage_ids _ 2 _ present, second, ?_⟩
  rw [JournalFiles.store_bytes_other _ (show 1 ≠ 1 + 1 by omega), last, marker.moveToNext, size]
  rfl

/-- The second writer's next frame does not fit behind its cursor, which is still on the first
page: another marker goes behind the first one, up to the end of the page. -/
theorem run_sealedTwice :
    ∃ s : System Bool, Run Writer.simAccount farDest (Short Writer.simAccount) s ∧
    s.files.Sound Writer.simAccount ∧ 1 ∈ s.files.ids ∧ s.files.mappable 1 = true ∧
    ∃ b, b + 36 = findPageSize Writer.simAccount ∧ PageUnit.lastFrameAddress (s.files.bytes 1) = b ∧
      Holds (s.files.bytes 1) b (Writer.pageEndFrame 3 4 Writer.simAccount.uid farDest) := by
  have size := simAccount_pageSize
  obtain ⟨s, run, spared, present, second, behind⟩ := run_sealedOnce
  let long := longWrite 16777096
  have here : (long.frame secondWriter.location.uid secondWriter.destId).size = 40 + 16777096 :=
    longWrite_size _ _ _
  have full : ¬ 64 + (long.frame secondWriter.location.uid secondWriter.destId).size + 40 <
      findPageSize secondWriter.location := by
    change ¬ _ < findPageSize Writer.simAccount
    omega
  have small : (long.frame secondWriter.location.uid secondWriter.destId).size + 64 <
      findPageSize secondWriter.location := by
    change _ < findPageSize Writer.simAccount
    omega
  have ran := WriteOp.run_nextPage secondWriter 1 spared present (by decide) small full
  have run' : Run Writer.simAccount farDest (Short Writer.simAccount) _ :=
    .step _ _ _ run (longWrite_short (by omega) true s) (.wrote s true _ _ _ _ second ran)
  obtain ⟨sound, last, marker⟩ :=
    secondWriter.changedFiles_marker spared present 3 4 (by omega) behind
  have places : Places (long.stores secondWriter.location.uid secondWriter.destId)
      (long.frame secondWriter.location.uid secondWriter.destId) :=
        WriteOp.places_of_size _ _ (by omega)
  have page := sound.page 2 (JournalFiles.mem_withPage _ 2 _)
  have other : 1 ≠ 1 + 1 := by omega
  refine ⟨_, run', sound.store (page.place places (le_refl 24) (by omega)).1,
    JournalFiles.withPage_ids _ 2 _ present, (spared.withPage (show 1 ≤ 2 by omega)).mappable 1,
    findPageSize Writer.simAccount - 36, by omega, ?_, ?_⟩
  · rw [JournalFiles.store_bytes_other _ other]
    exact last
  · rw [JournalFiles.store_bytes_other _ other]
    exact marker

theorem load32_top_zero {m : Memory} (zero : m (x + 3) = 0) : (m.load32 x).toNat < 2 ^ 24 := by
  have low := (m x).toNat_lt
  have second := (m (x + 1)).toNat_lt
  have third := (m (x + 1 + 1)).toNat_lt
  have top : (m (x + 1 + 1 + 1)).toNat = 0 := by
    rw [show x + 1 + 1 + 1 = x + 3 by omega, zero]
    rfl
  simp only [Memory.load32, Memory.slice, ofLE, top, UInt32.toNat_ofNat']
  omega

/-- An eager reader's load of that page changes the destination of the second marker. -/
theorem marker_overwritten :
    ∃ s : System Bool, Run Writer.simAccount farDest (Short Writer.simAccount) s ∧
    ¬ Reloadable Writer.simAccount farDest s.files ∧
    ∃ b, PageUnit.lastFrameAddress (s.files.bytes 1) = b ∧
      FrameUnit.msgType (s.files.bytes 1) b = pageEndTag ∧
        FrameUnit.dest (s.files.bytes 1) b = farDest ∧
      FrameUnit.dest ((after
        (PageUnit.load Writer.simAccount farDest 1 false false) s.files).bytes 1) b ≠
        farDest := by
  obtain ⟨s, run, sound, present, mappable, b, ends, last, marker⟩ := run_sealedTwice
  have extended := JournalFiles.Extends.stretch sound present
  have created : s.files.create 1 = s.files := if_pos present
  have mapped : loadMmapBuffer (PageUnit.getPagePath Writer.simAccount farDest 1) 1
      (findPageSize Writer.simAccount) false false s.files =
        .ok () (s.files.stretch 1 (findPageSize Writer.simAccount)) := by
    simp only [loadMmapBuffer, bind_apply, get_apply, mappable, if_true, created, master, set_apply]
    rfl
  have loaded := PageUnit.load_checked mapped extended.sound present
  have dest : FrameUnit.dest (s.files.bytes 1) b = farDest := congrArg Frame.dest marker.read
  have altered : FrameUnit.dest
      ((after (PageUnit.load Writer.simAccount farDest 1 false false) s.files).bytes 1) b ≠
        farDest := by
    rw [after, loaded]
    intro same
    have small :
        (FrameUnit.dest ((s.files.stretch 1 (findPageSize Writer.simAccount)).bytes 1) b).toNat <
        2 ^ 24 := by
      apply load32_top_zero
      have byte : b + 32 + 3 = findPageSize Writer.simAccount - 1 := by omega
      rw [byte]
      simp [JournalFiles.stretch, JournalFiles.bytes, Memory.write]
    rw [same] at small
    exact absurd small (by decide)
  refine ⟨s, run, ?_, b, last, marker.msgType, dest, altered⟩
  intro reloadable
  rw [reloadable.unchanged 1 present] at altered
  exact altered dest

end SharedJournal
end BTrader
