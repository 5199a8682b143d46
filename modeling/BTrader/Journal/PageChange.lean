import BTrader.Journal.WriterStates
import BTrader.Journal.PageWalk

/-! Opening a frame in any state a writer can be in: what the admission check promises,
and what is left behind when the page change fails. -/
namespace BTrader
open ByteMemory Infra Procedure

namespace Writer
open JournalFiles (Inside)

variable {location : JLocation} {w : Writer} {files : JournalFiles} {k : Nat}
    {t pe : Int64} {ty : Int32}

abbrev Seated (location : JLocation) (s : Writer × JournalFiles) : Prop :=
  Journal.Seated location (s.1.journal, s.2)

theorem onJournal_ok {x : JournalM α} (ran : x (w.journal, files) = .ok r (j', files')) :
    onJournal x (w, files) = .ok r ({ w with journal := j' }, files') := by
  simp only [onJournal, zoom, ran]

theorem onJournal_error {x : JournalM α} (failed : x (w.journal, files) = .error e (j', files')) :
    onJournal x (w, files) = .error e ({ w with journal := j' }, files') := by
  simp only [onJournal, zoom, failed]

theorem keeps_onJournal {x : JournalM α} (keeps : Keeps (Journal.Seated location) x) :
    Keeps (Seated location) (onJournal x) :=
  keeps_zoom keeps (fun _ seated => seated) fun _ _ _ seated => seated

theorem currentPage_eq (page : w.journal.page = some q) :
    onJournal Journal.currentPage (w, files) = .ok q (w, files) := by
  have ran : Journal.currentPage (w.journal, files) = .ok q (w.journal, files) := by
    simp [Journal.currentPage, page]
  exact onJournal_ok ran

theorem store_eq (page : w.journal.page = some q) (ops : List StoreOp) :
    onJournal (Journal.store ops) (w, files) = .ok () (w, files.store q.pageId ops) := by
  have ran :
      Journal.store ops (w.journal, files) = .ok () (w.journal, files.store q.pageId ops) := by
    simp [Journal.store, Journal.currentPage, page]
  exact onJournal_ok ran

/-- Stores behind the page header of the current page. -/
theorem Seated.store (seated : Seated location (w, files)) (page : w.journal.page = some ⟨k, size⟩)
    {ops : List StoreOp} (behind : StoresFrom 24 ops) : Seated location (w, files.store k ops) := by
  have present : k ∈ files.ids := (seated.page _ page).1
  exact ⟨⟨seated.here, seated.isWriting, seated.page,
    seated.sound.store ((seated.sound.page k present).execAll behind)⟩, seated.opened, seated.frame⟩

/-- The page change: the cursor goes to the first frame of the next page. -/
theorem closePage_ok (seated : Seated location (w, files)) (inside : Inside location files)
    (page : w.journal.page = some ⟨k, findPageSize location⟩)
    (can : Journal.CanChange files w.journal k) (t pe : Int64) :
    ∃ j' files', closePage t pe (w, files) = .ok () ({ w with journal := j' }, files') ∧
      Journal.Seated location (j', files') ∧
      j'.page = some ⟨w.journal.nextPageId k, findPageSize location⟩ ∧ j'.frame = 24 := by
  have bounds := findPageSize_bounds location
  have mib : mebibyte = 1048576 := rfl
  obtain ⟨j', files₁, loaded, extended, seated', page', frame', _⟩ :=
    Journal.loadNextPage_ok seated page can
  have present : k ∈ files₁.ids := extended.ids (seated.page _ page).1
  have sound := extended.sound.page k present
  let b := FrameUnit.moveToNext (files₁.bytes k) (PageUnit.lastFrameAddress (files₁.bytes k))
  have lower : 24 ≤ b := sound.position.trans (Nat.le_add_right _ _)
  have upper : b < 2 ^ 64 := by
    have last := extended.inside inside k present
    have length := (FrameUnit.frameLength (files₁.bytes k)
      (PageUnit.lastFrameAddress (files₁.bytes k))).toNat_lt
    change PageUnit.lastFrameAddress (files₁.bytes k) + _ < _
    omega
  let ops := pageEndStores b t pe w.journal.location.uid w.journal.destId ++
    [PageUnit.setLastFramePosition (UInt64.ofNat b)]
  have stored : PageUnit.Sound (findPageSize location) ((files₁.bytes k).execAll ops) := by
    have filled := sound.execAll ((storesFrom_pageEndStores b (t := t) (g := pe)
      (s := w.journal.location.uid) (d := w.journal.destId)).mono lower)
    rw [execAll_append, execAll_cons, execAll_nil]
    exact (filled.setLast lower upper).1
  refine ⟨j', files₁.store k ops, ?_, ?_, page', frame'⟩
  · simp only [closePage, bind_apply, get_apply, currentPage_eq page,
      onJournal_ok loaded, modify_apply]
    rfl
  · exact ⟨⟨seated'.here, seated'.isWriting, seated'.page, extended.sound.store stored⟩,
      seated'.opened, seated'.frame⟩

theorem closePage_error (page : w.journal.page = some ⟨k, size⟩)
    (failed : Journal.loadNextPage (w.journal, files) = .error e (j', files')) (t pe : Int64) :
    closePage t pe (w, files) = .error e ({ w with journal := j' }, files') := by
  simp only [closePage, bind_apply, get_apply, currentPage_eq page, onJournal_error failed]

theorem closePage_fails (page : w.journal.page = some ⟨k, size⟩)
    (cannot : ¬ Journal.CanChange files w.journal k) (t pe : Int64) :
    ∃ e, closePage t pe (w, files) = .error e (w, files) := by
  obtain ⟨e, failed⟩ := Journal.loadNextPage_fails page cannot
  exact ⟨e, closePage_error page failed t pe⟩

section Open

/-- The check at the beginning of `openFrame`. -/
def Admitted (location : JLocation) (dataLength : UInt32) : Prop :=
  sizeofFrameHeader + dataLength.toNat + sizeofFrameHeader ≤ findPageSize location

/-- The frame would reach the border, so the page is changed before it is opened. -/
def ReachesBorder (location : JLocation) (frame : Nat) (dataLength : UInt32) : Prop :=
  findPageSize location ≤ frame + sizeofFrameHeader + dataLength.toNat + sizeofFrameHeader

instance (location : JLocation) (frame : Nat) (dataLength : UInt32) :
    Decidable (ReachesBorder location frame dataLength) := inferInstanceAs (Decidable (_ ≤ _))

/-- The last part of `openFrame`: the header stores of the new frame. -/
def openHere (t : Int64) (ty : Int32) (dataLength : UInt32) : WriterM Nat := do
  let (w, _) ← get
  let frame := w.journal.frame
  onJournal (Journal.store (openStores frame t ty w.journal.location.uid w.journal.destId))
  setSizeToWrite dataLength.toNat
  return frame

/-- `openFrame` on an unlocked writer, with the checks spelled out. -/
theorem openFrame_eq (seated : Seated location (w, files))
    (page : w.journal.page = some ⟨k, findPageSize location⟩) (idle : w.locked = false)
    (dataLength : UInt32) (admitted : Admitted location dataLength) (t : Int64) (ty : Int32)
    (pe : Int64) :
    openFrame t ty dataLength pe (w, files) =
      ((if ReachesBorder location w.journal.frame dataLength then closePage t pe else pure ()) >>=
        fun _ =>
        openHere t ty dataLength) ({ w with locked := true }, files) := by
  have bounds := findPageSize_bounds location
  have mib : mebibyte = 1048576 := rfl
  have header := (seated.sound.page k (seated.page _ page).1).header
  obtain ⟨border, size⟩ := addressBorder_eq location header
  have asserted :
      ¬ findPageSize location < sizeofFrameHeader + dataLength.toNat + sizeofFrameHeader :=
    not_lt.mpr admitted
  have test : findPageSize location - 40 ≤ w.journal.frame + sizeofFrameHeader + dataLength.toNat ↔
      ReachesBorder location w.journal.frame dataLength := by
    unfold ReachesBorder sizeofFrameHeader
    omega
  simp only [openFrame, bind_apply, get_apply, currentPage_eq page, border, size, asserted,
    if_false, test, lock, idle, Bool.false_eq_true, set_apply, openHere]
  by_cases change : ReachesBorder location w.journal.frame dataLength
  · simp only [change, if_true, bind_apply, get_apply]
  · simp only [change, if_false, bind_apply, get_apply, pure_apply]

theorem openHere_eq (page : w.journal.page = some ⟨k, size⟩) (t : Int64) (ty : Int32)
    (dataLength : UInt32) :
    openHere t ty dataLength (w, files) =
      .ok w.journal.frame ({ w with sizeToWrite := dataLength.toNat },
        files.store k (openStores w.journal.frame t ty w.journal.location.uid
          w.journal.destId)) := by
  simp only [openHere, bind_apply, get_apply, store_eq page, setSizeToWrite,
    modify_apply, pure_apply]

/-- An admitted `openFrame` opens a frame, or it needs a page that cannot be loaded. -/
theorem openFrame_cases (seated : Seated location (w, files)) (inside : Inside location files)
    (page : w.journal.page = some ⟨k, findPageSize location⟩) (idle : w.locked = false)
    (dataLength : UInt32) (admitted : Admitted location dataLength) (t : Int64) (ty : Int32)
    (pe : Int64) :
    (∃ v files' p, openFrame t ty dataLength pe (w, files) = .ok v.journal.frame (v, files') ∧
      Seated location (v, files') ∧ v.journal.page = some ⟨p, findPageSize location⟩ ∧
      v.journal.frame = (if ReachesBorder location w.journal.frame dataLength then 24
        else w.journal.frame) ∧
      FrameUnit.headerLength (files'.bytes p) v.journal.frame = 40) ∨
    (ReachesBorder location w.journal.frame dataLength ∧ ¬ Journal.CanChange files w.journal k ∧
      ∃ e, openFrame t ty dataLength pe (w, files) =
        .error e ({ w with locked := true }, files)) := by
  have opened := openFrame_eq seated page idle dataLength admitted t ty pe
  let locked : Writer := { w with locked := true }
  have lockedSeated : Seated location (locked, files) := seated
  have lockedPage : locked.journal.page = some ⟨k, findPageSize location⟩ := page
  by_cases change : ReachesBorder location w.journal.frame dataLength
  · rw [if_pos change] at opened ⊢
    by_cases can : Journal.CanChange files w.journal k
    · obtain ⟨j', files', closed, seated', page', frame'⟩ :=
        closePage_ok lockedSeated inside lockedPage can t pe
      let v : Writer := { locked with journal := j' }
      have pageV : v.journal.page = some ⟨w.journal.nextPageId k, findPageSize location⟩ := page'
      rw [bind_ok closed, openHere_eq pageV] at opened
      left
      refine ⟨{ v with sizeToWrite := dataLength.toNat }, _, _, opened, ?_, pageV, frame', ?_⟩
      · exact Seated.store (w := { v with sizeToWrite := dataLength.toNat }) seated' pageV
          ((storesFrom_openStores _).mono seated'.frame)
      · rw [JournalFiles.store_bytes_same]
        exact (openStores_header _ _ _ _ _ _).1
    · obtain ⟨e, failed⟩ := closePage_fails lockedPage can t pe
      rw [bind_error failed] at opened
      exact Or.inr ⟨change, can, e, opened⟩
  · rw [if_neg change] at opened ⊢
    rw [bind_ok (pure_apply _ _), openHere_eq lockedPage] at opened
    left
    refine ⟨{ locked with sizeToWrite := dataLength.toNat }, _, _, opened, ?_, page, rfl, ?_⟩
    · exact Seated.store (w := { locked with sizeToWrite := dataLength.toNat }) seated page
        ((storesFrom_openStores _).mono seated.frame)
    · rw [JournalFiles.store_bytes_same]
      exact (openStores_header _ _ _ _ _ _).1

theorem openFrame_refused (page : w.journal.page = some ⟨k, size⟩) (dataLength : UInt32)
    (refused : w.locked = true ∨ (PageUnit.getPageSize (files.bytes k)).toNat <
      sizeofFrameHeader + dataLength.toNat + sizeofFrameHeader) (t : Int64) (ty : Int32)
        (pe : Int64) :
    ∃ e, openFrame t ty dataLength pe (w, files) = .error e (w, files) := by
  by_cases long : (PageUnit.getPageSize (files.bytes k)).toNat <
      sizeofFrameHeader + dataLength.toNat + sizeofFrameHeader
  · refine ⟨.assertion, ?_⟩
    simp only [openFrame, bind_apply, get_apply, currentPage_eq page, long, if_true, throw_apply]
  · have locked : w.locked = true := refused.resolve_right long
    refine ⟨.journalError ("Can not lock writer for " ++ w.journal.location.uname), ?_⟩
    simp only [openFrame, bind_apply, get_apply, currentPage_eq page, long, if_false, lock, locked,
      if_true, throw_apply]

end Open

section Steps

theorem closeStores_sound {size : Nat} {m : Memory} (sound : PageUnit.Sound size m)
    (first : 24 ≤ frame)
    (small : frame < 2 ^ 64) (behind : frame ≤ next) (dataLength : UInt32) (g : Int64) :
    PageUnit.Sound size (m.execAll (closeStores frame next dataLength g)) := by
  have split : closeStores frame next dataLength g =
      (clearBytes next sizeofFrameHeader ++
        [FrameUnit.setGenTime frame g, FrameUnit.setDataLength frame dataLength]) ++
        [PageUnit.setLastFramePosition (UInt64.ofNat frame)] := by
    simp [closeStores]
  have header :
      StoresFrom 24 [FrameUnit.setGenTime frame g, FrameUnit.setDataLength frame dataLength] := by
    intro op member m
    simp only [List.mem_cons, List.not_mem_nil, or_false] at member
    rcases member with rfl | rfl <;> simp [FrameUnit.setGenTime, FrameUnit.setDataLength] <;> omega
  have cleared : StoresFrom 24 (clearBytes next sizeofFrameHeader) :=
    (storesFrom_copyBytes next _).mono (first.trans behind)
  rw [split, execAll_append, execAll_cons, execAll_nil]
  exact ((sound.execAll (cleared.append header)).setLast first small).1

theorem keeps_openFrame (t : Int64) (ty : Int32) (dataLength : UInt32) (pe : Int64)
    (seated : Seated location (w, files)) (inside : Inside location files) :
    Seated location (after (openFrame t ty dataLength pe) (w, files)) := by
  obtain ⟨k, present, page⟩ := seated.current
  by_cases refused : w.locked = true ∨ (PageUnit.getPageSize (files.bytes k)).toNat <
      sizeofFrameHeader + dataLength.toNat + sizeofFrameHeader
  · obtain ⟨e, failed⟩ := openFrame_refused page dataLength refused t ty pe
    rwa [after, failed]
  · rw [not_or, Bool.not_eq_true] at refused
    have header := (seated.sound.page k present).header
    have admitted : Admitted location dataLength := by
      have := refused.2
      rw [(addressBorder_eq location header).2] at this
      exact not_lt.mp this
    rcases openFrame_cases seated inside page refused.1 dataLength admitted t ty pe with
      ⟨v, files', p, opened, seated', _⟩ | ⟨_, _, e, failed⟩
    · rwa [after, opened]
    · rw [after, failed]
      exact seated

theorem keeps_unlock : Keeps (Seated location) unlock := keeps_modify fun _ seated => seated

theorem keeps_setSizeToWrite (size : Nat) : Keeps (Seated location) (setSizeToWrite size) :=
  keeps_modify fun _ seated => seated

theorem keeps_closeFrame (dataLength : Nat) (g : Int64) :
    Keeps (Seated location) (closeFrame dataLength g) := by
  rintro ⟨w, files⟩ seated
  obtain ⟨k, present, page⟩ := seated.current
  have page' : w.journal.page = some ⟨k, findPageSize location⟩ := page
  let next :=
    w.journal.frame + (FrameUnit.headerLength (files.bytes k) w.journal.frame).toNat + dataLength
  by_cases covered : w.sizeToWrite < dataLength
  · have failed : closeFrame dataLength g (w, files) = .error .assertion (w, files) := by
      simp only [closeFrame, bind_apply, get_apply, covered, if_true, throw_apply]
    rwa [after, failed]
  by_cases outside : PageUnit.addressBorder (files.bytes k) ≤ next
  · have failed : closeFrame dataLength g (w, files) = .error .assertion (w, files) := by
      simp only [closeFrame, bind_apply, get_apply, branch_apply, covered, if_false,
        currentPage_eq page', outside, next, if_true, throw_apply]
    rwa [after, failed]
  · have ran : closeFrame dataLength g (w, files) =
        (setSizeToWrite 0 >>= fun _ => onJournal Journal.next >>= fun _ => unlock)
          (w, files.store k (closeStores w.journal.frame next (UInt32.ofNat dataLength) g)) := by
      simp only [closeFrame, bind_apply, get_apply, branch_apply, covered, if_false,
        currentPage_eq page', outside, next, store_eq page']
    have bounds := findPageSize_bounds location
    have mib : mebibyte = 1048576 := rfl
    have header := (seated.sound.page k present).header
    have le : w.journal.frame ≤ next := by omega
    have small : w.journal.frame < 2 ^ 64 := by
      have := (addressBorder_eq location header).1
      simp only at this
      omega
    have stored : Seated location (w, files.store k
        (closeStores w.journal.frame next (UInt32.ofNat dataLength) g)) := by
      refine ⟨⟨seated.here, seated.isWriting, seated.page, seated.sound.store ?_⟩, seated.opened,
        seated.frame⟩
      exact closeStores_sound (seated.sound.page k present) seated.frame small le _ _
    rw [after_congr ran]
    exact keeps_bind (keeps_setSizeToWrite 0)
      (fun _ => keeps_bind (keeps_onJournal Journal.keeps_next)
      fun _ => keeps_unlock) _ stored

/-- The last part of `copyFrame`: the copy at the cursor. -/
def copyHere (source : Memory) (sourceFrame : Nat) : WriterM Unit := do
  let frame := (← get).1.journal.frame
  onJournal (Journal.store (FrameUnit.copy frame source sourceFrame))
  let page ← onJournal Journal.currentPage
  let m := (← get).2.bytes page.pageId
  let nextFrameAddress :=
    frame + (FrameUnit.headerLength m frame).toNat + (FrameUnit.dataLength m frame).toNat
  onJournal (Journal.store (clearBytes nextFrameAddress sizeofFrameHeader ++
    [PageUnit.setLastFramePosition (UInt64.ofNat frame)]))
  onJournal Journal.next

theorem keeps_copyHere (seated : Seated location (w, files)) (small : w.journal.frame < 2 ^ 64)
    (source : Memory) (sourceFrame : Nat) :
    Seated location (after (copyHere source sourceFrame) (w, files)) := by
  obtain ⟨k, present, page⟩ := seated.current
  have page' : w.journal.page = some ⟨k, findPageSize location⟩ := page
  let copied := files.store k (FrameUnit.copy w.journal.frame source sourceFrame)
  have seated₁ : Seated location (w, copied) :=
    seated.store page ((storesFrom_copyBytes _ _).mono seated.frame)
  let next := w.journal.frame +
    (FrameUnit.headerLength (copied.bytes k) w.journal.frame).toNat +
    (FrameUnit.dataLength (copied.bytes k) w.journal.frame).toNat
  let ops := clearBytes next sizeofFrameHeader ++
    [PageUnit.setLastFramePosition (UInt64.ofNat w.journal.frame)]
  have ran :
      copyHere source sourceFrame (w, files) = onJournal Journal.next (w, copied.store k ops) := by
    simp only [copyHere, bind_apply, get_apply, store_eq page', currentPage_eq page',
      copied, ops, next]
  have stored : Seated location (w, copied.store k ops) := by
    refine ⟨⟨seated.here, seated.isWriting, seated.page, seated₁.sound.store ?_⟩, seated.opened,
      seated.frame⟩
    have behind : StoresFrom 24 (clearBytes next sizeofFrameHeader) := by
      refine (storesFrom_copyBytes next _).mono (seated.frame.trans ?_)
      change w.journal.frame ≤ next
      omega
    rw [execAll_append, execAll_cons, execAll_nil]
    exact (((seated₁.sound.page k present).execAll behind).setLast seated.frame small).1
  rw [after_congr ran]
  exact keeps_onJournal Journal.keeps_next _ stored

theorem keeps_copyFrame (source : Memory) (sourceFrame : Nat) (t pe : Int64)
    (seated : Seated location (w, files)) (inside : Inside location files) :
    Seated location (after (copyFrame source sourceFrame t pe) (w, files)) := by
  have bounds := findPageSize_bounds location
  have mib : mebibyte = 1048576 := rfl
  obtain ⟨k, present, page⟩ := seated.current
  have page' : w.journal.page = some ⟨k, findPageSize location⟩ := page
  obtain ⟨border, size⟩ := addressBorder_eq location (seated.sound.page k present).header
  simp only at border size
  let length := (FrameUnit.frameLength source sourceFrame).toNat
  by_cases long : findPageSize location < length + sizeofFrameHeader
  · have failed : copyFrame source sourceFrame t pe (w, files) = .error .assertion (w, files) := by
      simp only [copyFrame, bind_apply, get_apply, currentPage_eq page', size, long,
        length, if_true, throw_apply]
    rwa [after, failed]
  have split : copyFrame source sourceFrame t pe (w, files) =
      ((if findPageSize location - 40 ≤ w.journal.frame + length then closePage t pe
        else pure ()) >>=
        fun _ => copyHere source sourceFrame) (w, files) := by
    simp only [copyFrame, bind_apply, get_apply, branch_apply, currentPage_eq page',
      size, border, long, length, if_false, copyHere]
    split <;> rfl
  rw [after_congr split]
  by_cases change : findPageSize location - 40 ≤ w.journal.frame + length
  · rw [if_pos change]
    by_cases can : Journal.CanChange files w.journal k
    · obtain ⟨j', files', closed, seated', _, frame'⟩ := closePage_ok seated inside page can t pe
      rw [after_congr (bind_ok closed _)]
      exact keeps_copyHere (w := { w with journal := j' }) seated' (by
        change j'.frame < 2 ^ 64
        omega) source sourceFrame
    · obtain ⟨e, failed⟩ := closePage_fails page can t pe
      rw [after, bind_error failed]
      exact seated
  · rw [if_neg change, after_congr (bind_ok (pure_apply _ _) _)]
    exact keeps_copyHere seated (by omega) source sourceFrame

/-- What a process does with a writer: the public functions, and stores into the payload
of an open frame. -/
inductive Call where
  | openFrame (triggerTime : Int64) (msgType : Int32) (dataLength : UInt32) (pageEnd : Int64)
  | fill (ops : List StoreOp) (behind : StoresFrom 24 ops)
  | closeFrame (dataLength : Nat) (genTime : Int64)
  | copyFrame (source : Memory) (sourceFrame : Nat) (trigger pageEnd : Int64)

def Call.run : Call → WriterM Unit
  | openFrame t ty dataLength pe => do
    let _ ← Writer.openFrame t ty dataLength pe
  | fill ops _ => onJournal (Journal.store ops)
  | closeFrame dataLength g => Writer.closeFrame dataLength g
  | copyFrame source sourceFrame t pe => Writer.copyFrame source sourceFrame t pe

/-- The states of a writer, with or without rollback, constructed on any journal, after
calls that returned or threw, among writers that change the files. A run ends where a last
frame position would leave its page. -/
inductive Reachable (location : JLocation) (destId : UInt32) : Writer × JournalFiles → Prop
  | make {files files' : JournalFiles} {w : Writer} (isLazy : Bool) (pageRollbackSize : Nat)
      (started now : Int64) (sound : files.Sound location)
      (ran : Writer.make location destId isLazy pageRollbackSize started now files = .ok w files')
      (inside : Inside location files') : Reachable location destId (w, files')
  | call (c : Call) (reached : Reachable location destId s)
      (inside : Inside location (after c.run s).2) : Reachable location destId (after c.run s)
  | files {files : JournalFiles} {w : Writer} (files' : JournalFiles)
      (reached : Reachable location destId (w, files))
      (sound : files'.Sound location) (inside : Inside location files')
      (kept : files.ids ⊆ files'.ids) :
      Reachable location destId (w, files')

theorem make_seated {destId : UInt32} {isLazy : Bool} {pageRollbackSize : Nat} {started now : Int64}
    (sound : files.Sound location)
    (ran : Writer.make location destId isLazy pageRollbackSize started now files = .ok w files') :
    Seated location (w, files') := by
  rw [Writer.make] at ran
  cases sought :
    Journal.seekToTime now (Journal.make location destId true isLazy pageRollbackSize, files) with
  | error e s =>
    rw [sought] at ran
    contradiction
  | ok a s =>
    rw [sought] at ran
    obtain ⟨rfl, rfl⟩ := EStateM.Result.ok.inj ran
    exact Journal.seekToTime_seated sound sought

theorem call_seated (c : Call) (seated : Seated location (w, files))
    (inside : Inside location files) :
    Seated location (after c.run (w, files)) := by
  cases c with
  | openFrame t ty dataLength pe =>
    rw [Call.run, after_ignore]
    exact keeps_openFrame t ty dataLength pe seated inside
  | fill ops behind =>
    obtain ⟨k, _, page⟩ := seated.current
    have page' : w.journal.page = some ⟨k, findPageSize location⟩ := page
    rw [after, Call.run, store_eq page']
    exact seated.store page behind
  | closeFrame dataLength g => exact keeps_closeFrame dataLength g _ seated
  | copyFrame source sourceFrame t pe => exact keeps_copyFrame source sourceFrame t pe seated inside

theorem Reachable.seated {destId : UInt32} (reached : Reachable location destId s) :
    Seated location s ∧ Inside location s.2 := by
  induction reached with
  | make isLazy pageRollbackSize started now sound ran inside =>
    exact ⟨make_seated sound ran, inside⟩
  | call c _ inside ih => exact ⟨call_seated c ih.1 ih.2, inside⟩
  | files files' _ sound inside kept ih =>
    refine ⟨⟨⟨ih.1.here, ih.1.isWriting, ?_, sound⟩, ih.1.opened, ih.1.frame⟩, inside⟩
    intro q page
    have based := ih.1.page q page
    exact ⟨kept based.1, based.2⟩

end Steps

section Admission
variable {destId : UInt32} {dataLength : UInt32}

/-- The opened frame, its payload and the slot behind it lie in the current page, and the
check of `closeFrame` passes. -/
def Storable (location : JLocation) (dataLength : UInt32) (t : Int64) (ty : Int32) (pe : Int64)
    (s : Writer × JournalFiles) : Prop :=
  ∃ v files' p, openFrame t ty dataLength pe s = .ok v.journal.frame (v, files') ∧
    v.journal.page = some ⟨p, findPageSize location⟩ ∧ sizeofPageHeader ≤ v.journal.frame ∧
    v.journal.frame + sizeofFrameHeader + dataLength.toNat + sizeofFrameHeader ≤
      findPageSize location ∧
    v.journal.frame + (FrameUnit.headerLength (files'.bytes p) v.journal.frame).toNat +
      dataLength.toNat <
      PageUnit.addressBorder (files'.bytes p)

theorem storable_seated (seated : Seated location (w, files)) (inside : Inside location files)
    (idle : w.locked = false) (mappable : ∀ p, files.mappable p = true)
    (admitted : Admitted location dataLength) (t : Int64) (ty : Int32) (pe : Int64) :
    Storable location dataLength t ty pe (w, files) ↔
      dataLength.toNat + 104 < findPageSize location := by
  obtain ⟨k, _, page⟩ := seated.current
  have first : 24 ≤ w.journal.frame := seated.frame
  rcases openFrame_cases seated inside page idle dataLength admitted t ty pe with
    ⟨v, files', p, opened, seated', page', frame', length⟩ | ⟨_, cannot, _⟩
  · have border :=
      (addressBorder_eq location (seated'.sound.page p (seated'.page _ page').1).header).1
    simp only at border
    have cursor : ReachesBorder location w.journal.frame dataLength ∧ v.journal.frame = 24 ∨
        ¬ ReachesBorder location w.journal.frame dataLength ∧
          v.journal.frame = w.journal.frame := by
      by_cases change : ReachesBorder location w.journal.frame dataLength
      · exact Or.inl ⟨change, by rw [frame', if_pos change]⟩
      · exact Or.inr ⟨change, by rw [frame', if_neg change]⟩
    unfold ReachesBorder sizeofFrameHeader at cursor
    constructor
    · rintro ⟨u, files'', q, opened', pageU, _, _, closes⟩
      rw [opened, EStateM.Result.ok.injEq, Prod.mk.injEq] at opened'
      obtain ⟨_, rfl, rfl⟩ := opened'
      rw [page', Option.some.injEq, PageUnit.mk.injEq] at pageU
      obtain ⟨rfl, _⟩ := pageU
      rw [length, border, show (40 : UInt32).toNat = 40 from rfl] at closes
      omega
    · intro small
      refine ⟨v, files', p, opened, page', ?_, ?_, ?_⟩
      · unfold sizeofPageHeader
        omega
      · unfold sizeofFrameHeader
        omega
      · rw [length, border, show (40 : UInt32).toNat = 40 from rfl]
        omega
  · exact absurd (Or.inl (mappable _)) cannot

/-- An admitted frame can be stored exactly when a page that holds nothing else has room
for it. -/
theorem storable_iff (reached : Reachable location destId (w, files)) (idle : w.locked = false)
    (mappable : ∀ p, files.mappable p = true) (admitted : Admitted location dataLength)
    (t : Int64) (ty : Int32) (pe : Int64) :
    Storable location dataLength t ty pe (w, files) ↔
      dataLength.toNat + 104 < findPageSize location :=
  storable_seated reached.seated.1 reached.seated.2 idle mappable admitted t ty pe

/-- A writer that was just constructed on a journal without pages. -/
theorem made_fresh :
    ∃ s, Reachable simAccount 7 s ∧ s.1.locked = false ∧ ∀ p, s.2.mappable p = true := by
  have made := make_fresh simAccount 7 false 1 2
  have extended := JournalFiles.Extends.addPage (JournalFiles.Sound.fresh simAccount)
    (show 1 ∉ JournalFiles.fresh.ids by simp [JournalFiles.fresh])
  exact ⟨_, .make false 0 1 2 (.fresh simAccount) made
    (extended.inside fun p member => by simp [JournalFiles.fresh] at member), rfl, fun _ => rfl⟩

theorem storable_iff_fresh : ∃ s, Reachable simAccount 7 s ∧
    (Storable simAccount 100 3 101 4 s ↔ (100 : UInt32).toNat + 104 < findPageSize simAccount) := by
  obtain ⟨⟨w, files⟩, reached, idle, mappable⟩ := made_fresh
  refine ⟨_, reached, storable_iff reached idle mappable ?_ 3 101 4⟩
  simp [Admitted, findPageSize, simAccount, JLocation.make, mebibyte, sizeofFrameHeader]

/-- The longest payload the check admits. -/
theorem longest_not_storable : ∃ s, Reachable simAccount 7 s ∧ s.1.locked = false ∧
    (∀ p, s.2.mappable p = true) ∧ Admitted simAccount (16 * 1024 * 1024 - 80) ∧
    ¬ Storable simAccount (16 * 1024 * 1024 - 80) 3 101 4 s := by
  obtain ⟨⟨w, files⟩, reached, idle, mappable⟩ := made_fresh
  have admitted : Admitted simAccount (16 * 1024 * 1024 - 80) := by
    simp [Admitted, findPageSize, simAccount, JLocation.make, mebibyte, sizeofFrameHeader]
  refine ⟨_, reached, idle, mappable, admitted, ?_⟩
  rw [storable_seated reached.seated.1 reached.seated.2 idle mappable admitted]
  simp [findPageSize, simAccount, JLocation.make, mebibyte]

end Admission

section FailedChange

/-- What a call that throws should leave: no lock taken, the journal object and the stored
pages as they were. -/
structure LeavesUsable (s s' : Writer × JournalFiles) : Prop where
  unlocked : s'.1.locked = false
  journal : s'.1.journal = s.1.journal
  bytes : ∀ p ∈ s.2.ids, s'.2.bytes p = s.2.bytes p

theorem openFrame_locked (page : w.journal.page = some q) (locked : w.locked = true)
    (files : JournalFiles) (t : Int64) (ty : Int32) (dataLength : UInt32) (pe : Int64) :
    ∃ e, openFrame t ty dataLength pe (w, files) = .error e (w, files) :=
  openFrame_refused page dataLength (Or.inl locked) t ty pe

theorem openFrame_stuck {dataLength : UInt32} (page : w.journal.page = some ⟨k, size⟩)
    (idle : w.locked = false) (admitted : sizeofFrameHeader + dataLength.toNat + sizeofFrameHeader ≤
      (PageUnit.getPageSize (files.bytes k)).toNat)
    (full : PageUnit.addressBorder (files.bytes k) ≤
      w.journal.frame + sizeofFrameHeader + dataLength.toNat)
    (other : w.journal.nextPageId k ≠ k)
    (failed : PageUnit.load w.journal.location w.journal.destId (w.journal.nextPageId k)
      w.journal.isWriting w.journal.isLazy files = .error e files') (t : Int64) (ty : Int32)
        (pe : Int64) :
    openFrame t ty dataLength pe (w, files) = .error e ({ w with locked := true }, files') := by
  have loaded := onSnd_error (s := w.journal) failed
  have elsewhere : ¬ w.journal.page.map PageUnit.pageId = some (w.journal.nextPageId k) := by
    simpa [page] using Ne.symm other
  have refused : Journal.loadPage (w.journal.nextPageId k) (w.journal, files) =
      .error e (w.journal, files') := by
    simp only [Journal.loadPage, bind_apply, get_apply, elsewhere, ne_eq, not_false_eq_true,
      if_true, loaded]
  have stuck := closePage_error (w := { w with locked := true }) page
    (Journal.loadNextPage_error page refused) t pe
  simp only [openFrame, bind_apply, get_apply, currentPage_eq page, not_lt.mpr admitted,
    if_false, lock, idle, Bool.false_eq_true, set_apply, full, if_true, stuck]

/-- When the page change cannot load its page the lock stays taken, and no later call opens
a frame. -/
theorem failed_change {dataLength : UInt32} (page : w.journal.page = some ⟨k, size⟩)
    (idle : w.locked = false) (admitted : sizeofFrameHeader + dataLength.toNat + sizeofFrameHeader ≤
      (PageUnit.getPageSize (files.bytes k)).toNat)
    (full : PageUnit.addressBorder (files.bytes k) ≤
      w.journal.frame + sizeofFrameHeader + dataLength.toNat)
    (other : w.journal.nextPageId k ≠ k)
    (failed : PageUnit.load w.journal.location w.journal.destId (w.journal.nextPageId k)
      w.journal.isWriting w.journal.isLazy files = .error e files') (t : Int64) (ty : Int32)
        (pe : Int64) :
    ∃ s', openFrame t ty dataLength pe (w, files) = .error e s' ∧ ¬ LeavesUsable (w, files) s' ∧
      ∀ later t' ty' dataLength' pe', ∃ e', openFrame t' ty' dataLength' pe' (s'.1, later) =
        .error e' (s'.1, later) := by
  refine ⟨_, openFrame_stuck page idle admitted full other failed t ty pe, ?_, ?_⟩
  · intro usable
    exact absurd usable.unlocked (by simp)
  · intro later t' ty' dataLength' pe'
    exact openFrame_locked (w := { w with locked := true }) page rfl later t' ty' dataLength' pe'

/-- A writer behind one frame of nine million bytes, with no page left to map. -/
theorem halfFull {data : List UInt8} (length : data.length = 9000000) : ∃ w files,
    session simAccount 7 false 1 2 [.writeRaw 3 101 data 4 5] JournalFiles.fresh = .ok w files ∧
    w.journal.page = some ⟨1, findPageSize simAccount⟩ ∧ w.locked = false ∧
      w.journal.nextPageId 1 = 2 ∧
    9000064 ≤ w.journal.frame ∧ PageUnit.Header (findPageSize simAccount) (files.bytes 1) := by
  have adm : ∀ op ∈ [WriteOp.writeRaw 3 101 data 4 5], op.Admissible simAccount := by
    intro op member
    rw [List.mem_singleton.mp member]
    exact ⟨by simp [WriteOp.frame, WriteOp.content, pageEndTag], by
      simp [WriteOp.frame, WriteOp.content, findPageSize, simAccount, JLocation.make,
        mebibyte, length]⟩
  obtain ⟨files, ran, layout⟩ := session_fresh simAccount 7 false 1 2 adm
  let op : WriteOp := .writeRaw 3 101 data 4 5
  have fits : Log.roomFor simAccount PagedLog.empty (op.frame simAccount.uid 7) := by
    change 0 + (40 + data.length) < pageRoom (findPageSize simAccount)
    simp [pageRoom, findPageSize, simAccount, JLocation.make, mebibyte, sizeofFrameHeader,
      sizeofPageHeader, length]
  have log :
      WriteOp.appendAll simAccount 7 PagedLog.empty [op] = ⟨[], [op.frame simAccount.uid 7]⟩ :=
    PagedLog.append_of_fits fits (op.marker simAccount.uid 7)
  rw [log] at ran layout
  refine ⟨_, files, ran, rfl, rfl, rfl, ?_, layout.current.header⟩
  change 9000064 ≤ 24 + span [op.frame simAccount.uid 7]
  have size : (op.frame simAccount.uid 7).size = 40 + data.length := rfl
  rw [span_cons, span_nil, size, length]

/-- The half full journal when no further page file can be opened. -/
theorem halfFull_fails {data : List UInt8} (length : data.length = 9000000) : ∃ w files e,
    session simAccount 7 false 1 2 [.writeRaw 3 101 data 4 5] JournalFiles.fresh = .ok w files ∧
    w.journal.page = some ⟨1, findPageSize simAccount⟩ ∧ w.locked = false ∧
      w.journal.nextPageId 1 ≠ 1 ∧
    sizeofFrameHeader + (9000000 : UInt32).toNat + sizeofFrameHeader ≤
      (PageUnit.getPageSize
        (({ files with mappable := fun _ => false } : JournalFiles).bytes 1)).toNat ∧
    PageUnit.addressBorder (({ files with mappable := fun _ => false } : JournalFiles).bytes 1) ≤
      w.journal.frame + sizeofFrameHeader + (9000000 : UInt32).toNat ∧
    PageUnit.load w.journal.location w.journal.destId (w.journal.nextPageId 1) w.journal.isWriting
      w.journal.isLazy { files with mappable := fun _ => false } =
        .error e { files with mappable := fun _ => false } := by
  obtain ⟨w, files, ran, page, idle, next, frame, header⟩ := halfFull length
  obtain ⟨border, size⟩ := addressBorder_eq simAccount header
  have total : findPageSize simAccount = 16777216 := by
    simp [findPageSize, simAccount, JLocation.make, mebibyte]
  let none : JournalFiles := { files with mappable := fun _ => false }
  have unmappable : none.mappable (w.journal.nextPageId 1) = false := rfl
  obtain ⟨e, failed⟩ := PageUnit.load_unmappable unmappable w.journal.location w.journal.destId
    w.journal.isWriting w.journal.isLazy
  refine ⟨w, files, e, ran, page, idle, by omega, ?_, ?_, failed⟩
  · change 40 + 9000000 + 40 ≤ (PageUnit.getPageSize (files.bytes 1)).toNat
    omega
  · change PageUnit.addressBorder (files.bytes 1) ≤ w.journal.frame + 40 + 9000000
    omega

theorem failed_change_halfFull : ∃ w files e s',
    session simAccount 7 false 1 2
      [.writeRaw 3 101 (List.replicate 9000000 1) 4 5] JournalFiles.fresh =
      .ok w files ∧
    openFrame 6 101 9000000 7 (w, { files with mappable := fun _ => false }) = .error e s' ∧
    ¬ LeavesUsable (w, { files with mappable := fun _ => false }) s' := by
  obtain ⟨w, files, e, ran, page, idle, other, admitted, full, failed⟩ :=
    halfFull_fails (List.length_replicate : (List.replicate 9000000 (1 : UInt8)).length = 9000000)
  obtain ⟨s', opened, unusable, _⟩ := failed_change page idle admitted full other failed 6 101 7
  exact ⟨w, files, e, s', ran, opened, unusable⟩

/-- The second frame of nine million bytes leaves the lock taken. -/
theorem second_frame_locks : ∃ w files e s',
    session simAccount 7 false 1 2
      [.writeRaw 3 101 (List.replicate 9000000 1) 4 5] JournalFiles.fresh =
      .ok w files ∧
    openFrame 6 101 9000000 7 (w, { files with mappable := fun _ => false }) = .error e s' ∧
    s'.1.locked = true ∧ ¬ LeavesUsable (w, { files with mappable := fun _ => false }) s' := by
  obtain ⟨w, files, e, ran, page, idle, other, admitted, full, failed⟩ :=
    halfFull_fails (List.length_replicate : (List.replicate 9000000 (1 : UInt8)).length = 9000000)
  refine ⟨w, files, e, _, ran, openFrame_stuck page idle admitted full other failed 6 101 7,
    rfl, ?_⟩
  intro usable
  exact absurd usable.unlocked (by simp)

end FailedChange

end Writer
end BTrader
