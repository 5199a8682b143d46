import BTrader.Journal.WriterSpec

/-! The states a writer can be in: with or without rollback, after calls that returned or
threw, on journals that others write to. Pages keep their header and the writer keeps a
page and a cursor behind that header. -/
namespace BTrader
open ByteMemory Infra Procedure

/-- Stores to addresses from `first` on. -/
def StoresFrom (first : Nat) (ops : List StoreOp) : Prop := ∀ op ∈ ops, ∀ m, first ≤ (op m).address

theorem StoresFrom.execAll {ops : List StoreOp} (from' : StoresFrom first ops) (m : Memory)
    (before : x < first) :
    m.execAll ops x = m x := by
  apply execAll_frame
  intro op member m touched
  have := from' op member m
  have := touched.1
  omega

theorem StoresFrom.append {ops more : List StoreOp} (from' : StoresFrom first ops)
    (from'' : StoresFrom first more) : StoresFrom first (ops ++ more) := by
  intro op member
  rcases List.mem_append.mp member with left | right
  · exact from' op left
  · exact from'' op right

theorem StoresFrom.mono {ops : List StoreOp} (from' : StoresFrom first ops) (le : first' ≤ first) :
    StoresFrom first' ops := fun op member m => le.trans (from' op member m)

theorem storesFrom_copyBytes (address : Nat) (bytes : List UInt8) :
    StoresFrom address (copyBytes address bytes) := by
  induction bytes generalizing address with
  | nil => simp [StoresFrom, copyBytes]
  | cons byte rest ih =>
    intro op member m
    rcases List.mem_cons.mp member with rfl | later
    · exact le_refl _
    · exact Nat.le_of_succ_le (ih (address + 1) op later m)

theorem storesFrom_openStores (frame : Nat) :
    StoresFrom frame (Writer.openStores frame t ty s d) := by
  intro op member m
  simp only [Writer.openStores, List.mem_cons, List.not_mem_nil, or_false] at member
  rcases member with rfl | rfl | rfl | rfl | rfl <;>
    simp [FrameUnit.setHeaderLength, FrameUnit.setTriggerTime, FrameUnit.setMsgType,
      FrameUnit.setSource, FrameUnit.setDest]

theorem storesFrom_pageEndStores (frame : Nat) :
    StoresFrom frame (Writer.pageEndStores frame t g s d) := by
  intro op member m
  simp only [Writer.pageEndStores, List.mem_cons, List.not_mem_nil, or_false] at member
  rcases member with rfl | rfl | rfl | rfl | rfl | rfl | rfl <;>
    simp [FrameUnit.setHeaderLength, FrameUnit.setTriggerTime, FrameUnit.setMsgType,
      FrameUnit.setSource, FrameUnit.setDest, FrameUnit.setGenTime, FrameUnit.setDataLength]

namespace PageUnit

/-- What a page keeps under every write: its header, and a last frame position behind it. -/
structure Sound (size : Nat) (m : Memory) : Prop where
  header : Header size m
  position : 24 ≤ lastFrameAddress m

variable {size : Nat} {m m' : Memory}

theorem Sound.congr (sound : Sound size m) (same : Set.EqOn m' m (Set.Ico 0 24)) :
    Sound size m' := by
  refine ⟨sound.header.congr fun x inside => same ⟨inside.1, by have := inside.2; omega⟩, ?_⟩
  have word : lastFramePosition m' = lastFramePosition m :=
    load64_congr fun x inside => same ⟨by omega, inside.2⟩
  rw [lastFrameAddress, word]
  exact sound.position

theorem Sound.execAll {ops : List StoreOp} (sound : Sound size m) (behind : StoresFrom 24 ops) :
    Sound size (m.execAll ops) :=
  sound.congr fun _ inside => behind.execAll m inside.2

/-- Moving the last frame position. -/
theorem Sound.setLast (sound : Sound size m) (lower : 24 ≤ target) (upper : target < 2 ^ 64) :
    Sound size (m.exec (setLastFramePosition (UInt64.ofNat target))) ∧
      lastFrameAddress (m.exec (setLastFramePosition (UInt64.ofNat target))) = target := by
  have word : lastFrameAddress (m.exec (setLastFramePosition (UInt64.ofNat target))) = target := by
    rw [lastFrameAddress, lastFramePosition, Memory.exec, setLastFramePosition, load64_write_word,
      UInt64.toNat_ofNat']
    exact Nat.mod_eq_of_lt upper
  refine ⟨⟨sound.header.congr fun x inside => ?_, by rw [word]; exact lower⟩, word⟩
  apply write_frame
  rintro ⟨above, _⟩
  simp only [setLastFramePosition, word64_address] at above
  have := inside.2
  omega

theorem initial_sound (size : Nat) : Sound size (initial size) := by
  have stored := initial_stored size
  refine ⟨stored.header, ?_⟩
  rw [stored.lastFrameAddress (by simp)]
  simp

/-- A page emptied for the next lap. -/
theorem Sound.emptied (sound : Sound size m) :
    Sound size (m.execAll PageUnit.reinitialize) ∧
      lastFrameAddress (m.execAll PageUnit.reinitialize) = 24 := by
  have length : (pageHeaderLength m).toUInt64 = UInt64.ofNat 24 := by
    rw [sound.header.pageHeaderLength]
    rfl
  let m₁ := m.exec (setLastFramePosition (UInt64.ofNat 24))
  obtain ⟨sound₁, last₁⟩ : Sound size m₁ ∧ lastFrameAddress m₁ = 24 :=
    sound.setLast (le_refl 24) (by omega)
  let body : List StoreOp := [fun _ =>
    ⟨(pageHeaderLength m₁).toNat,
      List.replicate ((getPageSize m₁).toNat - (pageHeaderLength m₁).toNat) 0⟩]
  have behind : StoresFrom 24 body := by
    intro op member m'
    rw [List.mem_singleton.mp member]
    change 24 ≤ (pageHeaderLength m₁).toNat
    rw [sound₁.header.pageHeaderLength]
    exact le_refl 24
  have emptied : m.execAll PageUnit.reinitialize = m₁.execAll body := by
    have first : m.exec (fun m => .word64 16 (pageHeaderLength m).toUInt64) = m₁ := by
      simp only [Memory.exec, length, m₁, setLastFramePosition]
    rw [PageUnit.reinitialize, execAll_cons, first]
    rfl
  rw [emptied]
  refine ⟨sound₁.execAll behind, ?_⟩
  rw [← last₁, lastFrameAddress, lastFrameAddress]
  exact congrArg UInt64.toNat (load64_congr fun x inside => behind.execAll m₁ inside.2)

end PageUnit

namespace Infra.JournalFiles

/-- Every page file has its full size and a sound page in it. -/
structure Sound (location : JLocation) (files : JournalFiles) : Prop where
  size : ∀ p ∈ files.ids, (files.file p).size = findPageSize location
  page : ∀ p ∈ files.ids, PageUnit.Sound (findPageSize location) (files.bytes p)

/-- No last frame position has left its page. -/
def Inside (location : JLocation) (files : JournalFiles) : Prop :=
  ∀ p ∈ files.ids, PageUnit.lastFrameAddress (files.bytes p) ≤ findPageSize location

/-- What happens to the files when a page is loaded, and loaded again for the next lap. -/
structure Extends (location : JLocation) (files files' : JournalFiles) : Prop where
  sound : Sound location files'
  ids : files.ids ⊆ files'.ids
  mappable : files'.mappable = files.mappable
  inside : Inside location files → Inside location files'

variable {location : JLocation} {files files' : JournalFiles} {p : Nat}

theorem Extends.refl (sound : Sound location files) : Extends location files files :=
  ⟨sound, List.Subset.refl _, rfl, id⟩

theorem Extends.trans (first : Extends location files files')
    (second : Extends location files' files'') :
    Extends location files files'' :=
  ⟨second.sound, fun _ member => second.ids (first.ids member),
    second.mappable.trans first.mappable, fun inside => second.inside (first.inside inside)⟩

theorem Sound.fresh (location : JLocation) : Sound location JournalFiles.fresh :=
  ⟨by simp [JournalFiles.fresh], by simp [JournalFiles.fresh]⟩

theorem Sound.store (sound : Sound location files)
    (page : PageUnit.Sound (findPageSize location) ((files.bytes p).execAll ops)) :
    Sound location (files.store p ops) := by
  constructor
  · intro q member
    rw [store_size]
    exact sound.size q member
  · intro q member
    by_cases same : q = p
    · subst same
      rw [store_bytes_same]
      exact page
    · rw [store_bytes_other files same]
      exact sound.page q member

theorem Inside.store (inside : Inside location files)
    (page : PageUnit.lastFrameAddress ((files.bytes p).execAll ops) ≤ findPageSize location) :
    Inside location (files.store p ops) := by
  intro q member
  by_cases same : q = p
  · subst same
    rw [store_bytes_same]
    exact page
  · rw [store_bytes_other files same]
    exact inside q member

theorem Extends.addPage (sound : Sound location files) (absent : p ∉ files.ids) :
    Extends location files (files.addPage p (findPageSize location)) := by
  have other {q : Nat} (member : q ∈ files.ids) : q ≠ p := by
    rintro rfl
    exact absent member
  have split {q : Nat} (member : q ∈ (files.addPage p (findPageSize location)).ids) :
      q ∈ files.ids ∨ q = p := by simpa [JournalFiles.addPage] using member
  refine ⟨⟨?_, ?_⟩, ?_, rfl, ?_⟩
  · intro q member
    rcases split member with old | rfl
    · simpa [JournalFiles.addPage, Function.update_of_ne (other old)] using sound.size q old
    · simp [JournalFiles.addPage]
  · intro q member
    rcases split member with old | rfl
    · rw [addPage_bytes_other files (other old)]
      exact sound.page q old
    · rw [addPage_bytes_same]
      exact PageUnit.initial_sound _
  · intro q member
    simp [JournalFiles.addPage, member]
  · intro inside q member
    have bounds := findPageSize_bounds location
    have mib : mebibyte = 1048576 := rfl
    rcases split member with old | rfl
    · rw [addPage_bytes_other files (other old)]
      exact inside q old
    · rw [addPage_bytes_same, (PageUnit.initial_stored _).lastFrameAddress (by simp)]
      simp
      omega

/-- Stretching a file that has its size only writes the last byte. -/
theorem Extends.stretch (sound : Sound location files) (present : p ∈ files.ids) :
    Extends location files (files.stretch p (findPageSize location)) := by
  have bounds := findPageSize_bounds location
  have mib : mebibyte = 1048576 := rfl
  have size := sound.size p present
  let last : List StoreOp := [fun _ => ⟨findPageSize location - 1, [0]⟩]
  have behind : StoresFrom 24 last := by
    intro op member m
    rw [List.mem_singleton.mp member]
    change 24 ≤ findPageSize location - 1
    omega
  have same : files.stretch p (findPageSize location) = files.store p last := by
    have page : (⟨max (files.file p).size (findPageSize location),
        (files.bytes p).write ⟨findPageSize location - 1, [0]⟩⟩ : PageFile) =
        { files.file p with bytes := (files.bytes p).write ⟨findPageSize location - 1, [0]⟩ } := by
      rw [size, Nat.max_self, ← size]
    rw [JournalFiles.stretch, page]
    rfl
  have position : PageUnit.lastFrameAddress ((files.bytes p).execAll last) =
      PageUnit.lastFrameAddress (files.bytes p) :=
    congrArg UInt64.toNat (load64_congr fun x inside => behind.execAll _ inside.2)
  rw [same]
  refine ⟨sound.store ((sound.page p present).execAll behind), List.Subset.refl _, rfl, ?_⟩
  intro inside
  exact inside.store (by rw [position]; exact inside p present)

end Infra.JournalFiles

namespace PageUnit
open JournalFiles (Extends)

variable {location : JLocation} {files : JournalFiles} {p : Nat}

/-- The header checks of a load pass on a sound page. -/
theorem load_checked
    (mapped : loadMmapBuffer (getPagePath location destId p) p (findPageSize location)
      isWriting isLazy files = .ok () files') (sound : files'.Sound location)
        (present : p ∈ files'.ids) :
    load location destId p isWriting isLazy files = .ok ⟨p, findPageSize location⟩ files' := by
  have bounds := findPageSize_bounds location
  have mib : mebibyte = 1048576 := rfl
  have page := sound.page p present
  have nonempty : (files'.file p).size ≠ 0 := by
    rw [sound.size p present]
    omega
  have valid : lastFramePosition (files'.bytes p) ≠ 0 := by
    intro zero
    have := page.position
    rw [lastFrameAddress, zero] at this
    exact absurd this (by decide)
  rw [load, bind_ok mapped]
  simp [nonempty, valid, page.header.version, page.header.pageHeaderLength, page.header.getPageSize]

theorem load_sound (sound : files.Sound location) (mappable : files.mappable p = true)
    (writable : master isWriting isLazy = true) (destId : UInt32) :
    ∃ files', load location destId p isWriting isLazy files =
      .ok ⟨p, findPageSize location⟩ files' ∧
      Extends location files files' ∧ p ∈ files'.ids := by
  by_cases present : p ∈ files.ids
  · have extended := Extends.stretch sound present
    refine ⟨_, load_checked ?_ extended.sound present, extended, present⟩
    have created : files.create p = files := if_pos present
    simp only [loadMmapBuffer, bind_apply, get_apply, mappable, if_true, created,
      writable, set_apply]
  · refine ⟨_, load_new present mappable writable location destId, .addPage sound present, ?_⟩
    simp [JournalFiles.addPage]

theorem load_unmappable (unmappable : files.mappable p = false) (location : JLocation)
    (destId : UInt32) (isWriting isLazy : Bool) :
    ∃ e, load location destId p isWriting isLazy files = .error e files := by
  refine ⟨_, bind_error
    (e := .runtimeError ("failed to open file for page " ++ getPagePath location destId p)) ?_ _⟩
  simp [loadMmapBuffer, unmappable]

/-- A lazy load for reading leaves the files of existing pages alone. -/
theorem load_reading (sound : files.Sound location) (present : p ∈ files.ids) (destId : UInt32) :
    after (load location destId p false true) files = files := by
  cases mappable : files.mappable p with
  | true =>
    have created : files.create p = files := if_pos present
    have mapped :
        loadMmapBuffer (getPagePath location destId p) p (findPageSize location) false true
        files = .ok () files := by
      simp [loadMmapBuffer, mappable, created, master]
    rw [after, load_checked mapped sound present]
  | false =>
    obtain ⟨e, failed⟩ := load_unmappable mappable location destId false true
    rw [after, failed]

end PageUnit

namespace Journal
open JournalFiles (Extends Inside)

/-- A journal object for writing whose page, if it has one, is a page of the files. -/
structure Based (location : JLocation) (s : Journal × JournalFiles) : Prop where
  here : s.1.location = location
  isWriting : s.1.isWriting = true
  page : ∀ q, s.1.page = some q → q.pageId ∈ s.2.ids ∧ q.size = findPageSize location
  sound : s.2.Sound location

/-- It has a page, and its cursor is behind the page header. -/
structure Seated (location : JLocation) (s : Journal × JournalFiles) :
    Prop extends Based location s where
  opened : s.1.page ≠ none
  frame : 24 ≤ s.1.frame

variable {location : JLocation} {j : Journal} {files : JournalFiles} {k p : Nat}

theorem Seated.current (seated : Seated location (j, files)) :
    ∃ k ∈ files.ids, j.page = some ⟨k, findPageSize location⟩ := by
  obtain ⟨⟨k, size⟩, page⟩ := Option.ne_none_iff_exists'.mp seated.opened
  obtain ⟨present, same⟩ := seated.page _ page
  exact ⟨k, present, by rw [page, ← same]⟩

/-- The page a page change goes to. -/
def nextPageId (j : Journal) (k : Nat) : Nat :=
  if j.pageRollbackSize = 0 ∨ k < j.pageRollbackSize then k + 1 else 1

/-- A page change finds its page: the page can be mapped, or it is the current one. -/
def CanChange (files : JournalFiles) (j : Journal) (k : Nat) : Prop :=
  files.mappable (j.nextPageId k) = true ∨ j.nextPageId k = k

/-- The journal object at the beginning of that page. -/
def onPage (j : Journal) (p : Nat) : Journal :=
  { j with page := some ⟨p, findPageSize j.location⟩, frame := 24, pageFrameNb := 0 }

theorem loadPage_ok (based : Based location (j, files))
    (loadable : files.mappable p = true ∨ j.page.map PageUnit.pageId = some p) :
    ∃ files', loadPage p (j, files) = .ok () (j.onPage p, files') ∧ Extends location files files' ∧
      p ∈ files'.ids := by
  obtain rfl : j.location = location := based.here
  have first {files' : JournalFiles} (sound : files'.Sound j.location) (present : p ∈ files'.ids) :
      PageUnit.firstFrameAddress (files'.bytes p) = 24 :=
        (sound.page p present).header.firstFrameAddress
  by_cases same : j.page.map PageUnit.pageId = some p
  · obtain ⟨q, page, rfl⟩ := Option.map_eq_some_iff.mp same
    obtain ⟨present, size⟩ := based.page q page
    refine ⟨files, ?_, .refl based.sound, present⟩
    have whole : j.page = some ⟨q.pageId, findPageSize j.location⟩ := by rw [page, ← size]
    simp only [loadPage, bind_apply, get_apply, ne_eq, same, not_true_eq_false, if_false,
      modify_apply, first based.sound present, onPage, ← whole]
  · have writable : master j.isWriting j.isLazy = true := by
      rw [based.isWriting]
      rfl
    obtain ⟨files', loaded, extended, present⟩ :=
      PageUnit.load_sound based.sound (loadable.resolve_right same) writable j.destId
    refine ⟨files', ?_, extended, present⟩
    have loaded := onSnd_ok (s := j) loaded
    simp only [loadPage, bind_apply, get_apply, ne_eq, same, not_false_eq_true, if_true, loaded,
      modify_apply, first extended.sound present, onPage]

theorem loadPage_unmappable (unmappable : files.mappable p = false)
    (other : j.page.map PageUnit.pageId ≠ some p) :
      ∃ e, loadPage p (j, files) = .error e (j, files) := by
  obtain ⟨e, failed⟩ := PageUnit.load_unmappable unmappable j.location j.destId j.isWriting j.isLazy
  refine ⟨e, ?_⟩
  have failed := onSnd_error (s := j) failed
  simp only [loadPage, bind_apply, get_apply, other, ne_eq, not_false_eq_true, if_true, failed]

theorem onPage_seated (based : Based location (j, files)) (extended : Extends location files files')
    (present : p ∈ files'.ids) : Seated location (j.onPage p, files') where
  here := based.here
  isWriting := based.isWriting
  page := by
    rintro q same
    obtain rfl := Option.some.inj same
    exact ⟨present, by rw [show j.location = location from based.here]⟩
  sound := extended.sound
  opened := by simp [onPage]
  frame := le_refl 24

/-- Emptying the page keeps everything but its frames. -/
theorem reinitializePage_ok (seated : Seated location (j, files))
    (page : j.page = some ⟨k, findPageSize location⟩) :
    ∃ files', reinitializePage (j, files) = .ok () ({ j with pageIdInRollback := k }, files') ∧
      Extends location files files' ∧
        Seated location ({ j with pageIdInRollback := k }, files') := by
  have present : k ∈ files.ids := (seated.page _ page).1
  obtain ⟨sound, last⟩ := (seated.sound.page k present).emptied
  have bounds := findPageSize_bounds location
  have mib : mebibyte = 1048576 := rfl
  have extended : Extends location files (files.store k PageUnit.reinitialize) := by
    refine ⟨seated.sound.store sound, List.Subset.refl _, rfl, ?_⟩
    intro inside
    exact inside.store (by rw [last]; omega)
  refine ⟨_, ?_, extended, ?_⟩
  · simp [reinitializePage, currentPage, page, store]
  · exact ⟨⟨seated.here, seated.isWriting, seated.page, extended.sound⟩,
      seated.opened, seated.frame⟩

theorem loadNextPage_ok (seated : Seated location (j, files))
    (page : j.page = some ⟨k, findPageSize location⟩) (can : CanChange files j k) :
    ∃ j' files', loadNextPage (j, files) = .ok () (j', files') ∧ Extends location files files' ∧
      Seated location (j', files') ∧ j'.page = some ⟨j.nextPageId k, findPageSize location⟩ ∧
      j'.frame = 24 ∧ j'.destId = j.destId := by
  obtain ⟨files₁, loaded, extended, present⟩ := loadPage_ok seated.toBased
    (can.imp_right fun same => by rw [page, same]; rfl)
  have seated₁ := onPage_seated seated.toBased extended present
  have page₁ : (j.onPage (j.nextPageId k)).page = some ⟨j.nextPageId k, findPageSize location⟩ := by
    simp [onPage, show j.location = location from seated.here]
  obtain ⟨files₂, emptied, extended', seated₂⟩ := reinitializePage_ok seated₁ page₁
  have writing : j.isWriting = true := seated.isWriting
  by_cases forward : j.pageRollbackSize = 0 ∨ k < j.pageRollbackSize
  · have target : j.nextPageId k = k + 1 := if_pos forward
    rw [target] at loaded emptied page₁ seated₁ seated₂ ⊢
    by_cases lap : j.pageIdInRollback = k
    · refine ⟨_, files₂, ?_, extended.trans extended', seated₂, page₁, rfl, rfl⟩
      simp [loadNextPage, currentPage, page, forward, loaded, writing, lap, emptied]
    · refine ⟨_, files₁, ?_, extended, seated₁, page₁, rfl, rfl⟩
      simp [loadNextPage, currentPage, page, forward, loaded, lap]
  · have target : j.nextPageId k = 1 := if_neg forward
    rw [target] at loaded emptied page₁ seated₁ seated₂ ⊢
    refine ⟨_, files₂, ?_, extended.trans extended', seated₂, page₁, rfl, rfl⟩
    simp [loadNextPage, currentPage, page, forward, loaded, writing, emptied]

theorem loadNextPage_error (page : j.page = some ⟨k, size⟩)
    (failed : loadPage (j.nextPageId k) (j, files) = .error e (j', files')) :
    loadNextPage (j, files) = .error e (j', files') := by
  by_cases forward : j.pageRollbackSize = 0 ∨ k < j.pageRollbackSize
  · rw [show j.nextPageId k = k + 1 from if_pos forward] at failed
    simp [loadNextPage, currentPage, page, forward, failed]
  · rw [show j.nextPageId k = 1 from if_neg forward] at failed
    simp [loadNextPage, currentPage, page, forward, failed]

theorem loadNextPage_fails (page : j.page = some ⟨k, size⟩) (cannot : ¬ CanChange files j k) :
    ∃ e, loadNextPage (j, files) = .error e (j, files) := by
  obtain ⟨unmappable, other⟩ := not_or.mp cannot
  rw [Bool.not_eq_true] at unmappable
  have elsewhere : j.page.map PageUnit.pageId ≠ some (j.nextPageId k) := by
    simpa [page] using Ne.symm other
  obtain ⟨e, failed⟩ := loadPage_unmappable unmappable elsewhere
  exact ⟨e, loadNextPage_error page failed⟩

section Cursor

theorem keeps_currentPage {P : Journal × JournalFiles → Prop} : Keeps P currentPage := by
  rintro ⟨j, files⟩ holds
  cases page : j.page with
  | none => simpa [after, currentPage, page] using holds
  | some q => simpa [after, currentPage, page] using holds

theorem keeps_loadNextPage : Keeps (Seated location) loadNextPage := by
  rintro ⟨j, files⟩ seated
  obtain ⟨k, _, page⟩ := seated.current
  by_cases can : CanChange files j k
  · obtain ⟨j', files', loaded, _, seated', _⟩ := loadNextPage_ok seated page can
    rwa [after, loaded]
  · obtain ⟨e, failed⟩ := loadNextPage_fails page can
    rwa [after, failed]

theorem keeps_next : Keeps (Seated location) next := by
  rintro ⟨j, files⟩ seated
  obtain ⟨k, _, page⟩ := seated.current
  by_cases ended : FrameUnit.msgType (files.bytes k) j.frame = pageEndTag
  · have same : next (j, files) = loadNextPage (j, files) := by simp [next, page, ended]
    rw [after_congr same]
    exact keeps_loadNextPage _ seated
  · have moved : next (j, files) = .ok () ({ j with
        frame := FrameUnit.moveToNext (files.bytes k) j.frame, pageFrameNb := j.pageFrameNb + 1 },
          files) := by
      simp [next, page, ended]
    rw [after, moved]
    exact ⟨⟨seated.here, seated.isWriting, seated.page, seated.sound⟩, seated.opened,
      seated.frame.trans (Nat.le_add_right _ _)⟩

/-- The two loops of a seek keep what the cursor movements keep. -/
theorem keeps_skipFullPages {P : Journal × JournalFiles → Prop} (moves : Keeps P loadNextPage)
    (time : Int64) (fuel : Nat) : Keeps P (skipFullPages time fuel) := by
  induction fuel with
  | zero => exact keeps_throw _
  | succ fuel ih =>
    exact keeps_bind keeps_currentPage fun _ => keeps_bind keeps_get fun _ =>
      keeps_branch _ (keeps_bind moves fun _ => ih) (keeps_pure _)

theorem keeps_skipFrames {P : Journal × JournalFiles → Prop} (moves : Keeps P next) (time : Int64)
    (fuel : Nat) : Keeps P (skipFrames time fuel) := by
  induction fuel with
  | zero => exact keeps_throw _
  | succ fuel ih =>
    exact keeps_bind keeps_currentPage fun _ => keeps_bind keeps_get fun _ =>
      keeps_branch _ (keeps_bind moves fun _ => ih) (keeps_pure _)

/-- The search for the page of a time only reads. -/
theorem findBackwards_files {pageIds : List Nat} (sound : files.Sound location)
    (present : ∀ p ∈ pageIds, p ∈ files.ids) (destId : UInt32) (time : Int64) :
    after (PageUnit.findBackwards location destId time pageIds) files = files := by
  induction pageIds with
  | nil => rfl
  | cons p rest ih =>
    have same := PageUnit.load_reading sound (present p List.mem_cons_self) destId
    have later := ih fun q member => present q (List.mem_cons_of_mem _ member)
    cases loaded : PageUnit.load location destId p false true files with
    | error e files' =>
      rw [after, loaded] at same
      simpa [after, PageUnit.findBackwards, loaded] using same
    | ok page files' =>
      rw [after, loaded] at same
      obtain rfl : files' = files := same
      by_cases before : PageUnit.beginTime (files'.bytes p) < time
      · simp [after, PageUnit.findBackwards, loaded, before]
      · simpa [after, PageUnit.findBackwards, loaded, before] using later

theorem findPageId_files {destId : UInt32} {time : Int64} (sound : files.Sound location)
    (found : PageUnit.findPageId location destId time files = .ok p files') : files' = files := by
  cases listed : PageUnit.listPageId files with
  | nil =>
    have empty : PageUnit.findPageId location destId time files = .ok 1 files := by
      simp [PageUnit.findPageId, listed]
    rw [empty, EStateM.Result.ok.injEq] at found
    exact found.2.symm
  | cons front rest =>
    have present : ∀ p ∈ (front :: rest).reverse, p ∈ files.ids := by
      intro p member
      have listed' : p ∈ PageUnit.listPageId files := by
        rw [listed]
        exact List.mem_reverse.mp member
      exact List.mem_mergeSort.mp listed'
    have same := findBackwards_files sound present destId time
    by_cases zero : time = 0
    · have first : PageUnit.findPageId location destId time files = .ok front files := by
        simp [PageUnit.findPageId, listed, zero]
      rw [first, EStateM.Result.ok.injEq] at found
      exact found.2.symm
    · have searched : PageUnit.findPageId location destId time files =
          (PageUnit.findBackwards location destId time (front :: rest).reverse >>= fun found =>
            pure (found.getD front)) files := by
        simp only [PageUnit.findPageId, bind_apply, get_apply, listed, zero, if_false]
      rw [searched] at found
      obtain ⟨_, files₁, back, done⟩ := of_bind_ok found
      rw [after, back] at same
      rw [pure_apply, EStateM.Result.ok.injEq] at done
      exact done.2.symm.trans same

/-- A journal object is seated once it has sought a time. -/
theorem seekToTime_seated {destId : UInt32} {isLazy : Bool} {pageRollbackSize : Nat} {time : Int64}
    (sound : files.Sound location)
    (ran : seekToTime time (Journal.make location destId true isLazy pageRollbackSize, files) =
      .ok () (j, files')) : Seated location (j, files') := by
  have based : Based location (Journal.make location destId true isLazy pageRollbackSize, files) :=
    ⟨rfl, rfl, by simp [Journal.make], sound⟩
  obtain ⟨_, _, start, ran₁⟩ := of_bind_ok ran
  obtain ⟨rfl, rfl⟩ := EStateM.Result.ok.inj start
  obtain ⟨p, ⟨j₁, files₁⟩, found, ran₂⟩ := of_bind_ok ran₁
  obtain ⟨rfl, searched⟩ := of_onSnd_ok found
  obtain rfl : files₁ = files := findPageId_files sound searched
  obtain ⟨_, ⟨j₂, files₂⟩, loaded, ran₃⟩ := of_bind_ok ran₂
  obtain ⟨_, _, read, ran₄⟩ := of_bind_ok ran₃
  obtain ⟨rfl, rfl⟩ := EStateM.Result.ok.inj read
  obtain ⟨_, ⟨j₃, files₃⟩, skipped, ran₅⟩ := of_bind_ok ran₄
  have seated₂ : Seated location (j₂, files₂) := by
    by_cases mappable : files₁.mappable p = true
    · obtain ⟨files₂', loaded', extended, present⟩ := loadPage_ok based (Or.inl mappable)
      rw [loaded', EStateM.Result.ok.injEq, Prod.mk.injEq] at loaded
      obtain ⟨_, rfl, rfl⟩ := loaded
      exact onPage_seated based extended present
    · rw [Bool.not_eq_true] at mappable
      obtain ⟨e, failed⟩ := loadPage_unmappable
        (j := Journal.make location destId true isLazy pageRollbackSize) mappable
          (by simp [Journal.make])
      rw [failed] at loaded
      contradiction
  exact (keeps_skipFrames keeps_next _ _).ok
    ((keeps_skipFullPages keeps_loadNextPage _ _).ok seated₂ skipped) ran₅

end Cursor

end Journal

end BTrader
