import BTrader.Lib.Interference
import BTrader.Journal.PageWalk
import BTrader.Journal.Seek

/-! A reader joins a journal while the writer creates a page of it. Creating a page takes
seven steps that others can see; finding the page of a time and loading it takes a listing
and, for every page, a mapping and one reading after another. -/
namespace BTrader
open ByteMemory Infra Procedure Interleaving

abbrev JoinM := Prog Fault JournalFiles Unit

namespace PageUnit

/-- What a master mapping of a new page does: `open` creates the file, `write` stretches it,
and the header is stored word by word, the last frame position last. -/
def creation (pageId size : Nat) : List (JournalFiles → JournalFiles) :=
  [fun files => files.create pageId, fun files => files.stretch pageId size] ++
    (initHeader size).map fun op files => files.store pageId [op]

/-- The first look at a mapping for reading. There is no byte to read in an empty file, and a
header that is not there yet is stored, which only a master mapping allows. -/
def checkPosition (isLazy : Bool) (pageId pageSize : Nat) : EStateM Fault JournalFiles Unit := do
  if ((← get).file pageId).size = 0 then throw .beyondFile
  if lastFramePosition ((← get).bytes pageId) = 0 then
    if master false isLazy then modify (·.store pageId (initHeader pageSize))
    else throw .readOnlyStore

/-- `load` of a mapping for reading. -/
def loadSteps (location : JLocation) (destId : UInt32) (isLazy : Bool) (pageId : Nat) :
    JoinM PageUnit := do
  let pageSize := findPageSize location
  let path := getPagePath location destId pageId
  Prog.lift (loadMmapBuffer path pageId pageSize false isLazy)
  Prog.lift (checkPosition isLazy pageId pageSize)
  Prog.lift (do
    let m := (← get).bytes pageId
    if version m ≠ journalVersion then
      throw (.journalError (path ++ " version mismatch, required " ++ toString journalVersion ++
        ", found " ++ toString (version m))))
  Prog.lift (do
    let m := (← get).bytes pageId
    if pageHeaderLength m ≠ UInt32.ofNat sizeofPageHeader then
      throw (.journalError (path ++ " header length mismatch, required " ++
        toString sizeofPageHeader ++
        ", found " ++ toString (pageHeaderLength m))))
  Prog.lift (do
    let m := (← get).bytes pageId
    if getPageSize m ≠ UInt32.ofNat pageSize then
      throw (.journalError ("page size mismatch, required " ++ toString pageSize ++ ", found " ++
        toString (getPageSize m) ++ ", location " ++ location.uname ++ ", path " ++ path ++
        ", dest_id " ++ toString destId ++ ", page_id " ++ toString pageId)))
  return ⟨pageId, pageSize⟩

def findBackwardsSteps (location : JLocation) (destId : UInt32) (time : Int64) :
    List Nat → JoinM (Option Nat)
  | [] => return none
  | pageId :: rest => do
    let _ ← loadSteps location destId true pageId
    let begin' ← Prog.lift (do return beginTime ((← get).bytes pageId))
    if begin' < time then return some pageId
    else findBackwardsSteps location destId time rest

/-- What `findPageId` does with the listed pages. -/
def searchSteps (location : JLocation) (destId : UInt32) (time : Int64) : List Nat → JoinM Nat
  | [] => return 1
  | front :: rest => do
    if time = 0 then return front
    let found ← findBackwardsSteps location destId time (front :: rest).reverse
    return found.getD front

def findPageIdSteps (location : JLocation) (destId : UInt32) (time : Int64) : JoinM Nat := do
  let ids ← Prog.lift (do return listPageId (← get))
  searchSteps location destId time ids

/-- The page a reader that seeks to `time` begins on. The search maps lazily, the reader as it was
made to. -/
def joinSteps (location : JLocation) (destId : UInt32) (isLazy : Bool) (time : Int64) :
    JoinM PageUnit := do
  let pageId ← findPageIdSteps location destId time
  loadSteps location destId isLazy pageId

/-! Alone the steps are the functions they are the steps of. -/

theorem loadSteps_alone (location : JLocation) (destId : UInt32) (isLazy : Bool) (pageId : Nat) :
    (loadSteps location destId isLazy pageId).alone () =
      load location destId pageId false isLazy := by
  funext files
  rw [load]
  simp only [loadSteps, checkPosition, Prog.alone_lift_bind, Prog.alone_pure, bind_apply]
  cases loadMmapBuffer (getPagePath location destId pageId) pageId
    (findPageSize location) false isLazy files with
  | error e files' => rfl
  | ok u files' =>
    simp only [bind_apply, get_apply, branch_apply]
    by_cases empty : (files'.file pageId).size = 0
    · simp [empty]
    by_cases unset : lastFramePosition (files'.bytes pageId) = 0
    · cases writable : master false isLazy with
      | false => simp [empty, unset]
      | true =>
        simp only [empty, unset, if_true, if_false, modify_apply]
        generalize files'.store pageId (initHeader (findPageSize location)) = written
        split_ifs <;> simp [*]
    · simp only [empty, unset, if_false]
      split_ifs <;> simp [*]

theorem findBackwardsSteps_alone (location : JLocation) (destId : UInt32) (time : Int64)
    (pageIds : List Nat) :
    (findBackwardsSteps location destId time pageIds).alone () =
      findBackwards location destId time pageIds := by
  induction pageIds with
  | nil => rfl
  | cons pageId rest ih =>
    funext files
    simp only [findBackwardsSteps, findBackwards, Prog.alone_bind, loadSteps_alone, bind_apply]
    cases load location destId pageId false true files with
    | error e files' => rfl
    | ok page files' =>
      by_cases before : beginTime (files'.bytes pageId) < time
      · simp [Prog.lift, Prog.alone, before]
      · simp [Prog.lift, Prog.alone, before, ih]

theorem findPageIdSteps_alone (location : JLocation) (destId : UInt32) (time : Int64) :
    (findPageIdSteps location destId time).alone () = findPageId location destId time := by
  funext files
  simp only [findPageIdSteps, findPageId, Prog.alone_lift_bind, bind_apply, get_apply, pure_apply]
  cases listPageId files with
  | nil => rfl
  | cons front rest =>
    by_cases zero : time = 0
    · simp [searchSteps, zero]
    · simp [searchSteps, zero, Prog.alone_bind, findBackwardsSteps_alone]

/-! How far a creation is. -/

section Stages

variable {files : JournalFiles} {p size : Nat}

/-- The file of the new page with its size and without a header. -/
def stretched (files : JournalFiles) (p size : Nat) : JournalFiles :=
  { files with ids := files.ids ++ [p], file := Function.update files.file p ⟨size, 0⟩ }

theorem stretch_create (absent : p ∉ files.ids) (size : Nat) :
    (files.create p).stretch p size = stretched files p size := by
  have zeros : (0 : Memory).write ⟨size - 1, [0]⟩ = 0 := by
    funext x
    by_cases touched : (⟨size - 1, [0]⟩ : Store).Touches x
    · have last : x = size - 1 := by
        have := touched.1
        have := touched.2
        simp only [List.length_singleton] at *
        omega
      subst last
      simp [Memory.write]
    · exact write_frame _ _ touched
  rw [JournalFiles.create, if_neg absent]
  simp only [JournalFiles.stretch, JournalFiles.bytes, Function.update_self,
    Function.update_idem, zeros, Nat.zero_max, stretched]

theorem advance_stores (ops : List StoreOp) (files : JournalFiles) :
    Prog.advance (ops.map fun op files => files.store p [op]) files = files.store p ops := by
  induction ops generalizing files with
  | nil => simp [JournalFiles.store, JournalFiles.modify, JournalFiles.bytes]
  | cons op ops ih =>
    have split : files.store p (op :: ops) = (files.store p [op]).store p ops :=
      JournalFiles.store_append files [op] ops
    rw [split, ← ih]
    rfl

theorem advance_creation (absent : p ∉ files.ids) (size n : Nat) :
    Prog.advance ((creation p size).take (n + 2)) files =
      (stretched files p size).store p ((initHeader size).take n) := by
  rw [← advance_stores, ← stretch_create absent, List.map_take]
  rfl

/-- Only the last store of the header moves the last frame position. -/
theorem unset_before (few : n ≤ 4) :
    lastFramePosition (((stretched files p size).store p ((initHeader size).take n)).bytes p) =
      0 := by
  have blank : (stretched files p size).bytes p = 0 := by simp [stretched, JournalFiles.bytes]
  rw [JournalFiles.store_bytes_same, blank]
  apply load64_zero
  intro x inside
  rw [execAll_frame]
  intro op member m
  have early : op ∈ (initHeader size).take 4 := List.take_subset_take_left _ few member
  simp only [initHeader, List.take_succ_cons, List.take_zero, List.mem_cons, List.not_mem_nil,
    or_false] at early
  have := inside.1
  rcases early with rfl | rfl | rfl | rfl <;> simp [Store.Touches] <;> omega

theorem advance_created (absent : p ∉ files.ids) (size : Nat) :
    Prog.advance (creation p size) files = files.addPage p size := by
  have whole : creation p size = (creation p size).take (5 + 2) := rfl
  rw [whole, advance_creation absent]
  have all : (initHeader size).take 5 = initHeader size := rfl
  simp [all, JournalFiles.store, JournalFiles.modify, JournalFiles.bytes, JournalFiles.addPage,
    initial, stretched]

end Stages

/-- The writer's load of a page that is not there is its creation. -/
theorem load_creation {files : JournalFiles} (absent : p ∉ files.ids)
    (mappable : files.mappable p = true) (location : JLocation) (destId : UInt32) (isLazy : Bool) :
    load location destId p true isLazy files =
      .ok ⟨p, findPageSize location⟩ (Prog.advance (creation p (findPageSize location)) files) := by
  rw [load_new absent mappable rfl, advance_created absent]

/-- The files that were there are as they were. -/
structure Kept (files s : JournalFiles) : Prop where
  ids : ∀ p ∈ files.ids, p ∈ s.ids
  file : ∀ p ∈ files.ids, s.file p = files.file p
  mappable : s.mappable = files.mappable

theorem creation_kept {files s : JournalFiles} {size : Nat} (absent : p ∉ files.ids)
    (kept : Kept files s) (member : step ∈ creation p size) : Kept files (step s) := by
  have other {q : Nat} (present : q ∈ files.ids) : q ≠ p := by
    rintro rfl
    exact absent present
  rcases List.mem_append.mp member with first | later
  · rcases List.mem_cons.mp first with rfl | second
    · refine ⟨fun q present => ?_, fun q present => ?_, ?_⟩ <;> simp only [JournalFiles.create]
        <;> split
      · exact kept.ids q present
      · exact List.mem_append_left _ (kept.ids q present)
      · exact kept.file q present
      · exact (Function.update_of_ne (other present) _ _).trans (kept.file q present)
      · exact kept.mappable
      · exact kept.mappable
    · obtain rfl := List.mem_singleton.mp second
      exact ⟨kept.ids, fun q present =>
        (Function.update_of_ne (other present) _ _).trans (kept.file q present), kept.mappable⟩
  · obtain ⟨op, _, rfl⟩ := List.mem_map.mp later
    exact ⟨kept.ids, fun q present =>
      (Function.update_of_ne (other present) _ _).trans (kept.file q present), kept.mappable⟩

section Steady

variable {location : JLocation} {files : JournalFiles} {log : Log} {p : Nat}

/-- Loading a page that is complete takes notice of nothing else. -/
theorem loadSteps_steady (layout : Layout location files log) (lower : 1 ≤ p)
    (upper : p ≤ log.lastPageId) (destId : UInt32) (isLazy : Bool) :
    (loadSteps location destId isLazy p).Steady () (Kept files) ⟨p, findPageSize location⟩ := by
  have bounds := findPageSize_bounds location
  have mib : mebibyte = 1048576 := rfl
  have present := layout.mem_ids.mpr ⟨lower, upper⟩
  obtain ⟨fs, page, stored⟩ := layout.page_of_id lower upper
  have inside := layout.page_inside page
  have valid := stored.lastFramePosition_ne_zero (by omega)
  have same {s : JournalFiles} (kept : Kept files s) : s.bytes p = files.bytes p := by
    rw [JournalFiles.bytes, JournalFiles.bytes, kept.file p present]
  refine Prog.Steady.check (fun s kept => ?_) (.check (fun s kept => ?_) (.check (fun s kept => ?_)
    (.check (fun s kept => ?_) (.check (fun s kept => ?_) rfl))))
  · have created : s.create p = s := if_pos (kept.ids p present)
    have mappable : s.mappable p = true := by rw [kept.mappable, layout.mappable]
    have size : (s.file p).size = findPageSize location := by
      rw [kept.file p present, layout.size p present]
    have clear := same kept ▸ stored.clear (findPageSize location - 1) (by omega)
    have stretched : s.stretch p (findPageSize location) = s := JournalFiles.stretch_self size clear
    simp [loadMmapBuffer, mappable, created, stretched]
  · have nonempty : (s.file p).size ≠ 0 := by
      rw [kept.file p present, layout.size p present]
      omega
    simp [checkPosition, nonempty, same kept, valid]
  · simp [same kept, stored.header.version]
  · simp [same kept, stored.header.pageHeaderLength]
  · simp [same kept, stored.header.getPageSize]

theorem findBackwardsSteps_steady (layout : Layout location files log) (destId : UInt32)
    (time : Int64) {pageIds : List Nat} (present : ∀ p ∈ pageIds, p ∈ files.ids) :
    (findBackwardsSteps location destId time pageIds).Steady () (Kept files)
      (pageIds.find? fun p => decide (beginTime (files.bytes p) < time)) := by
  induction pageIds with
  | nil => exact rfl
  | cons p rest ih =>
    have here := present p List.mem_cons_self
    obtain ⟨lower, upper⟩ := layout.mem_ids.mp here
    have read :
        (Prog.lift (do return beginTime ((← get).bytes p)) : JoinM Int64).Steady () (Kept files)
        (beginTime (files.bytes p)) := .lift fun s kept => by
          simp [JournalFiles.bytes, kept.file p here]
    refine .bind (loadSteps_steady layout lower upper destId true) (.bind read ?_)
    · by_cases before : beginTime (files.bytes p) < time
      · simp only [before, if_true, List.find?_cons, decide_true]
        exact rfl
      · simp only [before, if_false, List.find?_cons, decide_false]
        exact ih fun q member => present q (List.mem_cons_of_mem _ member)

theorem searchSteps_steady (layout : Layout location files log) (destId : UInt32) (time : Int64) :
    ∃ i, Log.Found log time i ∧
      (searchSteps location destId time (listPageId files)).Steady () (Kept files) (i + 1) := by
  obtain ⟨i, found, search⟩ := findPageId_spec layout destId time
  refine ⟨i, found, ?_⟩
  have steady :
      ∃ p, (searchSteps location destId time (listPageId files)).Steady () (Kept files) p := by
    cases listed : listPageId files with
    | nil => exact ⟨1, rfl⟩
    | cons front rest =>
      have present : ∀ p ∈ (front :: rest).reverse, p ∈ files.ids := by
        intro p member
        rw [← listed] at member
        exact List.mem_mergeSort.mp (List.mem_reverse.mp member)
      by_cases zero : time = 0
      · exact ⟨front, by simp only [searchSteps, zero, if_true]; exact rfl⟩
      · have back := findBackwardsSteps_steady layout destId time present
        refine ⟨((front :: rest).reverse.find? fun p =>
          decide (beginTime (files.bytes p) < time)).getD front, ?_⟩
        simp only [searchSteps, zero, if_false]
        exact .bind back rfl
  obtain ⟨p, steady⟩ := steady
  have kept : Kept files files := ⟨fun _ member => member, fun _ _ => rfl, rfl⟩
  have ran := steady.alone kept
  have same : findPageId location destId time files = .ok p files := by
    rw [← findPageIdSteps_alone, findPageIdSteps, Prog.alone_lift_bind]
    simpa using ran
  rw [search, EStateM.Result.ok.injEq] at same
  rw [same.1]
  exact steady

end Steady

section Race

variable {location : JLocation} {files : JournalFiles} {log : Log} {time : Int64}

/-- The stages of a creation: no file, an empty file, a file without a valid header, a page. -/
theorem stage_ids (absent : p ∉ files.ids) (size : Nat) {n : Nat} (begun : 0 < n) :
    (Prog.advance ((creation p size).take n) files).ids = files.ids ++ [p] := by
  match n, begun with
  | 1, _ => simp [creation, Prog.advance, JournalFiles.create, absent]
  | n + 2, _ => simp [advance_creation absent, stretched]

theorem stage_empty (absent : p ∉ files.ids) (size : Nat) :
    ((Prog.advance ((creation p size).take 1) files).file p).size = 0 := by
  simp [creation, Prog.advance, JournalFiles.create, absent]

theorem stage_unset (absent : p ∉ files.ids) (size : Nat) {n : Nat} (lower : 2 ≤ n)
    (upper : n < 7) :
    ((Prog.advance ((creation p size).take n) files).file p).size = size ∧
      lastFramePosition ((Prog.advance ((creation p size).take n) files).bytes p) = 0 := by
  obtain ⟨n, rfl⟩ := Nat.exists_eq_add_of_le' lower
  rw [advance_creation absent]
  refine ⟨?_, unset_before (by omega)⟩
  rw [JournalFiles.store_size]
  simp [stretched]

theorem stage_done (absent : p ∉ files.ids) (size : Nat) {n : Nat} (done : 7 ≤ n) :
    Prog.advance ((creation p size).take n) files = files.addPage p size := by
  rw [List.take_of_length_le (by simpa [creation, initHeader] using done), advance_created absent]

/-- The new page is listed last once its file is there. -/
theorem listPageId_stage (layout : Layout location files log) (size : Nat) {n : Nat}
    (begun : 0 < n) :
    (listPageId (Prog.advance ((creation (log.lastPageId + 1) size).take n) files)).reverse =
      (log.lastPageId + 1) :: (List.range' 1 log.lastPageId).reverse := by
  have absent : log.lastPageId + 1 ∉ files.ids := by
    rw [layout.mem_ids]
    omega
  have ids : files.ids ++ [log.lastPageId + 1] = List.range' 1 (log.lastPageId + 1) := by
    rw [layout.ids, List.range'_concat]
    simp [Nat.add_comm]
  have ascending :
      (List.range' 1 (log.lastPageId + 1)).Pairwise (fun p q => decide (p ≤ q) = true) := by
    simpa using List.pairwise_le_range' (s := 1) (n := log.lastPageId + 1)
  rw [listPageId, stage_ids absent size begun, ids, List.mergeSort_of_pairwise ascending,
    ← ids, layout.ids]
  simp

/-- What the join comes to when the page is complete before anything is looked at. -/
theorem joinSteps_complete (layout : Layout location files log) (positive : 0 < time)
    (destId : UInt32) (isLazy : Bool) :
      (joinSteps location destId isLazy time).alone ()
        (files.addPage (log.lastPageId + 1) (findPageSize location)) =
      .ok ⟨log.lastPageId + 1, findPageSize location⟩
        (files.addPage (log.lastPageId + 1) (findPageSize location)) := by
  have bounds := findPageSize_bounds location
  have mib : mebibyte = 1048576 := rfl
  have absent : log.lastPageId + 1 ∉ files.ids := by
    rw [layout.mem_ids]
    omega
  have nonzero : time ≠ 0 := by
    rintro rfl
    exact absurd positive (by decide)
  have created := stage_done absent (findPageSize location) (le_refl 7)
  have listed := listPageId_stage layout (findPageSize location) (by omega : 0 < 7)
  rw [created] at listed
  generalize sized :
    files.addPage (log.lastPageId + 1) (findPageSize location) = complete at listed ⊢
  have stored : Stored (findPageSize location) (complete.bytes (log.lastPageId + 1)) [] := by
    rw [← sized, JournalFiles.addPage_bytes_same]
    exact initial_stored _
  have loaded (isLazy : Bool) : load location destId (log.lastPageId + 1) false isLazy complete =
      .ok ⟨log.lastPageId + 1, findPageSize location⟩ complete := by
    refine load_existing ?_ ?_ ?_ stored ?_ destId false isLazy
    · simp [← sized, JournalFiles.addPage]
    · rw [← sized]
      exact layout.mappable _
    · simp [← sized, JournalFiles.addPage]
    · rw [span_nil]
      omega
  have before : beginTime (complete.bytes (log.lastPageId + 1)) < time := by
    rw [stored.beginTime]
    exact positive
  rw [joinSteps, Prog.alone_bind, findPageIdSteps_alone]
  simp only [loadSteps_alone, bind_apply, findPageId, get_apply]
  cases backwards : listPageId complete with
  | nil =>
    rw [backwards] at listed
    contradiction
  | cons front rest =>
    rw [backwards] at listed
    simp only [nonzero, if_false, bind_apply, listed, findBackwards, loaded, get_apply, before,
      if_true, pure_apply, Option.getD_some]

/-- A reader that lists the pages before the new file is there does not notice it. -/
theorem join_before (layout : Layout location files log) (time : Int64) (destId : UInt32)
    (isLazy : Bool) {turns : List Nat} (early : turns.headI = 0) :
    ∃ i s, Log.Found log time i ∧
      (joinSteps location destId isLazy time).runUnder () turns
        (creation (log.lastPageId + 1) (findPageSize location)) files =
          .ok ⟨i + 1, findPageSize location⟩ s := by
  have absent : log.lastPageId + 1 ∉ files.ids := by
    rw [layout.mem_ids]
    omega
  obtain ⟨i, found, search⟩ := searchSteps_steady layout destId time
  have upper : i + 1 ≤ log.lastPageId := by
    have := found.bound
    rw [Log.stored_length] at this
    omega
  have rest := search.bind (f := loadSteps location destId isLazy)
    (loadSteps_steady layout (Nat.le_add_left 1 i) upper destId isLazy)
  have creating :
      ∀ step ∈ creation (log.lastPageId + 1) (findPageSize location), ∀ s, Kept files s →
      Kept files (step s) :=
    fun step member s kept => creation_kept absent kept member
  obtain ⟨s, ran⟩ := rest.runUnder creating ⟨fun _ member => member, fun _ _ => rfl, rfl⟩ turns.tail
  refine ⟨i, s, found, ?_⟩
  have listing : joinSteps location destId isLazy time =
      Prog.lift (do return listPageId (← get)) >>= fun ids =>
        searchSteps location destId time ids >>= loadSteps location destId isLazy := rfl
  rw [listing, Prog.runUnder_lift, early]
  exact ran

/-- A reader that lists the page opens it next, and then looks at its header. -/
theorem search_listed {ids older : List Nat} (listed : ids.reverse = p :: older)
    (nonzero : time ≠ 0) (location : JLocation) (destId : UInt32) (isLazy : Bool) :
    ∃ rest : JoinM PageUnit,
      (searchSteps location destId time ids >>= loadSteps location destId isLazy) =
      Prog.lift (loadMmapBuffer (getPagePath location destId p) p
        (findPageSize location) false true) >>= fun _ =>
        Prog.lift (checkPosition true p (findPageSize location)) >>= fun _ => rest := by
  cases ids with
  | nil => contradiction
  | cons front later =>
    simp only [searchSteps, nonzero, if_false, listed]
    exact ⟨_, rfl⟩

/-- A mapping for reading changes nothing about a file that is there. -/
theorem map_present {s : JournalFiles} (mappable : s.mappable p = true) (present : p ∈ s.ids)
    (path : String) (size : Nat) : loadMmapBuffer path p size false true s = .ok () s := by
  have created : s.create p = s := if_pos present
  simp [loadMmapBuffer, mappable, created, master]

theorem advance_mappable (files : JournalFiles) (p size n : Nat) :
    (Prog.advance ((creation p size).take n) files).mappable = files.mappable := by
  refine Prog.advance_keeps (I := fun s : JournalFiles => s.mappable = files.mappable)
    (fun step member s same => ?_) rfl
  rcases List.mem_append.mp (List.mem_of_mem_take member) with first | later
  · rcases List.mem_cons.mp first with rfl | second
    · simp only [JournalFiles.create]
      split
      · exact same
      · exact same
    · obtain rfl := List.mem_singleton.mp second
      exact same
  · obtain ⟨op, _, rfl⟩ := List.mem_map.mp later
    exact same

/-- Joining a journal, at whatever moments of the creation of its next page. A reader that
lists the file of that page and looks at its header before the header is there is stopped by
a signal; every other one begins on a page of the journal. -/
theorem join_during_creation (layout : Layout location files log) (positive : 0 < time)
    (destId : UInt32) (isLazy : Bool) (turns : List Nat) :
    let steps := creation (log.lastPageId + 1) (findPageSize location)
    let run := (joinSteps location destId isLazy time).runUnder () turns steps files
    let listed := turns.headI
    let looked := turns.headI + turns.tail.headI + turns.tail.tail.headI
    (listed = 0 → ∃ i s, Log.Found log time i ∧ run = .ok ⟨i + 1, findPageSize location⟩ s) ∧
    (0 < listed → looked < 7 →
      ∃ s, run = .error (if looked = 1 then .beyondFile else .readOnlyStore) s) ∧
    (0 < listed → 7 ≤ looked → ∃ s, run = .ok ⟨log.lastPageId + 1, findPageSize location⟩ s) := by
  intro steps run listed looked
  have bounds := findPageSize_bounds location
  have mib : mebibyte = 1048576 := rfl
  have absent : log.lastPageId + 1 ∉ files.ids := by
    rw [layout.mem_ids]
    omega
  have nonzero : time ≠ 0 := by
    rintro rfl
    exact absurd positive (by decide)
  have mappable (n : Nat) :
      (Prog.advance (steps.take n) files).mappable (log.lastPageId + 1) = true := by
    rw [advance_mappable]
    exact layout.mappable _
  have present {n : Nat} (begun : 0 < n) :
      log.lastPageId + 1 ∈ (Prog.advance (steps.take n) files).ids := by
    rw [stage_ids absent _ begun]
    simp
  have listing : joinSteps location destId isLazy time =
      Prog.lift (do return listPageId (← get)) >>= fun ids =>
        searchSteps location destId time ids >>= loadSteps location destId isLazy := rfl
  have whole : steps.take 7 = steps := rfl
  have complete := stage_done absent (findPageSize location) (le_refl 7)
  -- the listing, the mapping and the first look, each at its own stage
  have first (late : 0 < listed) : ∃ rest : JoinM PageUnit,
      run = (match checkPosition true (log.lastPageId + 1) (findPageSize location)
        (Prog.advance (steps.take looked) files) with
        | .ok _ s => rest.runUnder () turns.tail.tail.tail (steps.drop looked) s
        | .error e s => .error e s) ∧
      (joinSteps location destId isLazy time).alone () (Prog.advance (steps.take 7) files) =
        match checkPosition true (log.lastPageId + 1) (findPageSize location)
          (Prog.advance (steps.take 7) files) with
        | .ok _ s => rest.alone () s
        | .error e s => .error e s := by
    have here := listPageId_stage layout (findPageSize location) late
    have there := listPageId_stage layout (findPageSize location) (by omega : 0 < 7)
    have same : listPageId (Prog.advance (steps.take listed) files) =
        listPageId (Prog.advance (steps.take 7) files) :=
      List.reverse_injective (here.trans there.symm)
    obtain ⟨rest, searched⟩ := search_listed here nonzero location destId isLazy
    refine ⟨rest, ?_, ?_⟩
    · have mapped := map_present (mappable (listed + turns.tail.headI)) (present (by omega))
        (getPagePath location destId (log.lastPageId + 1)) (findPageSize location)
      simp only [run]
      rw [listing, Prog.runUnder_lift]
      simp only [bind_apply, get_apply, pure_apply]
      rw [searched, Prog.runUnder_lift, Prog.advance_take_drop, mapped]
      simp only
      rw [Prog.runUnder_lift, List.drop_drop, Prog.advance_take_drop, List.drop_drop]
      have total : turns.headI + turns.tail.headI + turns.tail.tail.headI = looked := rfl
      rw [total]
      cases checkPosition true (log.lastPageId + 1) (findPageSize location)
        (Prog.advance (steps.take looked) files) with
      | ok u s => rfl
      | error e s => rfl
    · have mapped := map_present (mappable 7) (present (by omega))
        (getPagePath location destId (log.lastPageId + 1)) (findPageSize location)
      rw [listing, Prog.alone_lift_bind, bind_apply]
      simp only [bind_apply, get_apply, pure_apply]
      rw [← same, searched, Prog.alone_lift_bind, bind_ok mapped, Prog.alone_lift_bind, bind_apply]
      cases checkPosition true (log.lastPageId + 1) (findPageSize location)
        (Prog.advance (steps.take 7) files) with
      | ok u s => rfl
      | error e s => rfl
  refine ⟨fun early => join_before layout time destId isLazy early, fun late few => ?_,
    fun late done => ?_⟩
  · obtain ⟨rest, ran, _⟩ := first late
    refine ⟨Prog.advance (steps.take looked) files, ?_⟩
    rw [ran]
    by_cases one : looked = 1
    · have empty : ((Prog.advance (List.take 1 steps) files).file (log.lastPageId + 1)).size = 0 :=
        stage_empty absent (findPageSize location)
      rw [one, if_pos rfl]
      simp only [checkPosition, bind_apply, get_apply, steps, empty, if_true, throw_apply]
    · have ⟨size, unset⟩ :
        _ ∧ lastFramePosition ((Prog.advance (steps.take looked) files).bytes _) = 0 :=
        stage_unset absent (findPageSize location) (by omega) few
      have nonempty : findPageSize location ≠ 0 := by omega
      rw [if_neg one]
      have reading : master false true = false := rfl
      simp only [checkPosition, bind_apply, get_apply, branch_apply, steps, size, nonempty,
        if_false, unset, if_true, reading, Bool.false_eq_true, throw_apply]
  · obtain ⟨rest, ran, alone⟩ := first late
    have here : Prog.advance (steps.take looked) files = _ :=
      stage_done absent (findPageSize location) done
    refine ⟨files.addPage (log.lastPageId + 1) (findPageSize location), ?_⟩
    have finished : steps.drop looked = [] :=
      List.drop_of_length_le (by simpa [steps, creation, initHeader] using done)
    have result := joinSteps_complete layout positive destId isLazy
    rw [complete] at alone
    rw [ran, here, finished]
    simp only [Prog.runUnder_nil]
    exact alone.symm.trans result

/-- The writer of a one-page journal has stretched the file of page 2 when a reader lists
it, and goes on only after the reader has looked at the header. -/
theorem join_during_creation_stopped :
    ∃ s, (joinSteps Writer.simAccount 7 false 5).runUnder () [2]
      (creation 2 (findPageSize Writer.simAccount))
      (JournalFiles.fresh.addPage 1 (findPageSize Writer.simAccount)) = .error .readOnlyStore s :=
  (join_during_creation (Layout.start Writer.simAccount) (by decide) 7 false [2]).2.1
    (by decide) (by decide)

end Race

end PageUnit
end BTrader
