import BTrader.Journal.Journal

/-! The merging reader over any number of journals. `journals` lists the map in
its iteration order; the journal `current` points to is named by its key. -/
namespace BTrader
open ByteMemory Infra Procedure

/-- The files of every journal, by journal key. -/
abbrev FileStore := UInt64 → JournalFiles

structure Reader where
  isLazy : Bool
  current : Option UInt64
  journals : List (UInt64 × Journal)
  deriving DecidableEq

abbrev ReaderM := EStateM Fault (Reader × FileStore)

namespace Reader

def make (isLazy : Bool) : Reader := ⟨isLazy, none, []⟩

def journalKey (locationUid destId : UInt32) : UInt64 :=
  (locationUid.toUInt64 <<< 32) ||| destId.toUInt64

def find (r : Reader) (key : UInt64) : Option Journal := r.journals.lookup key

def replace (r : Reader) (key : UInt64) (j : Journal) : Reader :=
  { r with journals := r.journals.map fun entry => if entry.1 = key then (key, j) else entry }

theorem replace_keys (r : Reader) (key : UInt64) (j : Journal) :
    (r.replace key j).journals.map Prod.fst = r.journals.map Prod.fst := by
  simp only [replace, List.map_map]
  apply List.map_congr_left
  intro entry _
  by_cases same : entry.1 = key <;> simp [same]

theorem mem_replace {r : Reader} {key : UInt64} {j : Journal} {entry : UInt64 × Journal}
    (member : entry ∈ (r.replace key j).journals) :
      entry = (key, j) ∨ entry.1 ≠ key ∧ entry ∈ r.journals := by
  obtain ⟨old, present, rfl⟩ := List.mem_map.mp member
  by_cases same : old.1 = key
  · exact .inl (if_pos same)
  · rw [if_neg same]
    exact .inr ⟨same, present⟩

/-- Run a journal procedure on the joined journal of that key. -/
def onJournal (key : UInt64) (x : JournalM α) : ReaderM α := fun (r, store) =>
  match r.find key with
  | none => .error .outOfRange (r, store)
  | some j =>
    match x (j, store key) with
    | .ok a (j, files) => .ok a (r.replace key j, Function.update store key files)
    | .error e (j, files) => .error e (r.replace key j, Function.update store key files)

/-- The loop of `sort`: the running minimum and the journal it was found in. -/
def sortFrom (store : FileStore) :
    List (UInt64 × Journal) → Int64 → Option UInt64 → Except Fault (Option UInt64)
  | [], _, current => .ok current
  | (key, j) :: rest, minTime, current =>
    match j.page with
    | none => .error .nullPointer
    | some page =>
      let m := (store key).bytes page.pageId
      if FrameUnit.hasData m j.frame = true ∧ FrameUnit.genTime m j.frame ≤ minTime then
        sortFrom store rest (FrameUnit.genTime m j.frame) (some key)
      else sortFrom store rest minTime current

def sort (now : Int64) : ReaderM Unit := do
  let (r, store) ← get
  match sortFrom store r.journals now r.current with
  | .ok current => set ({ r with current := current }, store)
  | .error e => throw e

/-- The memory and the address of `current_->current_frame()`. -/
def currentFrame : ReaderM (Memory × Nat) := do
  let (r, store) ← get
  match r.current with
  | none => throw .nullPointer
  | some key =>
    match r.find key with
    | none => throw .nullPointer
    | some j =>
      match j.page with
      | none => throw .nullPointer
      | some page => return ((store key).bytes page.pageId, j.frame)

def dataAvailable (now : Int64) : ReaderM Bool := do
  sort now
  if (← get).1.current = none then return false
  let (m, frame) ← currentFrame
  return FrameUnit.hasData m frame

def next (now : Int64) : ReaderM Unit := do
  match (← get).1.current with
  | none => pure ()
  | some key => onJournal key Journal.next
  sort now

/-- `order` is the iteration order the map takes with the new entry. -/
def join (location : JLocation) (destId : UInt32) (fromTime : Int64) (pageRollbackSize : Nat)
    (order : List (UInt64 × Journal) → List (UInt64 × Journal)) (now : Int64) : ReaderM Unit := do
  let (r, _) ← get
  let key := journalKey location.uid destId
  if r.find key = none then
    let journal := Journal.make location destId false r.isLazy pageRollbackSize
    modify fun (r, store) => ({ r with journals := order ((key, journal) :: r.journals) }, store)
    onJournal key (Journal.seekToTime fromTime)
  if (← get).1.current = none then sort now

def seekToTime (time now : Int64) : ReaderM Unit := do
  (← get).1.journals.forM fun entry => onJournal entry.1 (Journal.seekToTime time)
  sort now

def disjoin (locationUid : UInt32) (now : Int64) : ReaderM Unit := do
  modify fun (r, store) =>
    ({ r with
        journals := r.journals.filter fun entry => (entry.1 >>> 32) ^^^ locationUid.toUInt64 ≠ 0
        current := none }, store)
  sort now

def disjoinChannel (locationUid destId : UInt32) (now : Int64) : ReaderM Unit := do
  modify fun (r, store) =>
    ({ r with
        journals := r.journals.eraseP fun entry => entry.1 = journalKey locationUid destId
        current := none }, store)
  sort now

end Reader
end BTrader
