import BTrader.Lib.Memory

/-! The page files of one journal and `load_mmap_buffer` over them. A shared
mapping is the file itself, so every process that maps a page reads and writes
the same bytes. -/
namespace BTrader.Infra
open ByteMemory

/-- What ends a call early: the exceptions of the source, a failed assertion and
the signals a bad access through a mapping raises, also one that is gone. -/
inductive Fault where
  | journalError (what : String)
  | runtimeError (what : String)
  | outOfRange
  | assertion
  | nullPointer
  | readOnlyStore
  | beyondFile
  | unmapped
  | outOfFuel
  deriving DecidableEq, Repr

structure PageFile where
  size : Nat
  bytes : Memory

/-- The files of one journal by page id, with the ids that exist in creation
order. `mappable` says which of them the system lets a process open and map. -/
structure JournalFiles where
  ids : List Nat
  file : Nat → PageFile
  mappable : Nat → Bool

namespace JournalFiles

/-- No page file yet, and nothing in the way of creating one. -/
def fresh : JournalFiles := ⟨[], fun _ => ⟨0, 0⟩, fun _ => true⟩

def bytes (files : JournalFiles) (pageId : Nat) : Memory := (files.file pageId).bytes

def modify (files : JournalFiles) (pageId : Nat) (f : Memory → Memory) : JournalFiles :=
  let page : PageFile := { files.file pageId with bytes := f (files.bytes pageId) }
  { files with file := Function.update files.file pageId page }

/-- Stores through a writable mapping of the page. -/
def store (files : JournalFiles) (pageId : Nat) (ops : List StoreOp) : JournalFiles :=
  files.modify pageId (·.execAll ops)

@[simp] theorem modify_ids (files : JournalFiles) : (files.modify p f).ids = files.ids := rfl

@[simp] theorem modify_mappable (files : JournalFiles) :
    (files.modify p f).mappable = files.mappable := rfl

@[simp] theorem modify_bytes_same (files : JournalFiles) :
    (files.modify p f).bytes p = f (files.bytes p) := by
  simp [modify, bytes]

@[simp] theorem modify_bytes_other (files : JournalFiles) (other : q ≠ p) :
    (files.modify p f).bytes q = files.bytes q := by
  simp [modify, bytes, Function.update_of_ne other]

@[simp] theorem modify_size (files : JournalFiles) :
    ((files.modify p f).file q).size = (files.file q).size := by
  by_cases same : q = p
  · subst same
    simp [modify]
  · simp [modify, Function.update_of_ne same]

@[simp] theorem store_ids (files : JournalFiles) : (files.store p ops).ids = files.ids := rfl

@[simp] theorem store_mappable (files : JournalFiles) :
    (files.store p ops).mappable = files.mappable := rfl

@[simp] theorem store_bytes_same (files : JournalFiles) :
    (files.store p ops).bytes p = (files.bytes p).execAll ops := modify_bytes_same files

@[simp] theorem store_bytes_other (files : JournalFiles) (other : q ≠ p) :
    (files.store p ops).bytes q = files.bytes q := modify_bytes_other files other

@[simp] theorem store_size (files : JournalFiles) :
    ((files.store p ops).file q).size = (files.file q).size := modify_size files

theorem store_append (files : JournalFiles) (first second : List StoreOp) :
    files.store p (first ++ second) = (files.store p first).store p second := by
  simp [store, modify, bytes, execAll_append]

/-- `open` with `O_CREAT`: a missing file appears with no bytes. -/
def create (files : JournalFiles) (pageId : Nat) : JournalFiles :=
  if pageId ∈ files.ids then files
  else { files with
    ids := files.ids ++ [pageId]
    file := Function.update files.file pageId ⟨0, 0⟩ }

/-- `lseek` to the last byte of the page and `write` of one zero there. -/
def stretch (files : JournalFiles) (pageId size : Nat) : JournalFiles :=
  let page : PageFile :=
    ⟨max (files.file pageId).size size, (files.bytes pageId).write ⟨size - 1, [0]⟩⟩
  { files with file := Function.update files.file pageId page }

end JournalFiles

/-- A mapping is a master mapping when it is for writing or is not lazy; only
those stretch the file and may be stored through. -/
def master (isWriting isLazy : Bool) : Bool := isWriting || !isLazy

def loadMmapBuffer (path : String) (pageId size : Nat) (isWriting isLazy : Bool) :
    EStateM Fault JournalFiles Unit := do
  let files ← get
  if files.mappable pageId then
    let files := files.create pageId
    set (if master isWriting isLazy then files.stretch pageId size else files)
  else
    throw (.runtimeError ("failed to open file for page " ++ path))

end BTrader.Infra
