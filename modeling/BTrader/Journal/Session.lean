import BTrader.Journal.Seek
import BTrader.Journal.WriteOps

/-! A writer's life on a journal: the constructor, then a sequence of operations. -/
namespace BTrader
open ByteMemory Infra Procedure

namespace Writer

/-- Construct a writer without rollback and run the operations. -/
def session (location : JLocation) (destId : UInt32) (isLazy : Bool) (started now : Int64)
    (ops : List WriteOp) : EStateM Fault JournalFiles Writer := fun files =>
  match make location destId isLazy 0 started now files with
  | .error e files => .error e files
  | .ok w files =>
    match WriteOp.runAll ops (w, files) with
    | .ok _ (w, files) => .ok w files
    | .error e (_, files) => .error e files

/-- The handle of a writer that is constructed at that reading of the clock. -/
def handleAt (location : JLocation) (destId : UInt32) (isLazy : Bool) (started : Int64) : Handle :=
  ⟨location, destId, isLazy, timeHashed started⟩

theorem make_fresh (location : JLocation) (destId : UInt32) (isLazy : Bool) (started now : Int64) :
    make location destId isLazy 0 started now JournalFiles.fresh =
      .ok ((handleAt location destId isLazy started).atEnd PagedLog.empty)
        (JournalFiles.fresh.addPage 1 (findPageSize location)) := by
  have sought := (⟨location, destId, true, isLazy⟩ : Opening).seekToTime_fresh rfl now
  simp only [Opening.make] at sought
  rw [make, sought]
  rfl

/-- A writer on a journal of one page, of which every frame is due. -/
theorem make_due {files : JournalFiles} {log : Log} (layout : Layout location files log)
    (only : log.closed = []) (destId : UInt32) (isLazy : Bool) (started now : Int64)
    (due : ∀ f ∈ log.current, Log.Due now f) :
    make location destId isLazy 0 started now files =
      .ok ((handleAt location destId isLazy started).atEnd log) files := by
  obtain ⟨k, fs, landing, sought⟩ :=
    (⟨location, destId, true, isLazy⟩ : Opening).seekToTime_spec layout now
  obtain ⟨rfl, rfl⟩ := landing.onlyPage only
  have all : Log.due now log.current = log.current :=
    List.takeWhile_eq_self_iff.mpr fun f member => decide_eq_true (due f member)
  simp only [Opening.make, all] at sought
  rw [make, sought]
  simp [Handle.atEnd, Handle.placed, handleAt, Handle.opening, Log.lastPageId, only]

/-- A writer on a journal that holds nothing yet. -/
theorem make_empty {files : JournalFiles} {log : Log} (layout : Layout location files log)
    (only : log.closed = []) (nothing : log.current = []) (destId : UInt32) (isLazy : Bool)
    (started now : Int64) :
    make location destId isLazy 0 started now files =
      .ok ((handleAt location destId isLazy started).atEnd log) files :=
  make_due layout only destId isLazy started now (by simp [nothing])

theorem session_ok (made : make location destId isLazy 0 started now files = .ok w files₁)
    (ran : WriteOp.runAll ops (w, files₁) = .ok () (w', files')) :
    session location destId isLazy started now ops files = .ok w' files' := by
  simp only [session, made, ran]

/-- A session on a fresh journal stores its frames in order. -/
theorem session_fresh (location : JLocation) (destId : UInt32) (isLazy : Bool) (started now : Int64)
    {ops : List WriteOp} (adm : ∀ op ∈ ops, op.Admissible location) :
    ∃ files, session location destId isLazy started now ops JournalFiles.fresh =
        .ok ((handleAt location destId isLazy started).atEnd
          (WriteOp.appendAll location destId PagedLog.empty ops)) files ∧
      Layout location files (WriteOp.appendAll location destId PagedLog.empty ops) := by
  obtain ⟨files, ran, layout⟩ := WriteOp.runAll_appendAll
    (handleAt location destId isLazy started) (Layout.start location) adm
  exact ⟨files, session_ok (make_fresh location destId isLazy started now) ran, layout⟩

end Writer
end BTrader
