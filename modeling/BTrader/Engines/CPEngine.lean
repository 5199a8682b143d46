import BTrader.Core.MainCfg
import BTrader.Strategy.LiveExecutor

/-! The writers of the strategy engine, how they are set up, and the executor that writes
its requests through them. -/
namespace BTrader
open ByteMemory Infra Procedure

/-- The files of every journal. -/
abbrev Disk := JLocation → UInt32 → JournalFiles

def Disk.put (disk : Disk) (location : JLocation) (destId : UInt32) (files : JournalFiles) : Disk :=
  fun l d => if l = location ∧ d = destId then files else disk l d

structure CPEngine where
  writers : UInt32 → Option Writer

abbrev CPEngineM := EStateM Fault (CPEngine × Disk)

namespace CPEngine

def empty : CPEngine := ⟨fun _ => none⟩

/-- `writers_[dest] = std::make_unique<Writer>(..)`; the clock is read twice in it. -/
def addWriter (pageRollbackSize : Nat) (location : JLocation) (dest : UInt32)
    (clock : Int64 × Int64) :
    CPEngineM Unit := fun (engine, disk) =>
  match Writer.make location dest false pageRollbackSize clock.1 clock.2 (disk location dest) with
  | .ok w files =>
    .ok ⟨⟩ (⟨Function.update engine.writers dest (some w)⟩, disk.put location dest files)
  | .error e files => .error e (engine, disk.put location dest files)

section
variable {pageRollbackSize : Nat} {location : JLocation} {dest : UInt32} {clock : Int64 × Int64}
  {engine : CPEngine} {disk : Disk} {w : Writer} {files : JournalFiles}

theorem addWriter_ok
    (made :
      Writer.make location dest false pageRollbackSize clock.1 clock.2 (disk location dest) =
      .ok w files) :
    addWriter pageRollbackSize location dest clock (engine, disk) =
      .ok ⟨⟩ (⟨Function.update engine.writers dest (some w)⟩, disk.put location dest files) := by
  simp only [addWriter, made]

theorem addWriter_error
    (made :
      Writer.make location dest false pageRollbackSize clock.1 clock.2 (disk location dest) =
      .error e files) :
    addWriter pageRollbackSize location dest clock (engine, disk) =
      .error e (engine, disk.put location dest files) := by
  simp only [addWriter, made]

end

/-- The journals the engine writes, in the order it makes their writers. -/
def journals (cfg : MainCfg) : List (JLocation × UInt32) :=
  cfg.tdDests.map (fun dest => (cfg.tdLocation, dest)) ++
    [(cfg.mdReqLocation, JIDUtil.buildFlag .mdReq),
      (cfg.tdReponseLocation, JIDUtil.buildFlag .tdReq)]

def onSetup (cfg : MainCfg) (pageRollbackSize : Nat) (clock : Nat → Int64 × Int64) :
    CPEngineM Unit :=
  (journals cfg).zipIdx.forM fun entry =>
    addWriter pageRollbackSize entry.1.1 entry.1.2 (clock entry.2)

/-- `get_writer(id)`, with what is done through the writer. -/
def onWriter (id : UInt32) (x : WriterM α) : CPEngineM α := fun (engine, disk) =>
  match engine.writers id with
  | none => .error .outOfRange (engine, disk)
  | some w =>
    let location := w.journal.location
    let dest := w.journal.destId
    match x (w, disk location dest) with
    | .ok a (w, files) =>
      .ok a (⟨Function.update engine.writers id (some w)⟩, disk.put location dest files)
    | .error e (w, files) =>
      .error e (⟨Function.update engine.writers id (some w)⟩, disk.put location dest files)

section
variable {engine : CPEngine} {disk : Disk} {id : UInt32} {x : WriterM α} {w w' : Writer}
    {files : JournalFiles}

theorem onWriter_absent (absent : engine.writers id = none) :
    onWriter id x (engine, disk) = .error .outOfRange (engine, disk) := by
  simp only [onWriter, absent]

theorem onWriter_ok (entry : engine.writers id = some w)
    (ran : x (w, disk w.journal.location w.journal.destId) = .ok a (w', files)) :
    onWriter id x (engine, disk) = .ok a (⟨Function.update engine.writers id (some w')⟩,
      disk.put w.journal.location w.journal.destId files) := by
  simp only [onWriter, entry, ran]

theorem onWriter_error (entry : engine.writers id = some w)
    (ran : x (w, disk w.journal.location w.journal.destId) = .error e (w', files)) :
    onWriter id x (engine, disk) = .error e (⟨Function.update engine.writers id (some w')⟩,
      disk.put w.journal.location w.journal.destId files) := by
  simp only [onWriter, entry, ran]

end

end CPEngine

namespace LiveExecutor

def insertOrder (institution account : String) (order : Object sizeofOrderInput)
    (nowEventTime insertTime pageEnd genTime : Int64) : CPEngineM UInt64 :=
  CPEngine.onWriter (JIDUtil.build institution account)
    (orderRequest order nowEventTime insertTime pageEnd genTime).issue

def cancelOrder (cfg : MainCfg) (orderId : UInt64) (nowEventTime pageEnd genTime : Int64) :
    CPEngineM UInt64 :=
  CPEngine.onWriter ((orderId >>> 32) ^^^ cfg.getTdLocationUid.toUInt64).toUInt32
    (cancelRequest orderId nowEventTime pageEnd genTime).issue

def reqAccountInfo (institution account : String) (req : Object sizeofAccountReq)
    (nowEventTime insertTime pageEnd genTime : Int64) : CPEngineM UInt64 :=
  CPEngine.onWriter (JIDUtil.build institution account)
    (accountRequest req nowEventTime insertTime pageEnd genTime).issue

end LiveExecutor
end BTrader
