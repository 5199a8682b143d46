import BTrader.Core.FdsMap
import BTrader.Engines.CPEngine
import BTrader.Journal.ReaderSpec

/-! The event descriptors of a session: the mentor makes one for each journal of the configuration
and hands them on, the writers post to theirs, and the engines wait for those of the journals
they have joined. -/
namespace BTrader
open FdsMap Mentor

/-- `std::to_string` of a `uint32_t` -/
def stringOfUInt32 (n : UInt32) : Text := Nat.toDigits 10 n.toNat

/-- The key of a journal in the map. -/
def journalName (journal : JLocation × UInt32) : Text :=
  stringOfUInt32 journal.1.uid ++ '_' :: stringOfUInt32 journal.2

def MainCfg.getJournalNames (cfg : MainCfg) : List Text :=
  cfg.mdDests.map (fun dest => journalName (cfg.mdLocation, dest)) ++
    [journalName (cfg.mdReqLocation, JIDUtil.buildFlag .mdReq),
      journalName (cfg.mdReqLocation, JIDUtil.buildFlag .mdResponse)] ++
    cfg.tdDests.map (fun dest => journalName (cfg.tdLocation, dest)) ++
    [journalName (cfg.tdReponseLocation, JIDUtil.buildFlag .tdResponse),
      journalName (cfg.tdReponseLocation, JIDUtil.buildFlag .tdReq)]

/-- The engine of the market data, that of the strategies, that of the trades, and the data of the
application that takes the place of the strategies. -/
inductive Role where
  | md | cp | td | app
  deriving DecidableEq, Repr

namespace Role

/-- The journals that `on_setup`, or `JourCommData::init`, makes writers for. -/
def writes (cfg : MainCfg) : Role → List (JLocation × UInt32)
  | md => (cfg.mdReqLocation, JIDUtil.buildFlag .mdResponse) :: cfg.mdDests.map fun dest =>
    (cfg.mdLocation, dest)
  | cp => CPEngine.journals cfg
  | td => [(cfg.tdReponseLocation, JIDUtil.buildFlag .tdResponse)]
  | app => cfg.tdDests.map (fun dest => (cfg.tdLocation, dest)) ++
      [(cfg.mdReqLocation, JIDUtil.buildFlag .mdReq)]

/-- The journals that the reader joins. -/
def joins (cfg : MainCfg) : Role → List (JLocation × UInt32)
  | md => [(cfg.mdReqLocation, JIDUtil.buildFlag .mdReq)]
  | cp => cfg.mdDests.map (fun dest => (cfg.mdLocation, dest)) ++
      [(cfg.tdReponseLocation, JIDUtil.buildFlag .tdResponse),
        (cfg.mdReqLocation, JIDUtil.buildFlag .mdResponse)]
  | td => (cfg.tdReponseLocation, JIDUtil.buildFlag .tdReq) :: cfg.tdDests.map fun dest =>
    (cfg.tdLocation, dest)
  | app => cfg.mdDests.map (fun dest => (cfg.mdLocation, dest)) ++
      [(cfg.tdReponseLocation, JIDUtil.buildFlag .tdResponse)]

end Role

/-- The journals whose writers are destroyed again: `writers_[dest]` is assigned the writer of
another one, or one of the same journal once more. -/
def replaced : List (JLocation × UInt32) → List (JLocation × UInt32)
  | [] => []
  | journal :: rest => if journal.2 ∈ rest.map Prod.snd then journal :: replaced rest
      else replaced rest

/-- The descriptors that `~JourIndicator` closes with these writers. -/
def Role.closed (name2fd : FdsMap) (cfg : MainCfg) (role : Role) : List Int32 :=
  (replaced (role.writes cfg)).filterMap fun journal => name2fd (journalName journal)

namespace FdsMap

end FdsMap

section Names

end Names

section Handing
variable {names : List Text} {fds received : List Int32}

/-- The entries of the vector for the names and the descriptors. -/
def Mentor.entries (journals : List (Text × Int32)) : List Text :=
  journals.flatMap fun journal => [journal.1, stringOfInt journal.2]

end Handing

section Wiring
variable {cfg : MainCfg} {fds received : List Int32}

/-- The journals that have a name. -/
def MainCfg.journals (cfg : MainCfg) : List (JLocation × UInt32) :=
  cfg.mdDests.map (fun dest => (cfg.mdLocation, dest)) ++
    [(cfg.mdReqLocation, JIDUtil.buildFlag .mdReq),
      (cfg.mdReqLocation, JIDUtil.buildFlag .mdResponse)] ++
    cfg.tdDests.map (fun dest => (cfg.tdLocation, dest)) ++
    [(cfg.tdReponseLocation, JIDUtil.buildFlag .tdResponse),
      (cfg.tdReponseLocation, JIDUtil.buildFlag .tdReq)]

theorem getJournalNames_eq (cfg : MainCfg) :
    cfg.getJournalNames = cfg.journals.map journalName := by
  simp [MainCfg.getJournalNames, MainCfg.journals, List.map_map, Function.comp_def]

theorem Role.named {role : Role} {journal : JLocation × UInt32}
    (used : journal ∈ role.writes cfg ∨ journal ∈ role.joins cfg) :
      journalName journal ∈ cfg.getJournalNames := by
  rw [getJournalNames_eq]
  apply List.mem_map_of_mem
  cases role with
  | md =>
    simp only [writes, joins, MainCfg.journals, List.mem_append, List.mem_cons] at used ⊢
    tauto
  | cp =>
    simp only [writes, joins, CPEngine.journals, MainCfg.journals, List.mem_append,
      List.mem_cons] at used ⊢
    tauto
  | td =>
    simp only [writes, joins, MainCfg.journals, List.mem_append, List.mem_cons] at used ⊢
    tauto
  | app =>
    simp only [writes, joins, MainCfg.journals, List.mem_append, List.mem_cons] at used ⊢
    tauto

/-- What one side writes another one reads, and the other way round. -/
theorem Role.answered (cfg : MainCfg) (journal : JLocation × UInt32) :
    (∃ role : Role, role ≠ .app ∧ journal ∈ role.writes cfg) ↔ ∃ role : Role, role ≠ .app ∧
      journal ∈ role.joins cfg := by
  constructor
  · rintro ⟨role, engine, member⟩
    cases role with
    | md =>
      refine ⟨.cp, by decide, ?_⟩
      simp only [writes, joins, List.mem_append, List.mem_cons] at member ⊢
      tauto
    | cp =>
      simp only [writes, CPEngine.journals, List.mem_append, List.mem_cons, List.not_mem_nil,
        or_false] at member
      rcases member with dests | rfl | rfl
      · exact ⟨.td, by decide, List.mem_cons_of_mem _ dests⟩
      · exact ⟨.md, by decide, List.mem_cons_self⟩
      · exact ⟨.td, by decide, List.mem_cons_self⟩
    | td =>
      refine ⟨.cp, by decide, ?_⟩
      simp only [writes, joins, List.mem_append, List.mem_cons] at member ⊢
      tauto
    | app => exact absurd rfl engine
  · rintro ⟨role, engine, member⟩
    cases role with
    | md =>
      refine ⟨.cp, by decide, ?_⟩
      simp only [writes, joins, CPEngine.journals, List.mem_append, List.mem_cons] at member ⊢
      tauto
    | cp =>
      simp only [joins, List.mem_append, List.mem_cons, List.not_mem_nil, or_false] at member
      rcases member with dests | rfl | rfl
      · exact ⟨.md, by decide, List.mem_cons_of_mem _ dests⟩
      · exact ⟨.td, by decide, List.mem_cons_self⟩
      · exact ⟨.md, by decide, List.mem_cons_self⟩
    | td =>
      refine ⟨.cp, by decide, ?_⟩
      simp only [writes, joins, CPEngine.journals, List.mem_append, List.mem_cons] at member ⊢
      tauto
    | app => exact absurd rfl engine

end Wiring

end BTrader
