import BTrader.Engines.CPEngine
import BTrader.Strategy.OrderIds
import BTrader.Engines.TDEngine

/-! A request comes to the writer and the trade service of the account it was written for. -/
namespace BTrader
open ByteMemory Infra Procedure Writer

theorem toAccountUid_frameUid (location : JLocation) (destId start : UInt32) (p n : Nat) :
    toAccountUid (frameUid (idBase location destId) start p n) location.uid = destId := by
  have high :
      frameUid (idBase location destId) start p n >>> 32 = (location.uid ^^^ destId).toUInt64 := by
    rw [← UInt64.toNat_inj, UInt64.toNat_shiftRight, frameUid_toNat, UInt32.toNat_toUInt64]
    have low := (positionBits p n ^^^ start).toNat_lt
    change _ >>> 32 = _
    rw [Nat.shiftRight_eq_div_pow]
    omega
  rw [toAccountUid, high, ← UInt32.toUInt64_xor, UInt32.toUInt32_toUInt64,
    UInt32.xor_comm location.uid, UInt32.xor_assoc, UInt32.xor_self, UInt32.xor_zero]

theorem Writer.issues_openData {base : UInt64} {start : UInt32} (t : Int64) (ty : Int32)
    (size : Nat) (pe : Int64) :
    Keeps (Issues base start) (openData t ty size pe) :=
  keeps_bind (issues_openFrame _ _ _ _) fun _ => keeps_bind (issues_onJournal _) fun _ =>
    keeps_bind keeps_get fun _ => keeps_pure _

namespace Request

theorem issues_issue {base : UInt64} {start : UInt32} (r : Request) :
    Keeps (Issues base start) r.issue := by
  have uid : Keeps (Issues base start) currentFrameUid :=
    keeps_bind keeps_get fun _ => keeps_bind (issues_onJournal _) fun _ => keeps_pure _
  have closed : Keeps (Issues base start) (closeData r.genTime) :=
    keeps_bind keeps_get fun _ => issues_closeFrame _ _
  exact keeps_bind (issues_openData _ _ _ _) fun _ => keeps_bind uid fun _ =>
    keeps_bind (issues_onJournal _) fun _ =>
    keeps_bind keeps_get fun _ => keeps_bind (issues_onJournal _) fun _ =>
      keeps_bind closed fun _ => keeps_pure _

/-- The id of a request is one its own writer gives to a frame position. -/
theorem issue_uid {base : UInt64} {start : UInt32} {r : Request}
    {s t : Writer × JournalFiles} {id : UInt64}
    (issues : Issues base start s) (ran : r.issue s = .ok id t) :
      ∃ p n, id = frameUid base start p n := by
  obtain ⟨address, s₁, opened, ran⟩ := of_bind_ok ran
  obtain ⟨uid, s₂, numbered, ran⟩ := of_bind_ok ran
  obtain ⟨page, s₃, _, ran⟩ := of_bind_ok ran
  obtain ⟨s₄, s₅, _, ran⟩ := of_bind_ok ran
  obtain ⟨_, s₆, _, ran⟩ := of_bind_ok ran
  obtain ⟨_, s₇, _, ran⟩ := of_bind_ok ran
  cases ran
  have issues₁ : Issues base start s₁ := (issues_openData _ _ _ _).ok issues opened
  obtain ⟨w, files⟩ := s₁
  obtain ⟨rfl, rfl⟩ := issues₁
  obtain ⟨_, s₈, got, numbered⟩ := of_bind_ok numbered
  cases got
  obtain ⟨page, s₉, _, numbered⟩ := of_bind_ok numbered
  cases numbered
  exact ⟨_, _, rfl⟩

end Request

namespace CPEngine

/-- Every writer bears the ids of a journal the engine writes, under its destination. -/
def Bears (cfg : MainCfg) (s : CPEngine × Disk) : Prop :=
  ∀ dest w, s.1.writers dest = some w → ∃ location start, (location, dest) ∈ journals cfg ∧
    ∀ files, Issues (idBase location dest) start (w, files)

/-- A writer put under a destination keeps this when it bears that journal's ids. -/
theorem Bears.put {cfg : MainCfg} {engine : CPEngine} {disk : Disk} {w : Writer}
    {files : JournalFiles}
    {location : JLocation} {dest start : UInt32} (bears : Bears cfg (engine, disk))
    (known : (location, dest) ∈ journals cfg)
    (issues : Issues (idBase location dest) start (w, files))
    (disk' : Disk) : Bears cfg (⟨Function.update engine.writers dest (some w)⟩, disk') := by
  intro key w' entry
  by_cases here : key = dest
  · subst key
    cases (Function.update_self dest (some w) engine.writers).symm.trans entry
    exact ⟨location, start, known, fun _ => issues⟩
  · exact bears key w' ((Function.update_of_ne here (some w) engine.writers).symm.trans entry)

theorem addWriter_bears {cfg : MainCfg} {location : JLocation} {dest : UInt32}
    (known : (location, dest) ∈ journals cfg) (pageRollbackSize : Nat) (clock : Int64 × Int64) :
    Keeps (Bears cfg) (addWriter pageRollbackSize location dest clock) := by
  rintro ⟨engine, disk⟩ bears
  cases made :
    Writer.make location dest false pageRollbackSize clock.1 clock.2 (disk location dest) with
  | error e files =>
    rw [after, addWriter_error made]
    exact bears
  | ok w files =>
    rw [after, addWriter_ok made]
    exact bears.put known (make_issues made) _

theorem onSetup_bears (cfg : MainCfg) (pageRollbackSize : Nat) (clock : Nat → Int64 × Int64) :
    Keeps (Bears cfg) (onSetup cfg pageRollbackSize clock) := by
  have each (entries : List ((JLocation × UInt32) × Nat))
      (known : ∀ entry ∈ entries, entry.1 ∈ journals cfg) :
      Keeps (Bears cfg) (entries.forM fun entry =>
        addWriter pageRollbackSize entry.1.1 entry.1.2 (clock entry.2)) := by
    induction entries with
    | nil => exact keeps_pure _
    | cons entry entries ih =>
      refine keeps_bind (addWriter_bears ?_ _ _) fun _ => ih ?_
      · exact known entry List.mem_cons_self
      · exact fun e member => known e (List.mem_cons_of_mem _ member)
  refine each _ fun entry member => ?_
  exact (List.mem_zipIdx' member).2 ▸ List.getElem_mem _

theorem onWriter_bears {cfg : MainCfg} {x : WriterM α}
    (keeps : ∀ base start, Keeps (Issues base start) x)
    (id : UInt32) : Keeps (Bears cfg) (onWriter id x) := by
  rintro ⟨engine, disk⟩ bears
  cases entry : engine.writers id with
  | none =>
    rw [after, onWriter_absent entry]
    exact bears
  | some w =>
    obtain ⟨location, start, known, issues⟩ := bears id w entry
    have kept := keeps _ _ _ (issues (disk w.journal.location w.journal.destId))
    cases ran : x (w, disk w.journal.location w.journal.destId) with
    | ok a s =>
      rw [after, ran] at kept
      rw [after, onWriter_ok entry ran]
      exact bears.put known kept _
    | error e s =>
      rw [after, ran] at kept
      rw [after, onWriter_error entry ran]
      exact bears.put known kept _

/-- The states of the engine: set up on some disk, then writing through its writers, while the
files change as they may. -/
inductive Reached (cfg : MainCfg) : CPEngine × Disk → Prop where
  | setup (pageRollbackSize : Nat) (clock : Nat → Int64 × Int64) (disk : Disk) {s : CPEngine × Disk}
      (ran : onSetup cfg pageRollbackSize clock (empty, disk) = .ok ⟨⟩ s) : Reached cfg s
  | request (id : UInt32) (r : Request) {s : CPEngine × Disk} (before : Reached cfg s) :
      Reached cfg (after (onWriter id r.issue) s)
  | write (id : UInt32) (c : Writer.Call) {s : CPEngine × Disk} (before : Reached cfg s) :
      Reached cfg (after (onWriter id c.run) s)
  | files (disk' : Disk) {s : CPEngine × Disk} (before : Reached cfg s) : Reached cfg (s.1, disk')

theorem Reached.bears {cfg : MainCfg} {s : CPEngine × Disk} (reached : Reached cfg s) :
    Bears cfg s := by
  induction reached with
  | setup pageRollbackSize clock disk ran =>
    have kept := onSetup_bears cfg pageRollbackSize clock (empty, disk) fun dest w entry => by
      contradiction
    rwa [after, ran] at kept
  | request id r before ih => exact onWriter_bears (fun _ _ => r.issues_issue) id _ ih
  | write id c before ih => exact onWriter_bears (fun _ _ => issues_call c) id _ ih
  | files disk' before ih => exact ih

/-- A request written under the destination of an account gets an id that decodes to it. -/
theorem onWriter_uid {cfg : MainCfg}
    (free : JIDUtil.buildFlag .mdReq ∉ cfg.tdDests ∧ JIDUtil.buildFlag .tdReq ∉ cfg.tdDests)
    {dest : UInt32} (known : dest ∈ cfg.tdDests) {r : Request} {s t : CPEngine × Disk} {id : UInt64}
    (reached : Reached cfg s) (ran : onWriter dest r.issue s = .ok id t) :
    toAccountUid id cfg.getTdLocationUid = dest := by
  obtain ⟨engine, disk⟩ := s
  cases entry : engine.writers dest with
  | none =>
    rw [onWriter_absent entry] at ran
    contradiction
  | some w =>
    obtain ⟨location, start, journal, issues⟩ := reached.bears dest w entry
    have own : location = cfg.tdLocation := by
      simp only [journals, List.mem_append, List.mem_map, List.mem_cons, Prod.mk.injEq,
        List.not_mem_nil, or_false] at journal
      rcases journal with ⟨_, _, same, _⟩ | ⟨_, rfl⟩ | ⟨_, rfl⟩
      · exact same.symm
      · exact absurd known free.1
      · exact absurd known free.2
    cases issued : r.issue (w, disk w.journal.location w.journal.destId) with
    | error e u =>
      rw [onWriter_error entry issued] at ran
      contradiction
    | ok uid u =>
      rw [onWriter_ok entry issued] at ran
      cases ran
      obtain ⟨p, n, rfl⟩ := Request.issue_uid (issues _) issued
      rw [MainCfg.getTdLocationUid, ← own]
      exact toAccountUid_frameUid location dest start p n

end CPEngine

/-- The id was returned by a request for that account, or for one of its orders. -/
inductive LiveExecutor.Issued (cfg : MainCfg) (account : Account) : UInt64 → Prop where
  | order {s t : CPEngine × Disk} {order : Object sizeofOrderInput}
      {nowEventTime insertTime pageEnd genTime : Int64} {id : UInt64}
      (reached : CPEngine.Reached cfg s)
      (ran :
        insertOrder account.institution account.account order nowEventTime insertTime
          pageEnd genTime s =
        .ok id t) : Issued cfg account id
  | info {s t : CPEngine × Disk} {req : Object sizeofAccountReq}
      {nowEventTime insertTime pageEnd genTime : Int64} {id : UInt64}
      (reached : CPEngine.Reached cfg s)
      (ran :
        reqAccountInfo account.institution account.account req nowEventTime insertTime
          pageEnd genTime s =
        .ok id t) : Issued cfg account id
  | cancel {s t : CPEngine × Disk} {orderId : UInt64} {nowEventTime pageEnd genTime : Int64}
      {id : UInt64}
      (target : Issued cfg account orderId) (reached : CPEngine.Reached cfg s)
      (ran : cancelOrder cfg orderId nowEventTime pageEnd genTime s = .ok id t) :
        Issued cfg account id

theorem LiveExecutor.Issued.decodes {cfg : MainCfg} {account : Account} {id : UInt64}
    (registered : account ∈ cfg.td)
    (free : JIDUtil.buildFlag .mdReq ∉ cfg.tdDests ∧ JIDUtil.buildFlag .tdReq ∉ cfg.tdDests)
    (issued : Issued cfg account id) : toAccountUid id cfg.getTdLocationUid = account.dest := by
  have known : account.dest ∈ cfg.tdDests := List.mem_map_of_mem registered
  induction issued with
  | order reached ran => exact CPEngine.onWriter_uid free known reached ran
  | info reached ran => exact CPEngine.onWriter_uid free known reached ran
  | cancel target reached ran ih =>
    change CPEngine.onWriter (toAccountUid _ cfg.getTdLocationUid) _ _ = _ at ran
    rw [ih] at ran
    exact CPEngine.onWriter_uid free known reached ran

section Routing
variable {σ : Type} (service : TradeService σ) (cfg : MainCfg)

/-- An id decodes to the destination of the writer that gave it; where the accounts have
destinations of their own, a cancel goes through the writer of its order, and the trade
engine asks the service of the account the request was written for. -/
theorem requests_routed :
    (∀ (location : JLocation) (destId start : UInt32) (pageId pageFrameNb : Nat),
      toAccountUid (frameUid (idBase location destId) start pageId pageFrameNb) location.uid =
        destId) ∧
    (cfg.tdDests.Nodup → JIDUtil.buildFlag .mdReq ∉ cfg.tdDests →
      JIDUtil.buildFlag .tdReq ∉ cfg.tdDests →
      ∀ account ∈ cfg.td, ∀ id, LiveExecutor.Issued cfg account id →
        (∀ nowEventTime pageEnd genTime,
          LiveExecutor.cancelOrder cfg id nowEventTime pageEnd genTime =
          CPEngine.onWriter account.dest
            (LiveExecutor.cancelRequest id nowEventTime pageEnd genTime).issue) ∧
        (∀ engine, TDEngine.Reached service cfg engine →
          ∃ s, engine.tradeServices account.dest = some (account, s)) ∧
        (∀ input : OrderInput, input.orderId = id →
          TDEngine.insertOrder service cfg input =
            TDEngine.ask service account.dest (service.insertOrder input)) ∧
        (∀ action : OrderCancel, action.orderId = id →
          TDEngine.cancelOrder service cfg action =
            TDEngine.ask service account.dest (service.cancelOrder action)) ∧
        (∀ req : AccountReq, req.id = id →
          TDEngine.onAccountReq service cfg req =
            TDEngine.ask service account.dest (service.reqAccountInfo req))) := by
  refine ⟨toAccountUid_frameUid, fun distinct md td account registered id issued => ?_⟩
  have decoded := issued.decodes registered ⟨md, td⟩
  refine ⟨fun t pe g => ?_, fun engine reached => reached.serves distinct account registered,
    ?_, ?_, ?_⟩
  · rw [← decoded]
    rfl
  · rintro input rfl
    rw [TDEngine.insertOrder, decoded]
  · rintro action rfl
    rw [TDEngine.cancelOrder, decoded]
  · rintro req rfl
    rw [TDEngine.onAccountReq, decoded]

end Routing

theorem CPEngine.addWriter_fresh (engine : CPEngine) {disk : Disk} {location : JLocation}
    {dest : UInt32} (fresh : disk location dest = JournalFiles.fresh) (clock : Int64 × Int64) :
    addWriter 0 location dest clock (engine, disk) = .ok ⟨⟩
      (⟨Function.update engine.writers dest
        (some ((handleAt location dest false clock.1).atEnd PagedLog.empty))⟩,
        disk.put location dest (JournalFiles.fresh.addPage 1 (findPageSize location))) :=
  addWriter_ok (by rw [fresh, make_fresh])

/-- Writers of different destinations, each made on an empty journal. -/
theorem CPEngine.addWriters_fresh (clock : Nat → Int64 × Int64)
    (entries : List ((JLocation × UInt32) × Nat))
    (distinct : (entries.map fun entry => entry.1.2).Nodup) (engine : CPEngine) (disk : Disk)
    (fresh : ∀ entry ∈ entries, disk entry.1.1 entry.1.2 = JournalFiles.fresh) :
    ∃ engine' disk', (entries.forM fun entry => addWriter 0 entry.1.1 entry.1.2 (clock entry.2))
      (engine, disk) =
        .ok ⟨⟩ (engine', disk') ∧
      (∀ entry ∈ entries, engine'.writers entry.1.2 =
          some ((handleAt entry.1.1 entry.1.2 false (clock entry.2).1).atEnd PagedLog.empty) ∧
        disk' entry.1.1 entry.1.2 = JournalFiles.fresh.addPage 1 (findPageSize entry.1.1)) ∧
      ∀ dest ∉ entries.map fun entry => entry.1.2,
        engine'.writers dest = engine.writers dest ∧ ∀ location, disk' location dest =
          disk location dest := by
  induction entries generalizing engine disk with
  | nil => exact ⟨engine, disk, rfl, by simp, fun _ _ => ⟨rfl, fun _ => rfl⟩⟩
  | cons entry entries ih =>
    obtain ⟨⟨location, dest⟩, i⟩ := entry
    rw [List.map_cons, List.nodup_cons] at distinct
    have made := addWriter_fresh engine (fresh _ List.mem_cons_self) (clock i)
    obtain ⟨engine', disk', ran, all, others⟩ := ih distinct.2
      ⟨Function.update engine.writers dest
        (some ((handleAt location dest false (clock i).1).atEnd PagedLog.empty))⟩
      (disk.put location dest (JournalFiles.fresh.addPage 1 (findPageSize location))) (by
        intro entry member
        have apart : entry.1.2 ≠ dest :=
          fun same => distinct.1 (List.mem_map.mpr ⟨entry, member, same⟩)
        rw [Disk.put, if_neg fun both => apart both.2]
        exact fresh entry (List.mem_cons_of_mem _ member))
    have here := others dest distinct.1
    refine ⟨engine', disk', ?_, ?_, ?_⟩
    · exact (bind_ok made _).trans ran
    · refine List.forall_mem_cons.mpr ⟨⟨?_, ?_⟩, all⟩
      · exact here.1.trans (Function.update_self _ _ _)
      · exact (here.2 location).trans (if_pos ⟨rfl, rfl⟩)
    · intro other absent
      rw [List.map_cons, List.mem_cons, not_or] at absent
      have rest := others other absent.2
      refine ⟨rest.1.trans (Function.update_of_ne absent.1 _ _), fun l => (rest.2 l).trans ?_⟩
      rw [Disk.put, if_neg fun both => absent.1 both.2]

/-- Where the destinations are different, an engine set up on an empty disk can send an order
for every account. -/
theorem LiveExecutor.issued_fresh (cfg : MainCfg)
    (distinct : ((CPEngine.journals cfg).map Prod.snd).Nodup) {account : Account}
    (registered : account ∈ cfg.td) (order : Object sizeofOrderInput) :
      ∃ id, Issued cfg account id := by
  have firsts : (CPEngine.journals cfg).zipIdx.map (fun entry => entry.1.2) =
      (CPEngine.journals cfg).map Prod.snd := by
    rw [← List.zipIdx_map_fst 0 (CPEngine.journals cfg), List.map_map, List.zipIdx_map_fst]
    rfl
  obtain ⟨engine, disk, ran, all, _⟩ :=
    CPEngine.addWriters_fresh (fun _ => (1, 2)) (CPEngine.journals cfg).zipIdx
    (firsts ▸ distinct) .empty (fun _ _ => JournalFiles.fresh) fun _ _ => rfl
  have reached : CPEngine.Reached cfg (engine, disk) := .setup 0 (fun _ => (1, 2)) _ ran
  have journal : (cfg.tdLocation, account.dest) ∈ CPEngine.journals cfg :=
    List.mem_append_left _ (List.mem_map_of_mem (List.mem_map_of_mem registered))
  obtain ⟨i, found⟩ := List.mem_iff_getElem?.mp journal
  obtain ⟨entry, files⟩ := all _ (List.mk_mem_zipIdx_iff_getElem?.mpr found)
  let r := orderRequest order 3 4 5 6
  let w := handleAt cfg.tdLocation account.dest false 1
  have adm : r.Admissible w.location :=
    ⟨(by decide : orderInputTag ≠ pageEndTag), (by decide : sizeofOrderInput + 104 < 16 * mebibyte)⟩
  obtain ⟨data, files', _, issued, _⟩ := w.issue_append r (Layout.start cfg.tdLocation) adm
  dsimp only at files
  rw [← files] at issued
  exact ⟨_, .order reached (CPEngine.onWriter_ok entry issued)⟩

/-- A service that is always ready and does nothing. -/
def readyService : TradeService Unit where
  create := fun _ => ()
  setup := fun _ s => s
  start := id
  getState := fun _ => .ready
  insertOrder := fun _ s => (true, s)
  cancelOrder := fun _ s => (true, s)
  reqAccountInfo := fun _ s => (true, s)
  handleBacktestSyncSignal := fun _ s => (true, s)

theorem requests_routed_one :
    ∃ cfg account id, LiveExecutor.Issued cfg account id ∧
      LiveExecutor.cancelOrder cfg id 7 8 9 =
        CPEngine.onWriter account.dest (LiveExecutor.cancelRequest id 7 8 9).issue ∧
      ∃ s, (TDEngine.onSetup readyService cfg 0).tradeServices account.dest =
        some (account, s) := by
  let account : Account := ⟨"sim", "account"⟩
  let cfg : MainCfg := ⟨.backtest, "/runtime", [], [account]⟩
  obtain ⟨id, issued⟩ :=
    LiveExecutor.issued_fresh cfg (by decide +kernel) List.mem_cons_self blankOrder
  have routed :=
    (requests_routed readyService cfg).2 (by decide +kernel) (by decide +kernel) (by decide +kernel)
    account List.mem_cons_self id issued
  exact ⟨cfg, account, id, issued, routed.1 7 8 9, routed.2.1 _ (.setup 0)⟩

/-- Two accounts that mirror each other share a destination, and the requests of the first go
to the service of the second. -/
theorem mirrored_misrouted :
    ∃ (cfg : MainCfg) (account other : Account), account ∈ cfg.td ∧ other ≠ account ∧
      ∀ start pageId pageFrameNb, ∃ s, (TDEngine.onSetup readyService cfg 0).tradeServices
        (toAccountUid (frameUid (idBase cfg.tdLocation account.dest) start pageId pageFrameNb)
          cfg.getTdLocationUid) = some (other, s) := by
  let account : Account := ⟨"sim", "account"⟩
  let other : Account := ⟨"account", "sim"⟩
  have mirrored : account.dest = other.dest := UInt32.xor_comm _ _
  refine ⟨⟨.backtest, "/runtime", [], [account, other]⟩, account, other,
    List.mem_cons_self, by decide, fun start p n => ⟨(), ?_⟩⟩
  rw [MainCfg.getTdLocationUid, toAccountUid_frameUid, mirrored]
  exact Function.update_self _ _ _

end BTrader
