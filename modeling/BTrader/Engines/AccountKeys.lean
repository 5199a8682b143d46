import BTrader.Engines.OrderRouting

/-! What the engines set up for the accounts of the configuration, over any hash of strings:
which accounts they keep apart. -/
namespace BTrader
open Writer

section
variable (hashStr32 : String → UInt32)

/-- `JIDUtil::build` of the institution and the account. -/
def Account.destBy (account : Account) : UInt32 :=
  hashStr32 account.institution ^^^ hashStr32 account.account

/-- `trade_services_` after the set-up, each service with the account it was set up from. -/
def TDEngine.tradeServicesBy {σ : Type} (service : TradeService σ) (cfg : MainCfg) :
    UInt32 → Option (Account × σ) :=
  Keyed.ofList (Account.destBy hashStr32)
    (fun account => (account, service.setup account (service.create account.institution))) cfg.td

/-- The journals the trade engine joins. -/
def TDEngine.journalsBy (cfg : MainCfg) : List (JLocation × UInt32) :=
  (cfg.tdReponseLocation, JIDUtil.buildFlag .tdReq) ::
    cfg.td.map fun account => (cfg.tdLocation, account.destBy hashStr32)

/-- The virtual functions of a data service that its set-up calls. -/
structure DataService (σ : Type) where
  create : String → σ
  setup : Account → σ → σ

/-- `data_services_` after the set-up. -/
def MDEngine.dataServicesBy {σ : Type} (service : DataService σ) (cfg : MainCfg) :
    UInt32 → Option (Account × σ) :=
  Keyed.ofList (Account.destBy hashStr32)
    (fun account => (account, service.setup account (service.create account.institution))) cfg.md

def CPEngine.journalsBy (cfg : MainCfg) : List (JLocation × UInt32) :=
  cfg.td.map (fun account => (cfg.tdLocation, account.destBy hashStr32)) ++
    [(cfg.mdReqLocation, JIDUtil.buildFlag .mdReq),
      (cfg.tdReponseLocation, JIDUtil.buildFlag .tdReq)]

/-- The location each entry of `writers_` writes to after the set-up. -/
def CPEngine.writersBy (cfg : MainCfg) : UInt32 → Option JLocation :=
  Keyed.ofList Prod.snd Prod.fst (CPEngine.journalsBy hashStr32 cfg)

end

/-! With the program's own hash these are what the engines set up. -/

theorem Account.destBy_eq (account : Account) : account.destBy Infra.hashStr32 = account.dest := rfl

theorem TDEngine.tradeServicesBy_eq {σ : Type} (service : TradeService σ) (cfg : MainCfg)
    (beginTime : Int64) :
    tradeServicesBy Infra.hashStr32 service cfg = (onSetup service cfg beginTime).tradeServices :=
  (onSetup_services service cfg beginTime).symm

theorem CPEngine.journalsBy_eq (cfg : MainCfg) : journalsBy Infra.hashStr32 cfg = journals cfg := by
  simp only [journalsBy, journals, MainCfg.tdDests, List.map_map]
  rfl

/-- The writers number their frames after these locations. -/
theorem CPEngine.writersBy_eq {cfg : MainCfg} {pageRollbackSize : Nat}
    {clock : Nat → Int64 × Int64} {disk : Disk}
    {s : CPEngine × Disk} (ran : onSetup cfg pageRollbackSize clock (empty, disk) = .ok ⟨⟩ s)
    (dest : UInt32) :
    (s.1.writers dest).map Writer.frameIdBase =
      (writersBy Infra.hashStr32 cfg dest).map fun location => idBase location dest := by
  have each (entries : List ((JLocation × UInt32) × Nat)) (engine : CPEngine) (disk : Disk)
      (locations : UInt32 → Option JLocation)
      (agree : ∀ dest, (engine.writers dest).map Writer.frameIdBase = (locations dest).map fun l =>
        idBase l dest)
      (ran :
        (entries.forM fun entry => addWriter pageRollbackSize entry.1.1 entry.1.2 (clock entry.2))
          (engine, disk) =
        .ok ⟨⟩ s) :
      ∀ dest, (s.1.writers dest).map Writer.frameIdBase =
        ((entries.map Prod.fst).foldl (Keyed.put Prod.snd Prod.fst) locations dest).map fun l =>
          idBase l dest := by
    induction entries generalizing engine disk locations with
    | nil =>
      cases ran
      exact agree
    | cons entry entries ih =>
      obtain ⟨⟨location, own⟩, i⟩ := entry
      obtain ⟨_, ⟨engine₁, disk₁⟩, added, ran⟩ := Procedure.of_bind_ok ran
      change addWriter pageRollbackSize location own (clock i) (engine, disk) = _ at added
      cases made :
        Writer.make location own false pageRollbackSize (clock i).1 (clock i).2
          (disk location own) with
      | error e files =>
        rw [addWriter_error made] at added
        contradiction
      | ok w files =>
        rw [addWriter_ok made] at added
        cases added
        refine ih _ _ (Function.update locations own (some location)) (fun dest => ?_) ran
        by_cases here : dest = own
        · subst here
          simp only [Function.update_self, Option.map_some]
          exact congrArg some (make_issues made).1
        · simpa only [Function.update_of_ne here] using agree dest
  have start : ∀ dest, (empty.writers dest).map Writer.frameIdBase =
      ((fun _ => none : UInt32 → Option JLocation) dest).map fun l => idBase l dest := fun _ => rfl
  have all := each _ empty disk (fun _ => none) start ran dest
  rwa [List.zipIdx_map_fst, ← journalsBy_eq] at all

section
variable {σ τ : Type} (hashStr32 : String → UInt32) (service : TradeService σ)
    (dataService : DataService τ)
  (cfg : MainCfg)

/-- Orders for the account are written to a journal the trade engine reads, and their ids
decode to the service set up from it. -/
def Account.Served (account : Account) : Prop :=
  ∃ location, CPEngine.writersBy hashStr32 cfg (account.destBy hashStr32) = some location ∧
    (location, account.destBy hashStr32) ∈ TDEngine.journalsBy hashStr32 cfg ∧
    ∀ start pageId pageFrameNb, ∃ s, TDEngine.tradeServicesBy hashStr32 service cfg
      (toAccountUid (frameUid (idBase location (account.destBy hashStr32)) start pageId pageFrameNb)
        cfg.getTdLocationUid) = some (account, s)

/-- The destinations differ, every account has its entry in each map, and its service gets its
orders. -/
structure MainCfg.KeptApart : Prop where
  mdDests : (cfg.md.map (Account.destBy hashStr32)).Nodup
  tdDests : (cfg.td.map (Account.destBy hashStr32)).Nodup
  tradeServices : ∀ account ∈ cfg.td, ∃ s,
    TDEngine.tradeServicesBy hashStr32 service cfg (account.destBy hashStr32) = some (account, s)
  dataServices : ∀ account ∈ cfg.md, ∃ s,
    MDEngine.dataServicesBy hashStr32 dataService cfg (account.destBy hashStr32) = some (account, s)
  writers : ∀ account ∈ cfg.td, CPEngine.writersBy hashStr32 cfg (account.destBy hashStr32) =
    some cfg.tdLocation
  orders : ∀ account ∈ cfg.td, account.Served hashStr32 service cfg

/-- No two of the accounts differ in both parts while the hashes of these differ in the same
bits. -/
def Account.Separate (accounts : List Account) : Prop :=
  ∀ a ∈ accounts, ∀ b ∈ accounts, a.account ≠ b.account → a.institution ≠ b.institution →
    hashStr32 a.account ^^^ hashStr32 b.account ≠
      hashStr32 a.institution ^^^ hashStr32 b.institution

variable {hashStr32 service dataService cfg}

theorem Account.separate_iff {accounts : List Account} (distinct : accounts.Nodup)
    (injective : Set.InjOn hashStr32 {s | ∃ a ∈ accounts, s = a.account ∨ s = a.institution}) :
    (accounts.map (destBy hashStr32)).Nodup ↔ Separate hashStr32 accounts := by
  have keys : Set.InjOn (destBy hashStr32) {a | a ∈ accounts} ↔ Separate hashStr32 accounts :=
    Infra.xor_key_injOn_iff (f := Account.account) (g := Account.institution)
      (fun a b first second => by cases a; cases b; simp_all) injective
  rw [List.nodup_map_iff_inj_on distinct]
  exact keys

theorem CPEngine.writersBy_account {account : Account} (registered : account ∈ cfg.td)
    (md : account.destBy hashStr32 ≠ JIDUtil.buildFlag .mdReq)
    (td : account.destBy hashStr32 ≠ JIDUtil.buildFlag .tdReq) :
    writersBy hashStr32 cfg (account.destBy hashStr32) = some cfg.tdLocation := by
  have member : (cfg.tdLocation, account.destBy hashStr32) ∈ journalsBy hashStr32 cfg :=
    List.mem_append_left _ (List.mem_map_of_mem registered)
  refine Keyed.ofList_get member fun journal inside same => ?_
  simp only [journalsBy, List.mem_append, List.mem_map, List.mem_cons, List.not_mem_nil,
    or_false] at inside
  rcases inside with ⟨_, _, rfl⟩ | rfl | rfl
  · rfl
  · exact absurd same.symm md
  · exact absurd same.symm td

/-- A destination that is also a request's belongs to the request. -/
theorem CPEngine.writersBy_request {dest : UInt32}
    (request : dest = JIDUtil.buildFlag .mdReq ∨ dest = JIDUtil.buildFlag .tdReq) :
    writersBy hashStr32 cfg dest ≠ some cfg.tdLocation := by
  have apart : cfg.mdReqLocation ≠ cfg.tdLocation := by
    intro same
    cases congrArg JLocation.category same
  have flags : JIDUtil.buildFlag .mdReq ≠ JIDUtil.buildFlag .tdReq := by decide +kernel
  have shape : journalsBy hashStr32 cfg =
      (cfg.td.map (fun account => (cfg.tdLocation, account.destBy hashStr32)) ++
        [(cfg.mdReqLocation, JIDUtil.buildFlag .mdReq)]) ++
          [(cfg.tdReponseLocation, JIDUtil.buildFlag .tdReq)] := by
    rw [journalsBy, List.append_assoc]
    rfl
  rw [writersBy, shape, Keyed.ofList_snoc, Keyed.ofList_snoc]
  rcases request with rfl | rfl
  · rw [Function.update_of_ne flags, Function.update_self]
    exact fun same => apart (Option.some.inj same)
  · rw [Function.update_self]
    exact fun same => apart (Option.some.inj same)

theorem Account.served {account : Account} (registered : account ∈ cfg.td)
    (writer : CPEngine.writersBy hashStr32 cfg (account.destBy hashStr32) = some cfg.tdLocation)
    (own :
      ∃ s, TDEngine.tradeServicesBy hashStr32 service cfg (account.destBy hashStr32) =
      some (account, s)) :
    account.Served hashStr32 service cfg := by
  have joined : (cfg.tdLocation, account.destBy hashStr32) ∈ TDEngine.journalsBy hashStr32 cfg :=
    List.mem_cons_of_mem _ (List.mem_map_of_mem registered)
  refine ⟨cfg.tdLocation, writer, joined, fun start pageId pageFrameNb => ?_⟩
  rw [MainCfg.getTdLocationUid, toAccountUid_frameUid]
  exact own

/-- Over any hash that tells the names apart, the engines keep different accounts apart if and
only if the exclusive or of the hashes does, and no account for trading gets a request's
destination. -/
theorem MainCfg.keptApart_iff (hashStr32 : String → UInt32) (service : TradeService σ)
    (dataService : DataService τ) (cfg : MainCfg) (md : cfg.md.Nodup) (td : cfg.td.Nodup)
    (injective :
      Set.InjOn hashStr32 {s | ∃ a ∈ cfg.md ++ cfg.td, s = a.account ∨ s = a.institution}) :
    cfg.KeptApart hashStr32 service dataService ↔
      Account.Separate hashStr32 cfg.md ∧ Account.Separate hashStr32 cfg.td ∧
        ∀ account ∈ cfg.td, account.destBy hashStr32 ≠ JIDUtil.buildFlag .mdReq ∧
          account.destBy hashStr32 ≠ JIDUtil.buildFlag .tdReq := by
  have part (accounts : List Account) (inside : accounts ⊆ cfg.md ++ cfg.td) :
      Set.InjOn hashStr32 {s | ∃ a ∈ accounts, s = a.account ∨ s = a.institution} := by
    refine injective.mono ?_
    rintro s ⟨a, member, named⟩
    exact ⟨a, inside member, named⟩
  have mdIff := Account.separate_iff md (part cfg.md (List.subset_append_left _ _))
  have tdIff := Account.separate_iff td (part cfg.td (List.subset_append_right _ _))
  constructor
  · intro kept
    refine ⟨mdIff.mp kept.mdDests, tdIff.mp kept.tdDests, fun account registered => ?_⟩
    have own := kept.writers account registered
    exact ⟨fun same => CPEngine.writersBy_request (.inl same) own,
      fun same => CPEngine.writersBy_request (.inr same) own⟩
  · rintro ⟨mdApart, tdApart, free⟩
    have services (account : Account) (registered : account ∈ cfg.td) :=
      @Keyed.ofList_get_of_nodup _ _ _ _ _ (fun account : Account =>
        (account, service.setup account (service.create account.institution))) _
          (tdIff.mpr tdApart) _ registered
    have writers (account : Account) (registered : account ∈ cfg.td) :=
      CPEngine.writersBy_account registered (free account registered).1 (free account registered).2
    exact {
      mdDests := mdIff.mpr mdApart
      tdDests := tdIff.mpr tdApart
      tradeServices := fun account registered => ⟨_, services account registered⟩
      dataServices :=
        fun account registered => ⟨_, Keyed.ofList_get_of_nodup (mdIff.mpr mdApart) registered⟩
      writers := writers
      orders := fun account registered =>
        Account.served registered (writers account registered) ⟨_, services account registered⟩ }

theorem MainCfg.keptApart_iff_two :
    let cfg : MainCfg :=
      ⟨.backtest, "/runtime", [⟨"file", "data"⟩], [⟨"sim", "first"⟩, ⟨"sim", "second"⟩]⟩
    cfg.KeptApart Infra.hashStr32 readyService ⟨fun _ => (), fun _ s => s⟩ ↔
      Account.Separate Infra.hashStr32 cfg.md ∧ Account.Separate Infra.hashStr32 cfg.td ∧
        ∀ account ∈ cfg.td, account.destBy Infra.hashStr32 ≠ JIDUtil.buildFlag .mdReq ∧
          account.destBy Infra.hashStr32 ≠ JIDUtil.buildFlag .tdReq := by
  intro cfg
  have distinct : (["data", "file", "first", "sim", "second"].map Infra.hashStr32).Nodup := by
    decide +kernel
  have inside (s : String) (used : ∃ a ∈ cfg.md ++ cfg.td, s = a.account ∨ s = a.institution) :
      s ∈ ["data", "file", "first", "sim", "second"] := by
    obtain ⟨account, member, named⟩ := used
    simp only [cfg, List.cons_append, List.nil_append, List.mem_cons, List.not_mem_nil,
      or_false] at member
    rcases member with rfl | rfl | rfl <;> rcases named with rfl | rfl <;> decide
  exact keptApart_iff Infra.hashStr32 readyService ⟨fun _ => (), fun _ s => s⟩ cfg
    (by decide) (by decide)
    fun a here b there same =>
      List.inj_on_of_nodup_map distinct (inside a here) (inside b there) same

/-- Two accounts that mirror each other get one destination. -/
theorem MainCfg.mirrored_shared :
    ¬ ∀ (hashStr32 : String → UInt32) (cfg : MainCfg), cfg.md.Nodup → cfg.td.Nodup →
      Set.InjOn hashStr32 {s | ∃ a ∈ cfg.md ++ cfg.td, s = a.account ∨ s = a.institution} →
      cfg.KeptApart hashStr32 readyService (⟨fun _ => (), fun _ s => s⟩ : DataService Unit) := by
  intro kept
  let cfg : MainCfg := ⟨.live, "/runtime", [], [⟨"sim", "binance"⟩, ⟨"binance", "sim"⟩]⟩
  have distinct : (["sim", "binance"].map Infra.hashStr32).Nodup := by decide +kernel
  have inside (s : String) (used : ∃ a ∈ cfg.md ++ cfg.td, s = a.account ∨ s = a.institution) :
      s ∈ ["sim", "binance"] := by
    obtain ⟨account, member, named⟩ := used
    simp only [cfg, List.nil_append, List.mem_cons, List.not_mem_nil, or_false] at member
    rcases member with rfl | rfl <;> rcases named with rfl | rfl <;> decide
  have dests := (kept Infra.hashStr32 cfg (by decide) (by decide) fun a here b there same =>
    List.inj_on_of_nodup_map distinct (inside a here) (inside b there) same).tdDests
  exact absurd dests (by decide +kernel)

end

end BTrader
