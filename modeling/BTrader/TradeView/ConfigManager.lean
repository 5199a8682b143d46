import BTrader.Infra.Json
import BTrader.Lib.Runs

/-! The instruments that the configuration manager holds, and what a load that fails makes of
them. -/
namespace BTrader
open Infra

structure InstrumentConfig where
  symbol : String
  name : String
  type : String
  exchange : String
  enabled : Bool
  deriving DecidableEq, Repr

/-- What a path leads to when it is read: documents that cannot be parsed are one kind. -/
inductive Source where
  | unreadable | malformed
  | document (root : Json)

/-- The files, and which of them `MainCfg` can be built from. -/
structure Files where
  source : String → Source
  mainCfg : String → Bool

/-- The settings that decide how the instruments are loaded, and the instruments. -/
structure ConfigManager where
  configPath : String
  instrumentsPath : String
  coreConfigFile : String
  instruments : List InstrumentConfig
  defaultInstruments : List String
  updateInterval : ℤ
  maxInstruments : ℤ
  deriving DecidableEq, Repr

namespace ConfigManager

def make : ConfigManager := ⟨"", "", "", [], [], 1000, 20⟩

section Documents

/-- `root.contains(key) && root[key].isObject()`, with the object. -/
def objectAt (root : Json) (key : String) : Option Json :=
  match root.index key with
  | .ok (.object members) => some (.object members)
  | _ => none

def arrayAt (root : Json) (key : String) : Option (List Json) :=
  match root.index key with
  | .ok (.array items) => some items
  | _ => none

def stringOf : Json → Option String
  | .string s => some s
  | _ => none

def stringAt (root : Json) (key : String) : Option String := (root.index key).toOption.bind stringOf

def boolAt (root : Json) (key : String) : Option Bool :=
  match root.index key with
  | .ok (.bool b) => some b
  | _ => none

/-- `toInt`: a number that is no `int` becomes 0. -/
def toInt (q : ℚ) : ℤ := if q.den = 1 ∧ -2 ^ 31 ≤ q.num ∧ q.num < 2 ^ 31 then q.num else 0

/-- `isDouble`, with the number as an `int`. -/
def numberAt (root : Json) (key : String) : Option ℤ :=
  match root.index key with
  | .ok (.integer n) => some (toInt n)
  | .ok (.float q) => some (toInt q)
  | _ => none

end Documents

/-- An entry of the list, where no required field is missing. -/
def parseInstrument (value : Json) : Option InstrumentConfig := do
  let symbol ← stringAt value "symbol"
  let name ← stringAt value "name"
  let type ← stringAt value "type"
  let exchange ← stringAt value "exchange"
  return ⟨symbol, name, type, exchange, (boolAt value "enabled").getD true⟩

/-- The default list, or else the first four instruments that are enabled. -/
def parseDefaults (root : Json) (instruments : List InstrumentConfig) : List String :=
  match arrayAt root "default_instruments" with
  | some values => values.filterMap stringOf
  | none => ((instruments.filter (·.enabled)).take 4).map (·.symbol)

def parseInstrumentsConfig (manager : ConfigManager) (root : Json) : Bool × ConfigManager :=
  match arrayAt root "instruments" with
  | none => (false, manager)
  | some values =>
    let instruments := values.filterMap parseInstrument
    (true, { manager with
      instruments := instruments
      defaultInstruments := parseDefaults root instruments
      updateInterval := (numberAt root "update_interval").getD manager.updateInterval
      maxInstruments := (numberAt root "max_instruments").getD manager.maxInstruments })

/-- No symbol comes a second time, or is among those seen before. -/
def distinct (symbols : List String) : List InstrumentConfig → Bool
  | [] => true
  | instrument :: rest =>
    if symbols.contains instrument.symbol then false
    else distinct (symbols ++ [instrument.symbol]) rest

def validateInstrumentsConfig (manager : ConfigManager) : Bool :=
  if manager.instruments.isEmpty then false
  else if manager.defaultInstruments.all fun symbol =>
    manager.instruments.any (·.symbol = symbol) then
    distinct [] manager.instruments
  else false

def loadInstrumentsConfig (manager : ConfigManager) (path : String) (source : Source) :
    Bool × ConfigManager :=
  let manager := { manager with instrumentsPath := path }
  match source with
  | .unreadable | .malformed => (false, manager)
  | .document root =>
    let parsed := manager.parseInstrumentsConfig root
    if parsed.1 then (parsed.2.validateInstrumentsConfig, parsed.2) else parsed

/-- Of the settings, those that the loads depend on. -/
def parseGuiConfig (manager : ConfigManager) (root : Json) : ConfigManager :=
  let config := objectAt root "config"
  let data := objectAt root "data"
  { manager with
    coreConfigFile := (config.bind (stringAt · "core_engine_config")).getD manager.coreConfigFile
    instrumentsPath := (config.bind (stringAt · "instruments_file")).getD manager.instrumentsPath
    updateInterval := (data.bind (numberAt · "update_interval")).getD manager.updateInterval }

/-- `loadConfig` up to the instruments, with the state in which these are loaded if they are:
there is none where the document is no object, where `MainCfg` throws, or where no file is named.
-/
def readConfig (manager : ConfigManager) (path : String) (files : Files) :
    ConfigManager × Option ConfigManager :=
  let manager := { manager with configPath := path }
  match files.source path with
  | .document (.object members) =>
    let read := manager.parseGuiConfig (.object members)
    if read.coreConfigFile ≠ "" ∧ ¬ files.mainCfg read.coreConfigFile then (read, none)
    else if read.instrumentsPath = "" then (read, none)
    else (read, some read)
  | _ => (manager, none)

inductive Call where
  | loadConfig (path : String) (files : Files)
  | reloadConfig (files : Files)
  | loadInstrumentsConfig (path : String) (files : Files)

/-- A load of instruments, and the state in which it starts. -/
structure Load where
  manager : ConfigManager
  path : String
  source : Source

/-- Whether the load succeeds, and the state after it. -/
def Load.run (load : Load) : Bool × ConfigManager :=
  load.manager.loadInstrumentsConfig load.path load.source

/-- The state in which the call loads instruments, or otherwise its end. -/
def Call.read (manager : ConfigManager) : Call → ConfigManager × Option Load
  | loadConfig path files => reading (manager.readConfig path files) files
  | reloadConfig files => reading (manager.readConfig manager.configPath files) files
  | loadInstrumentsConfig path files => (manager, some ⟨manager, path, files.source path⟩)
where
  reading (read : ConfigManager × Option ConfigManager) (files : Files) :
    ConfigManager × Option Load :=
    (read.1, read.2.map fun manager =>
      ⟨manager, manager.instrumentsPath, files.source manager.instrumentsPath⟩)

/-- A call, where it is kept whether any load of instruments has succeeded. -/
def act (state : ConfigManager × Bool) (call : Call) : ConfigManager × Bool :=
  match call.read state.1 with
  | (_, some load) => (load.run.2, state.2 || load.run.1)
  | (read, none) => (read, state.2)

section Validation

/-- There are instruments, no two of one symbol, and the default ones are among them. -/
structure Coherent (instruments : List InstrumentConfig) (defaults : List String) : Prop where
  some : instruments ≠ []
  known : ∀ symbol ∈ defaults, ∃ instrument ∈ instruments, instrument.symbol = symbol
  distinct : (instruments.map (·.symbol)).Nodup

theorem distinct_iff (symbols : List String) (instruments : List InstrumentConfig) :
    distinct symbols instruments = true ↔
    (instruments.map (·.symbol)).Nodup ∧
      ∀ instrument ∈ instruments, instrument.symbol ∉ symbols := by
  induction instruments generalizing symbols with
  | nil => simp [distinct]
  | cons instrument rest ih =>
    rw [distinct]
    by_cases seen : instrument.symbol ∈ symbols
    · rw [if_pos (by simpa using seen)]
      exact iff_of_false Bool.false_ne_true fun apart => apart.2 instrument List.mem_cons_self seen
    · rw [if_neg (by simpa using seen), ih, List.map_cons, List.nodup_cons, List.forall_mem_cons]
      constructor
      · rintro ⟨nodup, apart⟩
        refine ⟨⟨?_, nodup⟩, seen, fun other member inside =>
          apart other member (List.mem_append_left _ inside)⟩
        intro again
        obtain ⟨other, member, same⟩ := List.mem_map.mp again
        exact apart other member (List.mem_append_right _ (List.mem_singleton.mpr same))
      · rintro ⟨⟨fresh, nodup⟩, -, apart⟩
        refine ⟨nodup, fun other member inside => ?_⟩
        rcases List.mem_append.mp inside with old | same
        · exact apart other member old
        · exact fresh (List.mem_map.mpr ⟨other, member, List.mem_singleton.mp same⟩)

theorem validateInstrumentsConfig_iff (manager : ConfigManager) :
    manager.validateInstrumentsConfig = true ↔
      Coherent manager.instruments manager.defaultInstruments := by
  have known :
      (manager.defaultInstruments.all fun symbol => manager.instruments.any (·.symbol = symbol)) =
      true ↔
      ∀ symbol ∈ manager.defaultInstruments, ∃ instrument ∈ manager.instruments, instrument.symbol =
        symbol := by
    simp
  have apart :
      distinct [] manager.instruments = true ↔ (manager.instruments.map (·.symbol)).Nodup := by
    rw [distinct_iff]
    exact and_iff_left fun _ _ none => absurd none List.not_mem_nil
  unfold validateInstrumentsConfig
  constructor
  · intro valid
    split at valid
    · contradiction
    · rename_i nonempty
      split at valid
      · rename_i all
        exact ⟨fun none => nonempty (by rw [none]; rfl), known.mp all, apart.mp valid⟩
      · contradiction
  · intro coherent
    rw [if_neg (by simpa using coherent.some), if_pos (known.mpr coherent.known)]
    exact apart.mpr coherent.distinct

end Validation

section Loads

/-- The four members that a load of instruments fills. -/
structure Same (manager other : ConfigManager) : Prop where
  instruments : manager.instruments = other.instruments
  defaultInstruments : manager.defaultInstruments = other.defaultInstruments
  updateInterval : manager.updateInterval = other.updateInterval
  maxInstruments : manager.maxInstruments = other.maxInstruments

/-- A load that fails leaves the members as they were. -/
def Load.Keeps (load : Load) : Prop := load.run.1 = false → Same load.run.2 load.manager

/-- The document says just what the members hold already. -/
structure Repeats (manager : ConfigManager) (root : Json)
    (listed : List InstrumentConfig) : Prop where
  instruments : listed = manager.instruments
  defaults : parseDefaults root listed = manager.defaultInstruments
  interval : ∀ n ∈ numberAt root "update_interval", n = manager.updateInterval
  maximum : ∀ n ∈ numberAt root "max_instruments", n = manager.maxInstruments

/-- The list of instruments of a source, with the document it is in. -/
def Lists (source : Source) (root : Json) (values : List Json) : Prop :=
  source = .document root ∧ arrayAt root "instruments" = some values

/-- Where the document has a list of instruments, it is coherent, or it repeats what is there. -/
def Load.Meets (load : Load) : Prop :=
  ∀ root values, Lists load.source root values →
    Coherent (values.filterMap parseInstrument)
      (parseDefaults root (values.filterMap parseInstrument)) ∨
      Repeats load.manager root (values.filterMap parseInstrument)

theorem getD_eq_iff {α : Type} (found : Option α) (x : α) :
    found.getD x = x ↔ ∀ y ∈ found, y = x := by
  cases found <;> simp

/-- The members as a document fills them. -/
def filled (manager : ConfigManager) (path : String) (root : Json) (values : List Json) :
    ConfigManager :=
  { manager with
    instrumentsPath := path
    instruments := values.filterMap parseInstrument
    defaultInstruments := parseDefaults root (values.filterMap parseInstrument)
    updateInterval := (numberAt root "update_interval").getD manager.updateInterval
    maxInstruments := (numberAt root "max_instruments").getD manager.maxInstruments }

/-- A load has filled the members and succeeds where they are coherent, or it has found no list,
fails and has changed nothing. -/
theorem Load.run_cases (load : Load) :
    (∃ root values, Lists load.source root values ∧
      load.run = ((filled load.manager load.path root values).validateInstrumentsConfig,
        filled load.manager load.path root values)) ∨
    ((∀ root values, ¬ Lists load.source root values) ∧
      load.run = (false, { load.manager with instrumentsPath := load.path })) := by
  obtain ⟨manager, path, source⟩ := load
  cases source with
  | unreadable => exact .inr ⟨fun _ _ lists => Source.noConfusion lists.1, rfl⟩
  | malformed => exact .inr ⟨fun _ _ lists => Source.noConfusion lists.1, rfl⟩
  | document root =>
    cases listed : arrayAt root "instruments" with
    | some values =>
      refine .inl ⟨root, values, ⟨rfl, listed⟩, ?_⟩
      simp only [run, loadInstrumentsConfig, parseInstrumentsConfig, listed, if_true]
      rfl
    | none =>
      refine .inr ⟨?_, ?_⟩
      · rintro root values ⟨same, found⟩
        cases same
        rw [listed] at found
        contradiction
      · simp [run, loadInstrumentsConfig, parseInstrumentsConfig, listed]

theorem filled_same_iff (manager : ConfigManager) (path : String) (root : Json)
    (values : List Json) :
    Same (filled manager path root values) manager ↔
      Repeats manager root (values.filterMap parseInstrument) := by
  constructor
  · intro same
    exact ⟨same.instruments, same.defaultInstruments, (getD_eq_iff _ _).mp same.updateInterval,
      (getD_eq_iff _ _).mp same.maxInstruments⟩
  · intro repeats
    exact ⟨repeats.instruments, repeats.defaults, (getD_eq_iff _ _).mpr repeats.interval,
      (getD_eq_iff _ _).mpr repeats.maximum⟩

/-- A load that fails has changed nothing just when the document is fit for the members or repeats
them. -/
theorem Load.keeps_iff (load : Load) : load.Keeps ↔ load.Meets := by
  rcases load.run_cases with ⟨root, values, lists, run⟩ | ⟨none, run⟩
  · have valid := validateInstrumentsConfig_iff (filled load.manager load.path root values)
    have same := filled_same_iff load.manager load.path root values
    unfold Keeps Meets
    rw [run, same, ← Bool.not_eq_true, valid]
    constructor
    · rintro kept root' values' ⟨document, listed⟩
      obtain rfl : root = root' := Source.document.inj (lists.1.symm.trans document)
      obtain rfl : values = values' := Option.some.inj (lists.2.symm.trans listed)
      by_cases coherent :
        Coherent (values.filterMap parseInstrument)
          (parseDefaults root (values.filterMap parseInstrument))
      · exact Or.inl coherent
      · exact Or.inr (kept coherent)
    · intro meets incoherent
      exact (meets root values lists).resolve_left incoherent
  · refine iff_of_true (fun _ => ?_) fun root values lists => (none root values lists).elim
    rw [run]
    exact ⟨rfl, rfl, rfl, rfl⟩

/-- A load that succeeds has been validated. -/
theorem Load.valid_of_success {load : Load} (success : load.run.1 = true) :
    load.run.2.validateInstrumentsConfig = true := by
  rcases load.run_cases with ⟨root, values, -, run⟩ | ⟨-, run⟩
  · rw [run] at success ⊢
    exact success
  · rw [run] at success
    contradiction

end Loads

section Runs

/-- The two managers hold the same instruments. -/
structure Alike (manager other : ConfigManager) : Prop where
  instruments : manager.instruments = other.instruments
  defaultInstruments : manager.defaultInstruments = other.defaultInstruments

theorem Alike.valid {manager other : ConfigManager} (alike : Alike manager other) :
    manager.validateInstrumentsConfig = other.validateInstrumentsConfig := by
  unfold validateInstrumentsConfig
  rw [alike.instruments, alike.defaultInstruments]

theorem readConfig_alike (manager : ConfigManager) (path : String) (files : Files) :
    Alike (manager.readConfig path files).1 manager ∧
      ∀ read ∈ (manager.readConfig path files).2, Alike read manager := by
  unfold readConfig
  split
  · dsimp only
    split
    · exact ⟨⟨rfl, rfl⟩, fun read none => by contradiction⟩
    · split
      · exact ⟨⟨rfl, rfl⟩, fun read none => by contradiction⟩
      · refine ⟨⟨rfl, rfl⟩, fun read some => ?_⟩
        cases some
        exact ⟨rfl, rfl⟩
  · exact ⟨⟨rfl, rfl⟩, fun read none => by contradiction⟩

/-- Up to a load of instruments, the instruments stay. -/
theorem Call.read_alike (manager : ConfigManager) (call : Call) :
    Alike (call.read manager).1 manager ∧
      ∀ load ∈ (call.read manager).2, Alike load.manager manager := by
  have reading (path : String) (files : Files) :
      Alike (Call.read.reading (manager.readConfig path files) files).1 manager ∧
        ∀ load ∈ (Call.read.reading (manager.readConfig path files) files).2,
          Alike load.manager manager := by
    have alike := readConfig_alike manager path files
    refine ⟨alike.1, fun load found => ?_⟩
    obtain ⟨read, held, rfl⟩ := Option.mem_map.mp found
    exact alike.2 read held
  cases call with
  | loadConfig path files => exact reading path files
  | reloadConfig files => exact reading manager.configPath files
  | loadInstrumentsConfig path files =>
    refine ⟨⟨rfl, rfl⟩, fun load found => ?_⟩
    cases found
    exact ⟨rfl, rfl⟩

/-- Once a load of instruments has succeeded, what is held is valid. -/
def Sound (state : ConfigManager × Bool) : Prop :=
  state.2 = true → state.1.validateInstrumentsConfig = true

/-- Each load of the call meets the condition. -/
def Meets (state : ConfigManager × Bool) (call : Call) : Prop :=
  ∀ load ∈ (call.read state.1).2, load.Meets

/-- Each load of the call that fails changes nothing. -/
def Keeps (state : ConfigManager × Bool) (call : Call) : Prop :=
  ∀ load ∈ (call.read state.1).2, load.Keeps

theorem act_sound (state : ConfigManager × Bool) (call : Call) (sound : Sound state)
    (meets : Meets state call) :
    Sound (act state call) := by
  have alike := call.read_alike state.1
  unfold Sound act
  split
  · rename_i read load found
    intro done
    cases success : load.run.1 with
    | true => exact load.valid_of_success success
    | false =>
      have before : state.2 = true := by simpa [success] using done
      have member : load ∈ (call.read state.1).2 := by rw [found]; rfl
      have same := load.keeps_iff.mpr (meets load member) success
      have kept : Alike load.run.2 state.1 :=
        ⟨same.instruments.trans (alike.2 load member).instruments,
          same.defaultInstruments.trans (alike.2 load member).defaultInstruments⟩
      rw [kept.valid]
      exact sound before
  · rename_i read found
    intro done
    have kept : Alike read state.1 := by simpa [found] using alike.1
    rw [kept.valid]
    exact sound done

/-- In a run, each load that fails leaves the members as they were just when each load meets the
condition, and then the instruments are valid from the first success on. -/
theorem run_loads (calls : List Call) :
    ((∀ move ∈ Runs.moves act (make, false) calls, Keeps move.1 move.2) ↔
      ∀ move ∈ Runs.moves act (make, false) calls, Meets move.1 move.2) ∧
    ((∀ move ∈ Runs.moves act (make, false) calls, Meets move.1 move.2) →
      ∀ state ∈ Runs.states act (make, false) calls, Sound state) := by
  refine ⟨?_, fun meets => Runs.invariant act_sound (fun none => Bool.noConfusion none) calls meets⟩
  unfold Keeps Meets
  simp only [Load.keeps_iff]

/-- An instrument that is there twice. -/
def twice : Json :=
  .object [("instruments", .array [
    .object [("symbol", .string "BTC"), ("name", .string "BTC"), ("type", .string "crypto"),
      ("exchange", .string "X")],
    .object [("symbol", .string "BTC"), ("name", .string "BTC"), ("type", .string "crypto"),
      ("exchange", .string "X")]])]

/-- The load fails, and leaves both entries behind. -/
theorem twice_kept :
    ¬ ∀ calls : List Call, ∀ move ∈ Runs.moves act (make, false) calls, Keeps move.1 move.2 := by
  intro keeps
  have kept :=
    keeps [.loadInstrumentsConfig "instruments.json" ⟨fun _ => .document twice, fun _ => true⟩] _
    List.mem_cons_self _ rfl
  have failed : (Load.mk make "instruments.json" (.document twice)).run.1 = false := by decide
  exact absurd (kept failed).instruments (by decide)

end Runs

end ConfigManager
end BTrader
