import BTrader.Infra.Hash

/-! Journal locations, journal ids and the page file names built from them. -/
namespace BTrader

inductive RunMode where
  | live | data | replay | backtest | userApp
  deriving DecidableEq, Repr

def getModeName : RunMode → String
  | .live => "live"
  | .data => "data"
  | .replay => "replay"
  | .backtest => "backtest"
  | .userApp => "user-app"

inductive Module where
  | md | td | strategy | system
  deriving DecidableEq, Repr

def getModuleName : Module → String
  | .md => "md"
  | .td => "td"
  | .strategy => "strategy"
  | .system => "system"

/-- `locator` is the root directory the locator computed; `uid` is the hash of
`uname` when the location is made by `JLocation.make`. -/
structure JLocation where
  mode : RunMode
  category : Module
  group : String
  name : String
  locator : String
  uname : String
  uid : UInt32
  deriving DecidableEq, Repr

def JLocation.make (m : RunMode) (c : Module) (g n l : String) : JLocation :=
  let uname := getModuleName c ++ "/" ++ g ++ "/" ++ n ++ "/" ++ getModeName m
  ⟨m, c, g, n, l, uname, Infra.hashStr32 uname⟩

/-- `std::filesystem::path::operator/` on a relative right operand. -/
def joinPath (p q : String) : String :=
  if p.isEmpty || p.endsWith "/" then p ++ q else p ++ "/" ++ q

def JLocation.layoutDir (location : JLocation) : String :=
  [getModuleName location.category, location.group, location.name, "journal",
    getModeName location.mode].foldl joinPath location.locator

/-- The `{:08x}` rendering. -/
def hex08 (value : UInt32) : String :=
  let digits := Nat.toDigits 16 value.toNat
  String.ofList (List.replicate (8 - digits.length) '0' ++ digits)

def JLocation.layoutFile (location : JLocation) (name : String) : String :=
  joinPath location.layoutDir (name ++ ".journal")

namespace JIDUtil

inductive Flag where
  | mdReq | mdResponse | tdReq | tdResponse
  deriving DecidableEq, Repr

/-- The enumerator's value, the one byte that is hashed. -/
def Flag.value : Flag → UInt8
  | .mdReq => 0
  | .mdResponse => 1
  | .tdReq => 2
  | .tdResponse => 3

def buildFlag (flag : Flag) : UInt32 := Infra.hash32 [flag.value]

def build (institution accountId : String) : UInt32 :=
  Infra.hashStr32 institution ^^^ Infra.hashStr32 accountId

end JIDUtil

end BTrader
