import Mathlib

/-! Values of JSON, and the operations of `Json::json` that the message handlers use. -/
namespace BTrader.Infra

inductive Json where
  | null
  | bool (b : Bool)
  | integer (n : Int)
  | float (q : ℚ)
  | string (s : String)
  | array (items : List Json)
  | object (members : List (String × Json))

/-- A `type_error` can be caught; a key that is not there is undefined behaviour of the constant
`operator[]`. -/
inductive JsonFault where
  | typeError | missingKey
  deriving DecidableEq

namespace Json

def contains (json : Json) (key : String) : Bool :=
  match json with
  | object members => (members.lookup key).isSome
  | _ => false

/-- The constant `operator[]`. -/
def index (json : Json) (key : String) : Except JsonFault Json :=
  match json with
  | object members =>
    match members.lookup key with
    | some value => .ok value
    | none => .error .missingKey
  | _ => .error .typeError

/-- `get<std::string>` -/
def getString : Json → Except JsonFault String
  | string s => .ok s
  | _ => .error .typeError

/-- `get<bool>` -/
def getBool : Json → Except JsonFault Bool
  | bool b => .ok b
  | _ => .error .typeError

/-- `get<int>` -/
def getInt : Json → Except JsonFault Int32
  | integer n => .ok (.ofInt n)
  | float q => .ok (.ofInt (if 0 ≤ q then ⌊q⌋ else ⌈q⌉))
  | bool b => .ok (if b then 1 else 0)
  | _ => .error .typeError

/-- `get<double>`, which takes no boolean. -/
def getDouble : Json → Except JsonFault ℚ
  | integer n => .ok n
  | float q => .ok q
  | _ => .error .typeError

/-- The conversion to `int64_t`, which takes no boolean. -/
def getInt64 : Json → Except JsonFault Int64
  | integer n => .ok (.ofInt n)
  | float q => .ok (.ofInt (if 0 ≤ q then ⌊q⌋ else ⌈q⌉))
  | _ => .error .typeError

/-- What a loop goes through: a value that is no container is its own only item. -/
def items : Json → List Json
  | null => []
  | array items => items
  | object members => members.map Prod.snd
  | json => [json]

theorem contains_of_index {json value : Json} {key : String} (found : json.index key = .ok value) :
    json.contains key = true := by
  cases json with
  | object members =>
    simp only [index] at found
    simp only [contains]
    split at found
    · rename_i held
      rw [held]
      rfl
    · cases found
  | _ => cases found

end Json

/-- A sequence that succeeds has succeeded at its first step. -/
theorem ok_of_bind {ε α β : Type} {first : Except ε α} {next : α → Except ε β} {result : β}
    (run : (first >>= next) = .ok result) :
      ∃ value, first = .ok value ∧ next value = .ok result := by
  cases first with
  | error e => cases run
  | ok value => exact ⟨value, rfl, run⟩

end BTrader.Infra
