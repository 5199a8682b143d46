import BTrader.Strategy.LiveExecutor

/-! The parameters `BinanceBroker` builds for placing and for cancelling an order, from the
objects the executor wrote. Strings are their bytes. -/
namespace BTrader.BinanceBroker
open ByteMemory Infra

abbrev Bytes := List UInt8

def ascii (s : String) : Bytes := s.toUTF8.toList

/-- `std::map<std::string, std::string>` -/
abbrev Params := String → Option Bytes

def Params.empty : Params := fun _ => none

def Params.put (params : Params) (key : String) (value : Bytes) : Params :=
  Function.update params key (some value)

@[simp] theorem Params.put_same (params : Params) (key : String) (value : Bytes) :
    params.put key value key = some value :=
  Function.update_self _ _ _

@[simp] theorem Params.put_other (params : Params) {key other : String} (different : other ≠ key)
    (value : Bytes) :
    params.put key value other = params other :=
  Function.update_of_ne different _ _

/-- `s_sides`, by the enumerators' values. -/
def sides : UInt8 → Option String
  | 0 => some "BUY"
  | 1 => some "SELL"
  | _ => none

/-- `s_price_types` -/
def priceTypes : UInt8 → Option String
  | 0 => some "LIMIT"
  | 1 => some "MARKET"
  | 2 => some "FAK_BEST5"
  | 3 => some "FORWARD_BEST"
  | 4 => some "REVERSE_BEST"
  | 5 => some "FAK"
  | 6 => some "FOK"
  | _ => none

/-- `s_time_conditions` -/
def timeConditions : UInt8 → Option String
  | 0 => some "IOC"
  | 1 => some "GFD"
  | 2 => some "GTC"
  | 3 => some "FOK"
  | _ => none

/-- `at` of such a table. -/
def atKey (table : UInt8 → Option String) (key : UInt8) : Except Fault Bytes :=
  match table key with
  | some name => .ok (ascii name)
  | none => .error .outOfRange

def stringOfUInt64 (n : UInt64) : Bytes := ascii (toString n.toNat)

def stringOfInt64 (n : Int64) : Bytes := ascii (toString n.toInt)

/-- `double` values are taken by their representation, `stringOfDouble` is `std::to_string`. -/
def buildOrderParams (publicKey : Bytes) (stringOfDouble : UInt64 → Bytes)
    (input : Object sizeofOrderInput) :
    Except Fault Params := do
  let params := Params.empty.put "symbol" (input.string 16)
  let params := params.put "side" (← atKey sides (input.load8 97))
  let params := params.put "type" (← atKey priceTypes (input.load8 100))
  let params := params.put "quantity" (stringOfDouble (input.load64 88))
  let params := params.put "timeInForce" (← atKey timeConditions (input.load8 102))
  let params := params.put "timestamp" (stringOfInt64 (input.load64 112).toInt64)
  let params := params.put "apiKey" publicKey
  if input.load8 100 = 0 then return params.put "price" (stringOfDouble (input.load64 72))
  else return params

def buildCancelParams (publicKey : Bytes) (input : Object sizeofOrderCancel) : Params :=
  (((Params.empty.put "symbol" (input.string 0)).put "origClientOrderId"
    (stringOfUInt64 (input.load64 40))).put
    "timestamp" (stringOfInt64 (input.load64 64).toInt64)).put "apiKey" publicKey

/-- The cancel has the symbol of the placement and the client order id this gave, and is dated
with the time it was written. The exchange takes the id of a new order from `newClientOrderId`. -/
def Names (publicKey : Bytes) (stringOfDouble : UInt64 → Bytes) (placed : Object sizeofOrderInput)
    (cancel : Object sizeofOrderCancel) (written : Int64) : Prop :=
  ∃ placement, buildOrderParams publicKey stringOfDouble placed = .ok placement ∧
    (buildCancelParams publicKey cancel) "symbol" = placement "symbol" ∧
    (∃ id, placement "newClientOrderId" = some id ∧
      (buildCancelParams publicKey cancel) "origClientOrderId" = some id) ∧
    (buildCancelParams publicKey cancel) "timestamp" = some (stringOfInt64 written)

theorem buildOrderParams_newClientOrderId {publicKey : Bytes} {stringOfDouble : UInt64 → Bytes}
    {input : Object sizeofOrderInput} {params : Params}
    (built : buildOrderParams publicKey stringOfDouble input = .ok params) :
    params "newClientOrderId" = none := by
  unfold buildOrderParams at built
  cases side : atKey sides (input.load8 97) with
  | error e =>
    rw [side] at built
    contradiction
  | ok side' =>
    cases type : atKey priceTypes (input.load8 100) with
    | error e =>
      rw [side, type] at built
      contradiction
    | ok type' =>
      cases condition : atKey timeConditions (input.load8 102) with
      | error e =>
        rw [side, type, condition] at built
        contradiction
      | ok condition' =>
        rw [side, type, condition] at built
        have others :
            ∀ key ∈ ["symbol", "side", "type", "quantity", "timeInForce", "timestamp",
            "apiKey", "price"],
            "newClientOrderId" ≠ key := by decide
        simp only [List.forall_mem_cons] at others
        obtain ⟨symbol, side, type, quantity, timeInForce, timestamp, apiKey, price, _⟩ := others
        change (if input.load8 100 = 0 then Except.ok _ else Except.ok _) =
          Except.ok params at built
        split at built
        · cases built
          simp only [Params.put_other, symbol, side, type, quantity, timeInForce, timestamp,
            apiKey, price, ne_eq, not_false_iff]
          rfl
        · cases built
          simp only [Params.put_other, symbol, side, type, quantity, timeInForce, timestamp, apiKey,
            ne_eq, not_false_iff]
          rfl

theorem not_names (publicKey : Bytes) (stringOfDouble : UInt64 → Bytes)
    (placed : Object sizeofOrderInput) (cancel : Object sizeofOrderCancel) (written : Int64) :
      ¬ Names publicKey stringOfDouble placed cancel written := by
  rintro ⟨placement, built, _, ⟨id, given, _⟩, _⟩
  rw [buildOrderParams_newClientOrderId built] at given
  contradiction

/-- The object of a cancel keeps the symbol and the insert time that were in its place. -/
theorem cancel_stale (stale : Object sizeofOrderCancel) (id target : UInt64) :
    let cancel := (stale.store64 32 (by decide) id).store64 40 (by decide) target
    (0 ∈ stale.bytes.take 32 → cancel.string 0 = stale.string 0) ∧
      cancel.load64 64 = stale.load64 64 := by
  intro cancel
  constructor
  · intro terminated
    have first :=
      stale.string_store64_behind (a := 0) (b := 32) (by decide) id terminated (by decide)
    have still : 0 ∈ ((stale.store64 32 (by decide) id).bytes.drop 0).take (40 - 0) := by
      rw [List.drop_zero, Object.store64_bytes, List.take_append, List.take_take]
      exact List.mem_append_left _ terminated
    exact (Object.string_store64_behind _ (by decide) target still (by decide)).trans first
  · rw [Object.load64_store64_front _ (by decide) target (by decide),
      Object.load64_store64_front _ (by decide) id (by decide)]

/-- No cancel names its order: a placement gives no client order id. Symbol and timestamp of a
cancel are those of whatever object the frame held before. -/
theorem cancel_unnamed (publicKey : Bytes) (stringOfDouble : UInt64 → Bytes)
    (order inPlace : Object sizeofOrderInput)
    (stale : Object sizeofOrderCancel) (orderId actionId : UInt64)
    (nowEventTime insertTime pageEnd genTime nowEventTime' pageEnd' genTime' written : Int64) :
    let placed : Object sizeofOrderInput :=
      (LiveExecutor.orderRequest order nowEventTime insertTime pageEnd genTime).fill orderId inPlace
    let cancel : Object sizeofOrderCancel :=
      (LiveExecutor.cancelRequest orderId nowEventTime' pageEnd' genTime').fill actionId stale
    ¬ Names publicKey stringOfDouble placed cancel written ∧
      (0 ∈ stale.bytes.take 32 → (buildCancelParams publicKey cancel) "symbol" =
        some (stale.string 0)) ∧
      (buildCancelParams publicKey cancel) "timestamp" =
        some (stringOfInt64 (stale.load64 64).toInt64) := by
  intro placed cancel
  have kept := cancel_stale stale actionId orderId
  refine ⟨not_names _ _ _ _ _, fun terminated => ?_, ?_⟩
  · have apart : "symbol" ≠ "origClientOrderId" ∧ "symbol" ≠ "timestamp" ∧
      "symbol" ≠ "apiKey" := by decide
    rw [buildCancelParams, Params.put_other _ apart.2.2, Params.put_other _ apart.2.1,
      Params.put_other _ apart.1, Params.put_same]
    exact congrArg some (kept.1 terminated)
  · have apart : "timestamp" ≠ "apiKey" := by decide
    rw [buildCancelParams, Params.put_other _ apart, Params.put_same]
    exact congrArg (fun word : UInt64 => some (stringOfInt64 word.toInt64)) kept.2

/-- An order of nothing and its cancel, both written into cleared frames. -/
theorem blank_unnamed :
    ¬ ∀ (publicKey : Bytes) (stringOfDouble : UInt64 → Bytes) (order inPlace :
      Object sizeofOrderInput)
      (stale : Object sizeofOrderCancel) (orderId actionId : UInt64) (written : Int64),
      Names publicKey stringOfDouble
        ((LiveExecutor.orderRequest order 1 2 0 3).fill orderId inPlace)
        ((LiveExecutor.cancelRequest orderId 4 0 written).fill actionId stale) written := by
  intro named
  let blank (size : Nat) : Object size := ⟨List.replicate size 0, List.length_replicate⟩
  obtain ⟨placement, built, _, ⟨id, given, _⟩, _⟩ :=
    named [] (fun _ => []) (blank _) (blank _) (blank _) 7 8 5
  exact absurd ((buildOrderParams_newClientOrderId built).symm.trans given) (by simp)

end BTrader.BinanceBroker
