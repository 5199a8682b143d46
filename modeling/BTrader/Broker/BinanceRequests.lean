import BTrader.Lib.Runs

/-! The requests of `BinanceBroker` and their responses. The trading thread formats a request,
hands it to the client and records it; the network thread looks up the id of a response and
then the type that is recorded for it. -/
namespace BTrader.BinanceBroker

inductive BrokerReqType where
  | unknown | orderPlace | orderCancel | orderBook | orderState | positionBook
  deriving DecidableEq, Repr

/-- `req_id2type_`, each type with the time it was recorded. -/
structure RequestBook where
  reqId2type : UInt64 → Option (BrokerReqType × UInt64)

namespace RequestBook

def empty : RequestBook := ⟨fun _ => none⟩

def addRequest (book : RequestBook) (reqId : UInt64) (reqType : BrokerReqType) (now : UInt64) :
    RequestBook :=
  ⟨Function.update book.reqId2type reqId (some (reqType, now))⟩

def hasRequest (book : RequestBook) (reqId : UInt64) : Bool := (book.reqId2type reqId).isSome

def getRequest (book : RequestBook) (reqId : UInt64) : BrokerReqType :=
  match book.reqId2type reqId with
  | some entry => entry.1
  | none => .unknown

end RequestBook

structure OrderRequest where
  method : String
  requestId : UInt64
  reqType : BrokerReqType
  deriving DecidableEq, Repr

/-- Where the trading thread stands in `send_order_request`. -/
inductive Sending where
  | idle
  | formatted (request : OrderRequest)
  | written (request : OrderRequest)

/-- Where the network thread stands in `on_msg`, and for the response to which request. -/
inductive Receiving where
  | waiting
  | known (request : OrderRequest)

/-- The broker with what has passed: the requests handed to the client, those recorded, the
newest first, and every response with the type it was dispatched with, or none when it was
dropped. -/
structure Traffic where
  reqBook : RequestBook
  sending : Sending
  receiving : Receiving
  sent : List OrderRequest
  recorded : List OrderRequest
  responses : List (OrderRequest × Option BrokerReqType)

inductive Action where
  | format (request : OrderRequest)
  /-- The client's `write` with its result. -/
  | write (result : Int)
  | addRequest (now : UInt64)
  /-- A response arrives and `has_request` is asked. -/
  | hasRequest (request : OrderRequest)
  | getRequest

namespace Traffic

def start : Traffic := ⟨.empty, .idle, .waiting, [], [], []⟩

/-- One step of either thread; a step that is not its next one does nothing. -/
def act (t : Traffic) : Action → Traffic
  | .format request =>
    match t.sending with
    | .idle => { t with sending := .formatted request }
    | _ => t
  | .write result =>
    match t.sending with
    | .formatted request =>
      if result < 0 then { t with sending := .idle }
      else { t with sending := .written request, sent := t.sent ++ [request] }
    | _ => t
  | .addRequest now =>
    match t.sending with
    | .written request =>
      { t with
        sending := .idle
        reqBook := t.reqBook.addRequest request.requestId request.reqType now
        recorded := request :: t.recorded }
    | _ => t
  | .hasRequest request =>
    match t.receiving with
    | .waiting =>
      if request ∉ t.sent then t
      else if t.reqBook.hasRequest request.requestId then { t with receiving := .known request }
      else { t with responses := t.responses ++ [(request, none)] }
    | .known _ => t
  | .getRequest =>
    match t.receiving with
    | .waiting => t
    | .known request =>
      { t with
        receiving := .waiting
        responses := t.responses ++ [(request, some (t.reqBook.getRequest request.requestId))] }

/-- Every response was dispatched with the type of its request. -/
def Answered (t : Traffic) : Prop := ∀ response ∈ t.responses, response.2 = some response.1.reqType

/-- The request recorded last under an id. -/
def lastRecorded (t : Traffic) (requestId : UInt64) : Option OrderRequest :=
  t.recorded.find? (·.requestId = requestId)

/-- The book has the types that were recorded last, and what the network thread found is
there. -/
structure Consistent (t : Traffic) : Prop where
  types :
    ∀ id, (t.reqBook.reqId2type id).map Prod.fst = (t.lastRecorded id).map OrderRequest.reqType
  known : ∀ request, t.receiving = .known request → (t.lastRecorded request.requestId).isSome

/-- A response comes when a request of its id has been recorded, and its type is looked up
while the last one recorded is of its request's type. -/
def Timely (t : Traffic) : Action → Prop
  | .hasRequest request => t.receiving = .waiting → request ∈ t.sent →
      ∃ other ∈ t.recorded, other.requestId = request.requestId
  | .getRequest => ∀ request, t.receiving = .known request →
      (t.lastRecorded request.requestId).map OrderRequest.reqType = some request.reqType
  | _ => True

variable {t : Traffic}

theorem lastRecorded_isSome {id : UInt64} :
    (t.lastRecorded id).isSome ↔ ∃ other ∈ t.recorded, other.requestId = id := by
  simp [lastRecorded, List.find?_isSome]

theorem Consistent.hasRequest_iff (consistent : t.Consistent) (id : UInt64) :
    t.reqBook.hasRequest id ↔ (t.lastRecorded id).isSome := by
  have same := congrArg Option.isSome (consistent.types id)
  rw [Option.isSome_map, Option.isSome_map] at same
  rw [RequestBook.hasRequest, same]

theorem Consistent.getRequest_eq (consistent : t.Consistent) {id : UInt64}
    (recorded : (t.lastRecorded id).isSome) :
    some (t.reqBook.getRequest id) = (t.lastRecorded id).map OrderRequest.reqType := by
  have there := (consistent.hasRequest_iff id).mpr recorded
  obtain ⟨entry, found⟩ := Option.isSome_iff_exists.mp there
  rw [← consistent.types, RequestBook.getRequest, found]
  rfl

theorem act_consistent (consistent : t.Consistent) (action : Action) :
    (t.act action).Consistent := by
  cases action with
  | format request =>
    cases sending :
      t.sending <;> simp only [act, sending] <;> exact ⟨consistent.types, consistent.known⟩
  | write result =>
    cases sending : t.sending with
    | formatted request =>
      simp only [act, sending]
      split <;> exact ⟨consistent.types, consistent.known⟩
    | _ =>
      simp only [act, sending]
      exact consistent
  | addRequest now =>
    cases sending : t.sending with
    | written request =>
      simp only [act, sending]
      constructor
      · intro id
        by_cases here : request.requestId = id
        · subst here
          simp [RequestBook.addRequest, lastRecorded]
        · have apart : id ≠ request.requestId := Ne.symm here
          simpa [RequestBook.addRequest, lastRecorded, here,
            Function.update_of_ne apart] using consistent.types id
      · intro other found
        have before := lastRecorded_isSome.mp (consistent.known other found)
        obtain ⟨r, member, same⟩ := before
        exact lastRecorded_isSome.mpr ⟨r, List.mem_cons_of_mem _ member, same⟩
    | _ =>
      simp only [act, sending]
      exact consistent
  | hasRequest request =>
    cases receiving : t.receiving with
    | waiting =>
      simp only [act, receiving]
      split
      · exact consistent
      · split
        · rename_i there
          refine ⟨consistent.types, fun other same => ?_⟩
          cases same
          exact (consistent.hasRequest_iff _).mp there
        · exact ⟨consistent.types, fun other found => by contradiction⟩
    | known other =>
      simp only [act, receiving]
      exact consistent
  | getRequest =>
    cases receiving : t.receiving with
    | waiting =>
      simp only [act, receiving]
      exact consistent
    | known request =>
      simp only [act, receiving]
      exact ⟨consistent.types, fun other found => by contradiction⟩

theorem answered_snoc {t' : Traffic} (request : OrderRequest) (dispatched : Option BrokerReqType)
    (answered : t.Answered) (responses : t'.responses = t.responses ++ [(request, dispatched)]) :
    t'.Answered ↔ dispatched = some request.reqType := by
  rw [Answered, responses, List.forall_mem_append]
  constructor
  · intro all
    exact all.2 _ (List.mem_singleton_self _)
  · rintro same
    exact ⟨answered, by simpa using same⟩

/-- A step keeps the responses in order just when it is timely. -/
theorem act_answered (consistent : t.Consistent) (action : Action) (answered : t.Answered) :
    (t.act action).Answered ↔ t.Timely action := by
  have quiet {t' : Traffic} (same : t'.responses = t.responses) :
      t'.Answered := by rwa [Answered, same]
  cases action with
  | format request =>
    exact iff_of_true (quiet (by cases sending : t.sending <;> simp only [act, sending])) trivial
  | write result =>
    refine iff_of_true (quiet ?_) trivial
    cases sending : t.sending <;> simp only [act, sending]
    split <;> rfl
  | addRequest now =>
    exact iff_of_true (quiet (by cases sending : t.sending <;> simp only [act, sending])) trivial
  | hasRequest request =>
    cases receiving : t.receiving with
    | known other =>
      have idle : ¬ t.receiving = .waiting := by simp [receiving]
      exact iff_of_true (quiet (by simp only [act, receiving])) fun waits => absurd waits idle
    | waiting =>
      have found := (consistent.hasRequest_iff request.requestId).trans lastRecorded_isSome
      by_cases sent : request ∈ t.sent
      · simp only [Timely, receiving, sent, true_implies, ← found]
        by_cases there : t.reqBook.hasRequest request.requestId
        · exact iff_of_true
            (quiet (by simp only [act, receiving, sent, there, not_true, if_true, if_false])) there
        · rw [answered_snoc request none answered
            (by simp only [act, receiving, sent, there, not_true, if_false]; rfl)]
          simp [there]
      · exact iff_of_true (quiet (by simp only [act, receiving, sent, not_false_iff, if_true]))
          fun _ member => absurd member sent
  | getRequest =>
    cases receiving : t.receiving with
    | waiting =>
      have idle (request : OrderRequest) : ¬ t.receiving = .known request := by simp [receiving]
      exact iff_of_true (quiet (by simp only [act, receiving])) fun request here =>
        absurd here (idle request)
    | known request =>
      simp only [Timely, receiving, Receiving.known.injEq, forall_eq']
      rw [← consistent.getRequest_eq (consistent.known request receiving)]
      exact answered_snoc request _ answered (by simp only [act, receiving])

/-- In every run every response is dispatched with the type that was sent, if and only if each
comes after the request was recorded and before one of another type takes its id. -/
theorem answered_iff (actions : List Action) :
    (∀ t ∈ Runs.states act start actions, t.Answered) ↔
      ∀ move ∈ Runs.moves act start actions, move.1.Timely move.2 := by
  have started : start.Consistent := ⟨fun _ => rfl, fun _ found => by contradiction⟩
  have first : start.Answered := by simp [Answered, start]
  exact Runs.states_iff (fun t action consistent (_ : True) => act_consistent consistent action)
    (fun t action consistent _ answered =>
      act_answered consistent action answered) started first actions
    fun _ _ => trivial

/-- The exchange answers before `write` returns. -/
theorem early_dropped :
    ¬ ∀ actions : List Action, ∀ t ∈ Runs.states act start actions, t.Answered := by
  intro answered
  let request : OrderRequest := ⟨"order.place", 7, .orderPlace⟩
  have last := answered [.format request, .write 90, .hasRequest request, .addRequest 3] _
    (List.mem_of_getLast? rfl) (request, none) (by decide)
  contradiction

end Traffic
end BTrader.BinanceBroker
