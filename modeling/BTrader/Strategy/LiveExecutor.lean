import BTrader.Journal.FrameIds
import BTrader.Lib.ObjectFields

/-! The requests of the live executor, as the objects it assigns in place. Offsets and
sizes are those of the structs `OrderInput`, `OrderCancel` and `AccountReq`. -/
namespace BTrader
open ByteMemory

def sizeofOrderInput : Nat := 120
def sizeofOrderCancel : Nat := 72
def sizeofAccountReq : Nat := 64

def orderInputTag : Int32 := 1
def orderCancelTag : Int32 := 4
def accountReqTag : Int32 := 25

/-- `operator=` of the struct: member by member, the ids of instrument and exchange as strings. -/
def assignOrderInput (input order : Object sizeofOrderInput) : Object sizeofOrderInput :=
  ((((((input.copy order 0 16).assignString order 16).assignString order 48).copy order 64 1).copy
    order 72 24).copy
    order 96 7).copy order 104 16

def assignAccountReq (accountReq req : Object sizeofAccountReq) : Object sizeofAccountReq :=
  ((accountReq.copy req 0 12).assignString req 12).copy req 48 16

namespace LiveExecutor

/-- The order is assigned to what is in the frame, then its id and its insert time. -/
def orderRequest (order : Object sizeofOrderInput)
    (nowEventTime insertTime pageEnd genTime : Int64) :
    Request where
  triggerTime := nowEventTime
  msgType := orderInputTag
  size := sizeofOrderInput
  fill := fun id old =>
    ((assignOrderInput old order).store64 0 (by decide) id).store64 112
      (by decide) insertTime.toUInt64
  pageEnd := pageEnd
  genTime := genTime

/-- Only the two ids are assigned. -/
def cancelRequest (targetOrderId : UInt64) (nowEventTime pageEnd genTime : Int64) : Request where
  triggerTime := nowEventTime
  msgType := orderCancelTag
  size := sizeofOrderCancel
  fill := fun id old => (old.store64 32 (by decide) id).store64 40 (by decide) targetOrderId
  pageEnd := pageEnd
  genTime := genTime

def accountRequest (req : Object sizeofAccountReq)
    (nowEventTime insertTime pageEnd genTime : Int64) :
    Request where
  triggerTime := nowEventTime
  msgType := accountReqTag
  size := sizeofAccountReq
  fill := fun id old =>
    ((assignAccountReq old req).store64 0 (by decide) id).store64 56 (by decide) insertTime.toUInt64
  pageEnd := pageEnd
  genTime := genTime

end LiveExecutor
end BTrader
