import SlickSim.OrderBook.Book

/-!
# Execution reports

`MatchState` is what one `match` call can touch: the book and the response
ring. A report is written over whatever its slot held before, so each producer
is a list of field writes on the slot, in the source's order, followed by the
publication of the slot.
-/

set_option autoImplicit false

namespace SlickSim

structure MatchState (β : Type) where
  book : OrderBook β
  responses : List OrderResponse

/-! ## What each producer writes -/

namespace OrderResponse

/-- `MatchingEngine::publishOrderAck`. -/
def writeAck (slot : OrderResponse) (order : Order) (requestTime : Nat) : OrderResponse :=
  { slot.setOrderIdentity order with
    responseType := .executionReport
    execType := .new
    orderStatus := .new
    orderType := order.type
    timeInForce := order.timeInForce
    price := order.price
    lastFillPrice := order.lastFillPrice
    avgFillPrice := order.avgFillPrice
    qty := order.quantity
    cumQty := 0
    leavesQty := order.leavesQuantity
    creationTime := order.createdTime
    timestamp := order.lastUpdateTime
    requestTime := requestTime
    side := order.side
    postOnly := order.postOnly }

/-- `MatchingEngine::publishOrderExecution`. -/
def writeExecution (slot : OrderResponse) (order : Order) (aggressor : Bool) : OrderResponse :=
  { slot.setOrderIdentity order with
    aggressor := aggressor
    responseType := .executionReport
    execType := .trade
    orderStatus := if order.leavesQuantity ≠ 0 then .partiallyFilled else .filled
    orderType := order.type
    timeInForce := order.timeInForce
    price := order.price
    lastFillPrice := order.lastFillPrice
    avgFillPrice := order.avgFillPrice
    qty := order.quantity
    lastQty := order.lastFillQty
    cumQty := order.cumQuantity
    leavesQty := order.leavesQuantity
    creationTime := order.createdTime
    timestamp := order.lastUpdateTime
    side := order.side
    postOnly := order.postOnly }

/-- `MatchingEngine::publishOrderModify`. -/
def writeModify (slot : OrderResponse) (order : Order) (newPrice newQty : Int) (requestTime : Nat) :
    OrderResponse :=
  { slot.setOrderIdentity order with
    responseType := .executionReport
    execType := .replaced
    orderStatus := .replaced
    orderType := order.type
    timeInForce := order.timeInForce
    price := newPrice
    qty := newQty
    lastQty := order.lastFillQty
    cumQty := order.cumQuantity
    leavesQty := order.leavesQuantity
    creationTime := order.createdTime
    timestamp := order.lastUpdateTime
    requestTime := requestTime
    side := order.side
    postOnly := order.postOnly }

/-- `MatchingEngine::publishOrderCancel`. -/
def writeCancel (slot : OrderResponse) (order : Order) (requestTime : Nat) : OrderResponse :=
  { slot.setOrderIdentity order with
    responseType := .executionReport
    execType := .canceled
    orderStatus := .canceled
    orderType := order.type
    timeInForce := order.timeInForce
    price := order.price
    lastFillPrice := order.lastFillPrice
    avgFillPrice := order.avgFillPrice
    qty := order.quantity
    lastQty := order.lastFillQty
    cumQty := order.cumQuantity
    leavesQty := 0
    creationTime := order.createdTime
    timestamp := order.lastUpdateTime
    requestTime := requestTime
    side := order.side
    postOnly := order.postOnly }

/-- `Exchange::sendOrderNewPending`. -/
def writeNewPending (slot : OrderResponse) (order : Order) (requestTime : Nat) : OrderResponse :=
  { slot.setOrderIdentity order with
    responseType := .executionReport
    execType := .new
    orderStatus := .pendingNew
    orderType := order.type
    price := order.price
    avgFillPrice := order.avgFillPrice
    qty := order.quantity
    cumQty := 0
    leavesQty := order.leavesQuantity
    timestamp := order.createdTime
    requestTime := requestTime
    side := order.side
    postOnly := order.postOnly }

/-- `Exchange::sendOrderReplacePending`. -/
def writeReplacePending (slot : OrderResponse) (order : Order) (requestTime : Nat) : OrderResponse :=
  { slot.setOrderIdentity order with
    responseType := .executionReport
    execType := .pendingReplace
    orderStatus := .pendingReplace
    orderType := order.type
    requestTime := requestTime
    price := order.price
    avgFillPrice := order.avgFillPrice
    qty := order.quantity
    cumQty := 0
    leavesQty := order.leavesQuantity
    timestamp := order.createdTime
    side := order.side
    postOnly := order.postOnly }

/-- `Exchange::sendOrderCancelPending`. -/
def writeCancelPending (slot : OrderResponse) (order : Order) (requestTime : Nat) : OrderResponse :=
  { slot.setOrderIdentity order with
    responseType := .executionReport
    execType := .pendingCancel
    orderStatus := .pendingCancel
    orderType := order.type
    requestTime := requestTime
    price := order.price
    avgFillPrice := order.avgFillPrice
    lastFillPrice := order.lastFillPrice
    lastQty := order.lastFillQty
    qty := order.quantity
    cumQty := 0
    leavesQty := order.leavesQuantity
    timestamp := order.createdTime
    side := order.side
    postOnly := order.postOnly }

/-- What the three `reject*Request` functions write alike. -/
def writeReject (slot : OrderResponse) (header : RequestHeader) (userId clientOrderId orderId : Name)
    (price qty : Int) (reason : OrdRejectReason) (timestamp : Nat) : OrderResponse :=
  { slot with
    symbol := header.symbol
    userId := userId
    clientOrderId := clientOrderId
    orderId := orderId
    orderNum := 0
    requestTag := header.requestTag
    aggressor := false
    requestTime := header.timeStamp
    responseType := .reject
    orderStatus := .rejected
    execType := .rejected
    price := price
    qty := qty
    cumQty := 0
    leavesQty := 0
    rejectReason := reason
    timestamp := timestamp }

/-- The request did not name an order, so the report names none. -/
def writeRejectNew (slot : OrderResponse) (header : RequestHeader) (msg : AddOrderMessage)
    (reason : OrdRejectReason) (timestamp : Nat) : OrderResponse :=
  slot.writeReject header msg.userId msg.clientOrderId default msg.price msg.qty reason timestamp

def writeRejectModify (slot : OrderResponse) (header : RequestHeader) (msg : ModifyOrderMessage)
    (reason : OrdRejectReason) (timestamp : Nat) : OrderResponse :=
  slot.writeReject header msg.userId msg.clientOrderId msg.orderId msg.newPrice msg.newQty reason
    timestamp

def writeRejectCancel (slot : OrderResponse) (header : RequestHeader) (msg : CancelOrderMessage)
    (reason : OrdRejectReason) (timestamp : Nat) : OrderResponse :=
  slot.writeReject header msg.userId msg.clientOrderId msg.orderId nullPrice 0 reason timestamp

/-! Each report on an order carries its number, and a reject carries none. -/

section OrderNum

variable (slot : OrderResponse) (order : Order)

@[simp] theorem writeAck_orderNum (requestTime : Nat) :
    (slot.writeAck order requestTime).orderNum = order.id := rfl
@[simp] theorem writeExecution_orderNum (aggressor : Bool) :
    (slot.writeExecution order aggressor).orderNum = order.id := rfl
@[simp] theorem writeModify_orderNum (newPrice newQty : Int) (requestTime : Nat) :
    (slot.writeModify order newPrice newQty requestTime).orderNum = order.id := rfl
@[simp] theorem writeCancel_orderNum (requestTime : Nat) :
    (slot.writeCancel order requestTime).orderNum = order.id := rfl
@[simp] theorem writeNewPending_orderNum (requestTime : Nat) :
    (slot.writeNewPending order requestTime).orderNum = order.id := rfl
@[simp] theorem writeReplacePending_orderNum (requestTime : Nat) :
    (slot.writeReplacePending order requestTime).orderNum = order.id := rfl
@[simp] theorem writeCancelPending_orderNum (requestTime : Nat) :
    (slot.writeCancelPending order requestTime).orderNum = order.id := rfl
@[simp] theorem writeReject_orderNum (header : RequestHeader) (userId clientOrderId orderId : Name)
    (price qty : Int) (reason : OrdRejectReason) (timestamp : Nat) :
    (slot.writeReject header userId clientOrderId orderId price qty reason timestamp).orderNum =
      0 := rfl

end OrderNum

end OrderResponse

/-! ## Publication -/

namespace MatchState

variable {β : Type}

def order (state : MatchState β) (ref : Nat) : Order :=
  state.book.heap ref

def publish (state : MatchState β) (env : Environment) (write : OrderResponse → OrderResponse) :
    MatchState β :=
  { state with responses := state.responses ++ [write (env.slot state.responses.length)] }

def publishOrderAck (state : MatchState β) (env : Environment) (ref requestTime : Nat) :
    MatchState β :=
  state.publish env fun slot => slot.writeAck (state.order ref) requestTime

def publishOrderExecution (state : MatchState β) (env : Environment) (ref : Nat) (aggressor : Bool) :
    MatchState β :=
  state.publish env fun slot => slot.writeExecution (state.order ref) aggressor

def publishOrderModify (state : MatchState β) (env : Environment) (ref : Nat) (newPrice newQty : Int)
    (requestTime : Nat) : MatchState β :=
  state.publish env fun slot => slot.writeModify (state.order ref) newPrice newQty requestTime

def publishOrderCancel (state : MatchState β) (env : Environment) (ref requestTime : Nat) :
    MatchState β :=
  state.publish env fun slot => slot.writeCancel (state.order ref) requestTime

def sendOrderNewPending (state : MatchState β) (env : Environment) (ref requestTime : Nat) :
    MatchState β :=
  state.publish env fun slot => slot.writeNewPending (state.order ref) requestTime

def sendOrderReplacePending (state : MatchState β) (env : Environment) (ref requestTime : Nat) :
    MatchState β :=
  state.publish env fun slot => slot.writeReplacePending (state.order ref) requestTime

def sendOrderCancelPending (state : MatchState β) (env : Environment) (ref requestTime : Nat) :
    MatchState β :=
  state.publish env fun slot => slot.writeCancelPending (state.order ref) requestTime

def onBook (state : MatchState β) (change : OrderBook β → OrderBook β) : MatchState β :=
  { state with book := change state.book }

/-- Publishes a reject stamped with the time of the report. -/
def publishReject (state : MatchState β) (env : Environment)
    (write : OrderResponse → Nat → OrderResponse) : MatchState β :=
  let now := state.book.currentTime env
  (state.onBook OrderBook.readClock).publish env fun slot => write slot now

def rejectNewOrderRequest (state : MatchState β) (env : Environment) (header : RequestHeader)
    (msg : AddOrderMessage) (reason : OrdRejectReason) : MatchState β :=
  state.publishReject env fun slot now => slot.writeRejectNew header msg reason now

def rejectModifyOrderRequest (state : MatchState β) (env : Environment) (header : RequestHeader)
    (msg : ModifyOrderMessage) (reason : OrdRejectReason) : MatchState β :=
  state.publishReject env fun slot now => slot.writeRejectModify header msg reason now

def rejectCancelOrderRequest (state : MatchState β) (env : Environment) (header : RequestHeader)
    (msg : CancelOrderMessage) (reason : OrdRejectReason) : MatchState β :=
  state.publishReject env fun slot now => slot.writeRejectCancel header msg reason now

end MatchState

end SlickSim
