import SlickSim.Exchange.Run

/-!
# Coinbase's REST order gateway

A handler takes its place in the response stream, publishes a request, and answers
its client from the first response that seems to be about the request. What it
compares are the strings of the HTTP request, while the exchange sees them as wire
fields.
-/

set_option autoImplicit false

namespace SlickSim

structure CoinbaseRestOrderGateway where
  orderIdToSymbol : List UInt8 → Option (List UInt8)

inductive CreateOrderResponse where
  | timeout
  | failure (reason : OrdRejectReason) (errorMessage : FixedString 256)
  | success (orderId : Name)
deriving DecidableEq

inductive OrderVerdict where
  | unknownOrder
  | failure (reason : OrdRejectReason)
  | success
deriving DecidableEq

namespace CoinbaseRestOrderGateway

variable (gateway : CoinbaseRestOrderGateway)

/-! ## New orders -/

/-- What a client asks for, once it has passed the product's limits. -/
structure CreateOrder where
  userId : List UInt8
  productId : List UInt8
  clientOrderId : List UInt8
  side : Side
  type : OrderType
  timeInForce : TimeInForce
  price : Int
  qty : Int

/-- The head of a request. The slot it is written to brings its own `request_tag`. -/
def requestHeader (timeStamp requestTag : Nat) (symbol : List UInt8) : RequestHeader :=
  { timeStamp, symbol := SymbolName.copyWireField symbol, requestTag }

def CreateOrder.message (order : CreateOrder) : AddOrderMessage :=
  { userId := Name.copyWireField order.userId
    clientOrderId := Name.copyWireField order.clientOrderId
    side := order.side
    type := order.type
    timeInForce := order.timeInForce
    price := order.price
    qty := order.qty }

/-- The response `handle_create_order` takes for its own. -/
def answersCreate (order : CreateOrder) (response : OrderResponse) : Bool :=
  decide (response.userId.bytes = order.userId) && decide (response.clientOrderId.bytes = order.clientOrderId)

/-- How `handle_create_order` answers, given the responses it reads until it gives up. -/
def handleCreateOrder (order : CreateOrder) (stream : List OrderResponse) :
    CreateOrderResponse × CoinbaseRestOrderGateway :=
  match stream.find? (answersCreate order) with
  | none => (.timeout, gateway)
  | some response =>
      if response.orderStatus = .rejected then
        (.failure response.rejectReason response.errorMessage, gateway)
      else
        let gateway :=
          if response.orderId.isEmpty then gateway
          else ⟨Function.update gateway.orderIdToSymbol response.orderId.bytes (some order.productId)⟩
        (.success response.orderId, gateway)

/-! ## Edits and cancels -/

/-- The response the other handlers take for their own. -/
def answersRequest (userId : List UInt8) (timeStamp : Nat) (response : OrderResponse) : Bool :=
  decide (response.userId.bytes = userId) && decide (response.requestTime = timeStamp)

def reasonOf (response : OrderResponse) : OrdRejectReason :=
  if response.orderStatus = .rejected then response.rejectReason else .none

def verdictOf (reason : OrdRejectReason) : OrderVerdict :=
  if reason = .none then .success else .failure reason

structure EditOrder where
  userId : List UInt8
  orderId : List UInt8
  newPrice : Int
  newQty : Int

/-- The message is zeroed first, so it names no client order id. -/
def EditOrder.message (edit : EditOrder) : ModifyOrderMessage :=
  { userId := Name.copyWireField edit.userId
    orderId := Name.copyWireField edit.orderId
    clientOrderId := default
    newPrice := edit.newPrice
    newQty := edit.newQty }

/-- How `handle_edit_order` answers: without a response the reason is unknown. -/
def handleEditOrder (edit : EditOrder) (timeStamp : Nat) (stream : List OrderResponse) : OrderVerdict :=
  match gateway.orderIdToSymbol edit.orderId with
  | none => .unknownOrder
  | some _ =>
      match stream.find? (answersRequest edit.userId timeStamp) with
      | none => verdictOf .unknown
      | some response => verdictOf (reasonOf response)

structure CancelEntry where
  userId : List UInt8
  orderId : List UInt8

def CancelEntry.message (entry : CancelEntry) : CancelOrderMessage :=
  { userId := Name.copyWireField entry.userId
    orderId := Name.copyWireField entry.orderId
    clientOrderId := default }

/-- How `handle_batch_cancel` answers for one order: without a response it was cancelled. -/
def cancelVerdict (entry : CancelEntry) (timeStamp : Nat) (stream : List OrderResponse) : OrderVerdict :=
  match gateway.orderIdToSymbol entry.orderId with
  | none => .unknownOrder
  | some _ =>
      match stream.find? (answersRequest entry.userId timeStamp) with
      | none => verdictOf .none
      | some response => verdictOf (reasonOf response)

/-- `handle_batch_cancel`: each order in turn, with the stamp of its request and the
responses read for it. Cancelled orders are forgotten at the end. -/
def handleBatchCancel (userId : List UInt8) (entries : List (List UInt8 × Nat × List OrderResponse)) :
    List (List UInt8 × OrderVerdict) × CoinbaseRestOrderGateway :=
  let results := entries.map fun (orderId, timeStamp, stream) =>
    (orderId, gateway.cancelVerdict ⟨userId, orderId⟩ timeStamp stream)
  let forgotten := (results.filter fun result => decide (result.2 = .success)).map Prod.fst
  (results, ⟨fun orderId => if orderId ∈ forgotten then none else gateway.orderIdToSymbol orderId⟩)

end CoinbaseRestOrderGateway

end SlickSim
