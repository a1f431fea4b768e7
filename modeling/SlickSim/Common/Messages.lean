import SlickSim.Common.Order

/-!
# Requests and responses

A `Request` is the tagged union the gateways publish, an `OrderResponse` one
slot of the response ring. Producers overwrite a recycled slot field by field,
so every producer is a function of the slot it was handed.
-/

set_option autoImplicit false

namespace SlickSim

/-- The reject reasons the exchange raises, and the ones it only declares. -/
inductive OrdRejectReason where
  | none
  | unknown
  | unknownContract
  | unknownOrder
  | marketClosed
  | marketHalted
  | smp
  | invalidDisplayQty
  | fakMustBeLimit
  | icebergMustBeLimit
  | icebergMustBeDayOrGtc
  | priceCantBeBelowStopPrice
  | priceCantBeAboveStopPrice
  | stopPriceMustBeBelowLastTradePrice
  | stopPriceMustBeAboveLastTradePrice
  | timeInForceNotAllowedInCurrentMarketState
  | orderTypeNotAllowedInCurrentMarketState
  | invalidTickSize
  | invalidQty
  | invalidMinQty
  | clientOrderIdAlreadyExists
  | fokCannotFill
deriving DecidableEq, Repr, Inhabited

inductive MessageType where
  | unknown
  | newOrderSingle
  | orderCancelRequest
  | orderReplaceRequest
  | executionReport
  | orderCancelReject
  | heartbeat
  | testRequest
  | reSendRequest
  | reject
  | mdSubscription
  | mdUnsubscription
deriving DecidableEq, Repr, Inhabited

structure AddOrderMessage where
  userId : Name
  clientOrderId : Name
  side : Side
  type : OrderType
  timeInForce : TimeInForce
  price : Int
  qty : Int
deriving DecidableEq

structure ModifyOrderMessage where
  userId : Name
  orderId : Name
  clientOrderId : Name
  newPrice : Int
  newQty : Int
deriving DecidableEq

structure CancelOrderMessage where
  userId : Name
  orderId : Name
  clientOrderId : Name
deriving DecidableEq

structure RequestHeader where
  timeStamp : Nat
  symbol : SymbolName
  requestTag : Nat
deriving DecidableEq

structure OrderResponse where
  symbol : SymbolName
  userId : Name
  clientOrderId : Name
  orderId : Name
  errorMessage : FixedString 256
  responseType : MessageType
  execType : ExecType
  orderStatus : OrderStatus
  orderType : OrderType
  timeInForce : TimeInForce
  price : Int
  lastFillPrice : Int
  avgFillPrice : Int
  qty : Int
  lastQty : Int
  cumQty : Int
  leavesQty : Int
  rejectReason : OrdRejectReason
  creationTime : Nat
  requestTime : Nat
  timestamp : Nat
  side : Side
  postOnly : Bool
  orderNum : Nat
  requestTag : Nat
  aggressor : Bool
deriving DecidableEq

namespace OrderResponse

instance : Inhabited OrderResponse where
  default :=
    { symbol := default, userId := default, clientOrderId := default, orderId := default
      errorMessage := default, responseType := .unknown, execType := .new, orderStatus := .new
      orderType := .unknown, timeInForce := .day, price := nullPrice, lastFillPrice := nullPrice
      avgFillPrice := nullPrice, qty := 0, lastQty := 0, cumQty := 0, leavesQty := 0
      rejectReason := .none, creationTime := 0, requestTime := 0, timestamp := 0
      side := .unknownSide, postOnly := false, orderNum := 0, requestTag := 0, aggressor := false }

/-- Copies the identity block of an order over the head of a slot. -/
def setOrderIdentity (slot : OrderResponse) (order : Order) : OrderResponse :=
  { slot with
    symbol := order.symbol
    userId := order.userId
    clientOrderId := order.clientOrderId
    orderId := order.orderId
    orderNum := order.id
    requestTag := order.requestTag
    aggressor := false }

end OrderResponse

structure Trade where
  orderId : Nat
  qty : Int
deriving DecidableEq, Repr

structure TradeSummaryInfo where
  timestamp : Nat
  tradeId : Nat
  aggressorSide : Side
  price : Int
  qty : Int
  phantomQty : Int
  numOrders : Nat
  trades : List Trade
deriving DecidableEq, Repr

/-! ## Market data -/

inductive MDUpdateAction where
  | new
  | change
  | delete
deriving DecidableEq, Repr, Inhabited

/-- `UpdateFlags`, as the three bits the source combines. -/
structure UpdateFlags where
  isSnapshot : Bool := false
  endEvent : Bool := false
  notInBook : Bool := false
deriving DecidableEq, Repr

structure MDLevel where
  eventTime : Nat
  seqNum : Nat
  price : Int
  qty : Int
  numOrders : Nat
  levelIndex : Nat
  updateAction : MDUpdateAction
  flags : UpdateFlags
  side : Side
  /-- How many level updates the book had told when the row was written. The source has
  no such field; the order of publication is compared with it. -/
  moment : Nat
deriving DecidableEq, Repr

structure MDOrder where
  orderId : Nat
  eventTime : Nat
  priority : Nat
  price : Int
  qty : Int
  side : Side
  updateAction : MDUpdateAction
deriving DecidableEq, Repr

structure MDTrade where
  tradeId : Nat
  eventTime : Nat
  seqNum : Nat
  price : Int
  qty : Int
  flags : UpdateFlags
  side : Side
deriving DecidableEq, Repr

structure SnapshotLevel where
  price : Int
  qty : Int
  numOrders : Nat
deriving DecidableEq, Repr

inductive MDFrame where
  | level (rows : List MDLevel)
  | order (rows : List MDOrder)
  | tradeSummary (tradeId : Nat) (summary : TradeSummaryInfo)
  | bookSnapshot (bids asks : List SnapshotLevel)
  | subResponse (bids asks : List SnapshotLevel)
deriving DecidableEq, Repr

end SlickSim
