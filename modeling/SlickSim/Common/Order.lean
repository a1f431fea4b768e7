import SlickSim.Common.Types

/-!
# Orders

The enumerations of `common/order.hpp` and the pooled `Order` object. Fields
that no modelled function touches (fees, notional doubles, the JSON edit
history) are left out.
-/

set_option autoImplicit false

namespace SlickSim

inductive Side where
  | buy
  | sell
  | unknownSide
deriving DecidableEq, Repr, Inhabited

def oppositeSide : Side → Side
  | .buy => .sell
  | .sell => .buy
  | .unknownSide => .unknownSide

inductive OrderType where
  | unknown
  | market
  | limit
  | stop
  | stopLimit
  | bracket
  | twap
  | rollOpen
  | rollClose
  | liquidation
  | scaled
deriving DecidableEq, Repr, Inhabited

inductive ExecType where
  | new
  | canceled
  | replaced
  | pendingCancel
  | rejected
  | expired
  | pendingReplace
  | trade
  | tradeCorrect
  | tradeCancel
  | orderStatus
  | restated
deriving DecidableEq, Repr, Inhabited

inductive OrderStatus where
  | new
  | partiallyFilled
  | filled
  | doneForDay
  | canceled
  | replaced
  | pendingCancel
  | stopped
  | rejected
  | suspended
  | pendingNew
  | calculated
  | expired
  | acceptedForBidding
  | pendingReplace
deriving DecidableEq, Repr, Inhabited

inductive TimeInForce where
  | day
  | goodTillCancel
  | atTheOpening
  | immediateOrCancel
  | fillOrKill
  | goodTillCrossing
  | goodTillDate
deriving DecidableEq, Repr, Inhabited

/-- The times in force under which a remainder may rest. -/
def TimeInForce.rests : TimeInForce → Bool
  | .day | .goodTillCancel | .goodTillDate => true
  | _ => false

inductive SelfMatchPreventionMode where
  | none
  | cancelResting
  | cancelNewest
deriving DecidableEq, Repr, Inhabited

/-- `cum_value_t` is Boost's `uint128_t`, whose arithmetic wraps. -/
def cumValueModulus : Nat := 2 ^ 128

def toCumValue (value : Int) : Nat :=
  (value % (cumValueModulus : Int)).toNat

/-- Conversion of a `cum_value_t` back to `price_t`: Boost's unchecked integers saturate when they
are converted to a built-in signed type. -/
def ofCumValue (value : Nat) : Int :=
  min (value : Int) nullPrice

structure Order where
  symbol : SymbolName
  userId : Name
  clientOrderId : Name
  orderId : Name
  id : Nat
  priority : Nat
  requestTag : Nat
  side : Side
  type : OrderType
  status : OrderStatus
  timeInForce : TimeInForce
  postOnly : Bool
  pendingCancel : Bool
  price : Int
  quantity : Int
  leavesQuantity : Int
  avgFillPrice : Int
  cumQuantity : Int
  cumValue : Nat
  lastFillPrice : Int
  lastFillQty : Int
  numFills : Nat
  clientId : Int
  createdTime : Nat
  lastUpdateTime : Nat
  lastFillTime : Option Nat
  rejectMessage : FixedString 256
  cancelMessage : FixedString 256
deriving DecidableEq

namespace Order

instance : Inhabited Order where
  default :=
    { symbol := default, userId := default, clientOrderId := default, orderId := default
      id := 0, priority := 0, requestTag := 0, side := .buy, type := .market, status := .new
      timeInForce := .day, postOnly := false, pendingCancel := false, price := 0, quantity := 0
      leavesQuantity := 0, avgFillPrice := 0, cumQuantity := 0, cumValue := 0, lastFillPrice := 0
      lastFillQty := 0, numFills := 0, clientId := -1, createdTime := 0, lastUpdateTime := 0
      lastFillTime := none, rejectMessage := default, cancelMessage := default }

def resetFillAccounting (order : Order) (newQty : Int) : Order :=
  { order with
    quantity := newQty
    leavesQuantity := newQty
    avgFillPrice := 0
    cumQuantity := 0
    cumValue := 0
    lastFillPrice := 0
    lastFillQty := 0
    numFills := 0
    lastFillTime := none }

/-- Whether what matching leaves of the order rests on the book. -/
def restsRemainder (order : Order) : Bool :=
  decide (order.price ≠ nullPrice) && order.timeInForce.rests

/-- `utils::executeOrder`: books one fill onto an order. -/
def execute (order : Order) (price : Int) (executedQuantity : Int) (timestamp : Nat) : Order :=
  let cumValue := (order.cumValue + toCumValue price * toCumValue executedQuantity) % cumValueModulus
  let cumQuantity := order.cumQuantity + executedQuantity
  { order with
    leavesQuantity := order.leavesQuantity - executedQuantity
    lastUpdateTime := timestamp
    cumValue := cumValue
    cumQuantity := cumQuantity
    avgFillPrice := if cumQuantity > 0 then ofCumValue (cumValue / toCumValue cumQuantity) else 0
    lastFillPrice := price
    lastFillQty := executedQuantity
    lastFillTime := some timestamp
    numFills := order.numFills + 1 }

section Execute

variable (order : Order) (price : Int) (executed : Int) (timestamp : Nat)

@[simp] theorem execute_id : (order.execute price executed timestamp).id = order.id := rfl
@[simp] theorem execute_side : (order.execute price executed timestamp).side = order.side := rfl
@[simp] theorem execute_price : (order.execute price executed timestamp).price = order.price := rfl
@[simp] theorem execute_priority :
    (order.execute price executed timestamp).priority = order.priority := rfl
@[simp] theorem execute_quantity :
    (order.execute price executed timestamp).quantity = order.quantity := rfl
@[simp] theorem execute_leaves :
    (order.execute price executed timestamp).leavesQuantity = order.leavesQuantity - executed := rfl
@[simp] theorem execute_cum :
    (order.execute price executed timestamp).cumQuantity = order.cumQuantity + executed := rfl
@[simp] theorem execute_clientOrderId :
    (order.execute price executed timestamp).clientOrderId = order.clientOrderId := rfl
@[simp] theorem execute_orderId :
    (order.execute price executed timestamp).orderId = order.orderId := rfl
@[simp] theorem execute_timeInForce :
    (order.execute price executed timestamp).timeInForce = order.timeInForce := rfl
@[simp] theorem execute_clientId :
    (order.execute price executed timestamp).clientId = order.clientId := rfl
@[simp] theorem execute_createdTime :
    (order.execute price executed timestamp).createdTime = order.createdTime := rfl
@[simp] theorem execute_lastFillQty :
    (order.execute price executed timestamp).lastFillQty = executed := rfl

end Execute

end Order

end SlickSim
