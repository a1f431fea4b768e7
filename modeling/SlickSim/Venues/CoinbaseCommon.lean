import SlickSim.Common.Messages

/-!
# An order as Coinbase shows it

`to_json` of an order, which both a listing and the snapshot of the user channel send. Left out
are the members that are the same for every order, the time of day, and the floating-point
figures.
-/

set_option autoImplicit false

namespace SlickSim

def ascii (text : String) : List UInt8 :=
  text.toList.map fun char => UInt8.ofNat char.toNat

def TimeInForce.toCoinbaseString : TimeInForce → List UInt8
  | .goodTillDate => ascii "GOOD_UNTIL_DATE_TIME"
  | .goodTillCancel => ascii "GOOD_UNTIL_CANCELLED"
  | .immediateOrCancel => ascii "IMMEDIATE_OR_CANCEL"
  | .fillOrKill => ascii "FILL_OR_KILL"
  | .day | .atTheOpening | .goodTillCrossing => ascii "UNKNOWN_TIME_IN_FORCE"

inductive OrderConfiguration where
  | absent
  | marketMarketIoc (baseSize : Int)
  /-- A limit order goes under this key as well, with its price. -/
  | marketMarketFok (baseSize : Int) (limitPrice : Option Int)
  | limitLimitGtc (baseSize limitPrice : Int) (postOnly : Bool)
  | sorLimitIoc (baseSize limitPrice : Int)
deriving DecidableEq

def Order.configuration (order : Order) : OrderConfiguration :=
  match order.type, order.timeInForce with
  | .market, .immediateOrCancel => .marketMarketIoc order.quantity
  | .market, .fillOrKill => .marketMarketFok order.quantity none
  | .limit, .goodTillCancel => .limitLimitGtc order.quantity order.price order.postOnly
  | .limit, .immediateOrCancel => .sorLimitIoc order.quantity order.price
  | .limit, .fillOrKill => .marketMarketFok order.quantity (some order.price)
  | _, _ => .absent

structure OrderJson where
  orderId : Name
  productId : SymbolName
  userId : Name
  orderConfiguration : OrderConfiguration
  side : Side
  clientOrderId : Name
  status : OrderStatus
  timeInForce : List UInt8
  filledSize : Int
  averageFilledPrice : Int
  numberOfFills : Nat
  pendingCancel : Bool
  orderType : OrderType
  rejectMessage : FixedString 256
  cancelMessage : FixedString 256
  lastFillTime : Option Nat
  workableSize : Int
deriving DecidableEq

def Order.toJson (order : Order) : OrderJson where
  orderId := order.orderId
  productId := order.symbol
  userId := order.userId
  orderConfiguration := order.configuration
  side := order.side
  clientOrderId := order.clientOrderId
  status := order.status
  timeInForce := order.timeInForce.toCoinbaseString
  filledSize := order.cumQuantity
  averageFilledPrice := order.avgFillPrice
  numberOfFills := order.numFills
  pendingCancel := order.pendingCancel
  orderType := order.type
  rejectMessage := order.rejectMessage
  cancelMessage := order.cancelMessage
  lastFillTime := order.lastFillTime
  workableSize := order.leavesQuantity

/-- Whether `dump` can write the order. -/
def OrderJson.Dumps (order : OrderJson) : Prop :=
  IsUtf8 order.orderId.bytes ∧ IsUtf8 order.productId.bytes ∧ IsUtf8 order.userId.bytes ∧
    IsUtf8 order.clientOrderId.bytes ∧ IsUtf8 order.rejectMessage.bytes ∧ IsUtf8 order.cancelMessage.bytes

instance (order : OrderJson) : Decidable order.Dumps :=
  inferInstanceAs (Decidable (_ ∧ _))

end SlickSim
