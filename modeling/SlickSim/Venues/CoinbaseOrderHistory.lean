import SlickSim.Gateway.OrderStore
import SlickSim.Venues.CoinbaseCommon
import SlickSim.Venues.HyperliquidRestGateway

/-!
# Coinbase's order history

A listing of a user's orders catches up with the response stream, and answers from the orders
folded so far. The token that names the user is left out.
-/

set_option autoImplicit false

namespace SlickSim

/-! ## Texts -/

def Side.text : Side → List UInt8
  | .buy => ascii "BUY"
  | .sell => ascii "SELL"
  | .unknownSide => ascii "UNKNOWN"

def OrderStatus.text : OrderStatus → List UInt8
  | .new => ascii "NEW"
  | .partiallyFilled => ascii "PARTIALLY_FILLED"
  | .filled => ascii "FILLED"
  | .doneForDay => ascii "DONE_FOR_DAY"
  | .canceled => ascii "CANCELLED"
  | .replaced => ascii "REPLACED"
  | .pendingCancel => ascii "PENDING_CANCEL"
  | .stopped => ascii "STOPPED"
  | .rejected => ascii "REJECTED"
  | .suspended => ascii "SUSPENDED"
  | .pendingNew => ascii "PENDING_NEW"
  | .calculated => ascii "CALCULATED"
  | .expired => ascii "EXPIRED"
  | .acceptedForBidding => ascii "ACCEPTED_FOR_BIDDING"
  | .pendingReplace => ascii "PENDING_REPLACE"

def toLower (byte : UInt8) : UInt8 :=
  if 65 ≤ byte ∧ byte ≤ 90 then byte + 32 else byte

def iequals (lhs rhs : List UInt8) : Bool :=
  decide (lhs.map toLower = rhs.map toLower)

/-- `std::strtoull` in base ten: the value, and the text behind it. Beyond 64 bits it is the
greatest, and a minus sign counts down from 2 ^ 64. -/
def strtoull (text : List UInt8) : Option (Nat × List UInt8) :=
  let (negative, rest) := splitSign (text.dropWhile isSpace)
  let digits := rest.takeWhile isDecimalDigit
  let value := decimalValue digits
  let parsed :=
    if 2 ^ 64 ≤ value then 2 ^ 64 - 1
    else if negative then (2 ^ 64 - value) % 2 ^ 64
    else value
  if digits = [] then none else some (parsed, rest.dropWhile isDecimalDigit)

/-- `matches_order_status`: an order is open while it can still trade. -/
def matchesOrderStatus (filter : List UInt8) (status : OrderStatus) : Bool :=
  if iequals filter (ascii "OPEN") then
    match status with
    | .new | .partiallyFilled | .pendingNew | .pendingCancel | .pendingReplace | .replaced => true
    | .filled | .doneForDay | .canceled | .stopped | .rejected | .suspended | .calculated | .expired
    | .acceptedForBidding => false
  else iequals filter status.text

/-! ## Listings -/

/-- The user a token names and the parameters of the request. A parameter that is not given
is empty. -/
structure OrderQuery where
  userId : List UInt8
  productId : List UInt8
  orderSide : List UInt8
  orderStatus : List UInt8
  limit : List UInt8

namespace OrderQuery

/-- The limit, unless the parameter is no number. It is read as far as its first zero byte. -/
def parseLimit (query : OrderQuery) : Option Nat :=
  if query.limit = [] then some (2 ^ 64 - 1)
  else
    match strtoull (query.limit.takeWhile fun byte => decide (byte ≠ 0)) with
    | some (limit, []) => some limit
    | some (_, _ :: _) | none => none

/-- The orders that are not skipped. -/
def keeps (query : OrderQuery) (order : Order) : Bool :=
  !(decide (query.productId ≠ []) && decide (query.productId ≠ order.symbol.bytes)) &&
    !(decide (query.orderSide ≠ []) && !iequals query.orderSide order.side.text) &&
    !(decide (query.orderStatus ≠ []) && !matchesOrderStatus query.orderStatus order.status)

def collect (query : OrderQuery) (limit : Nat) : List Order → List Order → List Order
  | orders, [] => orders
  | orders, order :: rest =>
      if query.keeps order = false then query.collect limit orders rest
      else if limit ≤ orders.length then orders
      else query.collect limit (orders ++ [order]) rest

end OrderQuery

inductive OrderListing where
  | invalidLimit
  | orders (orders : List OrderJson)
  /-- The text of an order cannot be written. -/
  | unanswered
deriving DecidableEq

/-- The orders of `CoinbaseRestOrderGateway`, and the responses past its cursor. -/
structure OrderHistory where
  orders : OrderStore
  unread : List OrderResponse
  /-- Whether an exception has left a handler. Nothing catches it. -/
  terminated : Bool

namespace OrderHistory

def new : OrderHistory := { orders := .new, unread := [], terminated := false }

def maxBatch : Nat := 4096

def drain (history : OrderHistory) : OrderHistory :=
  { history with
    orders := (history.unread.take maxBatch).foldl OrderStore.apply history.orders
    unread := history.unread.drop maxBatch }

/-- A limit that is no number is answered before the store catches up. -/
def handleGetOrders (history : OrderHistory) (query : OrderQuery) : OrderListing × OrderHistory :=
  match query.parseLimit with
  | none => (.invalidLimit, history)
  | some limit =>
      let history := history.drain
      let orders := (query.collect limit [] (history.orders.ordersOfUser query.userId)).map Order.toJson
      if ∀ order ∈ orders, order.Dumps then (.orders orders, history)
      else (.unanswered, { history with terminated := true })

end OrderHistory

inductive HistoryEvent where
  | respond (response : OrderResponse)
  | list (query : OrderQuery)

namespace OrderHistory

def step (history : OrderHistory) : HistoryEvent → OrderHistory
  | .respond response => { history with unread := history.unread ++ [response] }
  | .list query => if history.terminated then history else (history.handleGetOrders query).2

def run (history : OrderHistory) (events : List HistoryEvent) : OrderHistory :=
  events.foldl step history

end OrderHistory

end SlickSim
