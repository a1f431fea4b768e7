import SlickSim.Venues.CoinbaseRestGateway

/-!
# Hyperliquid's REST order gateway

A client of `HyperliquidRestOrderGateway` knows an order by a number, while the exchange
names it by a uuid. An `order` action answers with what `std::stoll` makes of the uuid; a
`cancel` or a `batchModify` action sends the number on as decimal text.

The messages of cancels and amendments are written over a recycled slot, field by field.
The table of assets and the text of requests are left out.
-/

set_option autoImplicit false

namespace SlickSim

/-! ## Numbers as text -/

def isSpace (byte : UInt8) : Bool :=
  decide (byte = 32 ∨ 9 ≤ byte ∧ byte ≤ 13)

def isDecimalDigit (byte : UInt8) : Bool :=
  decide (48 ≤ byte ∧ byte ≤ 57)

def decimalValue (digits : List UInt8) : Nat :=
  digits.foldl (fun value digit => 10 * value + (digit.toNat - 48)) 0

/-- The sign in front of a number, and what follows it. -/
def splitSign : List UInt8 → Bool × List UInt8
  | 45 :: rest => (true, rest)
  | 43 :: rest => (false, rest)
  | rest => (false, rest)

/-- `std::stoll`, which throws without a digit and beyond 64 bits. -/
def stoll (text : List UInt8) : Option Int64 :=
  let (negative, rest) := splitSign (text.dropWhile isSpace)
  let digits := rest.takeWhile isDecimalDigit
  let value : Int := if negative then -decimalValue digits else decimalValue digits
  if digits ≠ [] ∧ -2 ^ 63 ≤ value ∧ value < 2 ^ 63 then some (Int64.ofInt value) else none

def decimalText (number : Int64) : List UInt8 :=
  (if number.toInt < 0 then [45] else []) ++
    (Nat.toDigits 10 number.toInt.natAbs).map fun digit => UInt8.ofNat digit.toNat

namespace HyperliquidRestOrderGateway

/-! ## New orders -/

structure PlaceOrder where
  userId : List UInt8
  coin : List UInt8
  clientOrderId : List UInt8
  isBuy : Bool
  timeInForce : TimeInForce
  price : Int
  qty : Int

def PlaceOrder.message (order : PlaceOrder) : AddOrderMessage :=
  { userId := Name.copyWireField order.userId
    clientOrderId := Name.copyWireField order.clientOrderId
    side := if order.isBuy then .buy else .sell
    type := .limit
    timeInForce := order.timeInForce
    price := order.price
    qty := order.qty }

inductive OrderStatusEntry where
  | timeout
  | error (reason : OrdRejectReason)
  | resting (oid : Int64)
deriving DecidableEq

/-- The response an order takes for its own: what it compares is what it stored. -/
def answersOrder (order : PlaceOrder) (response : OrderResponse) : Bool :=
  decide (response.userId = order.message.userId ∧ response.clientOrderId = order.message.clientOrderId)

/-- What a response is turned into, unless its order id is no number. -/
def statusOf (response : OrderResponse) : Option OrderStatusEntry :=
  if response.orderStatus = .rejected then some (.error response.rejectReason)
  else if response.orderId.isEmpty then some (.resting 0)
  else (stoll response.orderId.bytes).map .resting

/-- `process_order_action`, with the responses read for each order: an exception on the way
leaves no status at all, and the client is told of a parse error. -/
def processOrderAction (orders : List (PlaceOrder × List OrderResponse)) : Option (List OrderStatusEntry) :=
  orders.mapM fun (order, stream) =>
    match stream.find? (answersOrder order) with
    | none => some .timeout
    | some response => statusOf response

/-! ## Cancels and amendments -/

def cancelMessage (slot : CancelOrderMessage) (userId : List UInt8) (oid : Int64) : CancelOrderMessage :=
  { slot with
    userId := Name.copyWireField userId
    orderId := Name.copyWireField (decimalText oid) }

def cancelByCloidMessage (slot : CancelOrderMessage) (userId cloid : List UInt8) : CancelOrderMessage :=
  { slot with
    userId := Name.copyWireField userId
    clientOrderId := Name.copyWireField cloid }

def modifyMessage (slot : ModifyOrderMessage) (userId : List UInt8) (oid : Int64) (newPrice newQty : Int) :
    ModifyOrderMessage :=
  { slot with
    userId := Name.copyWireField userId
    orderId := Name.copyWireField (decimalText oid)
    newPrice, newQty }

end HyperliquidRestOrderGateway

/-! ## Lengths -/

theorem decimalText_length (number : Int64) : (decimalText number).length ≤ 20 := by
  have low := Int64.le_toInt number
  have high := Int64.toInt_lt number
  have digits : (Nat.toDigits 10 number.toInt.natAbs).length ≤ 19 :=
    (Nat.length_toDigits_le_iff (by decide) (by decide)).mpr (by omega)
  unfold decimalText
  rw [List.length_append, List.length_map]
  split
  · rw [List.length_singleton]
    omega
  · rw [List.length_nil]
    omega

theorem Name.copyWireField_length (value : List UInt8) : (Name.copyWireField value).bytes.length ≤ value.length :=
  ((List.takeWhile_sublist _).trans (List.take_sublist _ _)).length_le

end SlickSim
