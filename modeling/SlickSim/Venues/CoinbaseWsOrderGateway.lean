import Mathlib.Data.List.AList
import SlickSim.Gateway.OrderStore
import SlickSim.Venues.CoinbaseCommon

/-!
# The Coinbase user channel

`CoinbaseWebsocketOrderGateway`: which socket an order response is sent on, and what a
subscriber is told of its orders. The map of clients is keyed by user, while the user a
socket speaks for is kept with the socket and changes with every subscribe message. The
orders of every user are kept, whether or not the user is connected.

`ws->close()` runs the close handler before it returns. A name cut within a character makes
`dump` throw: within a subscribe message that closes the socket, while nothing catches it
when a response is told. A sequence number that has been taken then shows in no frame.
-/

set_option autoImplicit false

namespace SlickSim

abbrev UserId := List UInt8

/-- `sub.substr(sub.rfind('/') + 1)`. -/
def userOfSubject (sub : List UInt8) : UserId :=
  (sub.reverse.takeWhile (· ≠ 47)).reverse

structure PerSocketData where
  sub : List UInt8
  userId : UserId
  seqNum : Nat
  lastPong : Nat
  authenticated : Bool
  subscribedHeartbeat : Bool
deriving DecidableEq

inductive UserChannel where
  | user
  | heartbeats
  | futuresBalanceSummary
  | unsupported
deriving DecidableEq

inductive UserChannelMessage where
  /-- No JSON, or no subscribe message. -/
  | unsupported
  /-- JSON that is no object, whose type or token is no string, or an error whose text
  cannot be written: what is thrown leaves the handler. -/
  | malformed
  | withoutToken
  /-- A subscribe message with the subject of its token, if it decodes, and its channel,
  if it names one. -/
  | subscribe (subject : Option (List UInt8)) (channel : Option UserChannel)
deriving DecidableEq

inductive CoinbaseOrderStatus where
  | unknownOrderStatus
  | «open»
  | pending
  | editQueued
  | cancelQueued
  | cancelled
  | filled
  | expired
  | failed
deriving DecidableEq

def OrderStatus.toCoinbase : OrderStatus → CoinbaseOrderStatus
  | .new | .replaced => .open
  | .pendingNew => .pending
  | .pendingReplace => .editQueued
  | .pendingCancel => .cancelQueued
  | .canceled => .cancelled
  | .filled | .partiallyFilled => .filled
  | .expired => .expired
  | .rejected => .failed
  | .doneForDay | .stopped | .suspended | .calculated | .acceptedForBidding => .unknownOrderStatus

/-- The order of an update. Left out are the members that are the same in every update, and
the floating-point figures. -/
structure UserUpdate where
  avgPrice : Int
  clientOrderId : Name
  cumulativeQuantity : Int
  leavesQuantity : Int
  limitPrice : Int
  numberOfFills : Int
  orderId : Name
  /-- A side that is not known is told as a sale. -/
  buys : Bool
  orderType : OrderType
  postOnly : Bool
  productId : SymbolName
  rejectReason : OrdRejectReason
  status : CoinbaseOrderStatus
  timeInForce : TimeInForce
  creationTime : Nat
deriving DecidableEq

def numberOfFills (response : OrderResponse) : Int :=
  if 0 < response.lastQty then response.cumQty.tdiv response.lastQty else 0

def OrderResponse.update (response : OrderResponse) : UserUpdate where
  avgPrice := response.avgFillPrice
  clientOrderId := response.clientOrderId
  cumulativeQuantity := response.cumQty
  leavesQuantity := response.leavesQty
  limitPrice := response.price
  numberOfFills := numberOfFills response
  orderId := response.orderId
  buys := decide (response.side = .buy)
  orderType := response.orderType
  postOnly := response.postOnly
  productId := response.symbol
  rejectReason := response.rejectReason
  status := response.orderStatus.toCoinbase
  timeInForce := response.timeInForce
  creationTime := response.creationTime

/-- Whether `dump` can write the update. -/
def UserUpdate.Dumps (update : UserUpdate) : Prop :=
  IsUtf8 update.clientOrderId.bytes ∧ IsUtf8 update.orderId.bytes ∧ IsUtf8 update.productId.bytes

instance (update : UserUpdate) : Decidable update.Dumps :=
  inferInstanceAs (Decidable (_ ∧ _))

/-- What is written to a socket, with the sequence number it takes. -/
inductive UserChannelFrame where
  | error
  | orders (seqNum : Nat) (orders : List OrderJson)
  | subscriptions (seqNum : Nat)
  | balances (seqNum : Nat)
  | heartbeat (seqNum counter : Nat)
  | ping
  | update (seqNum : Nat) (update : UserUpdate)
deriving DecidableEq

structure CoinbaseWsOrderGateway where
  sockets : AList (fun _ : Nat => PerSocketData)
  clients : AList (fun _ : UserId => Nat)
  unread : List OrderResponse
  orders : OrderStore
  heartbeatCount : Nat
  sent : List (Nat × UserChannelFrame)
  /-- Whether a closed socket or an erased entry of the map has been used. -/
  touchedStale : Bool
  /-- Whether an exception has left a handler. The event loop catches none. -/
  terminated : Bool

inductive GatewayEvent where
  | connect (ws now : Nat)
  | message (ws : Nat) (message : UserChannelMessage)
  | pong (ws now : Nat)
  | close (ws : Nat)
  | respond (response : OrderResponse)
  | processAllResponses
  /-- The timer, with the order the map is walked in. -/
  | checkHeartbeats (now : Nat) (visits : List UserId)
deriving DecidableEq

namespace CoinbaseWsOrderGateway

def new : CoinbaseWsOrderGateway :=
  { sockets := ∅, clients := ∅, unread := [], orders := .new, heartbeatCount := 0, sent := []
    touchedStale := false, terminated := false }

def touchStale (gateway : CoinbaseWsOrderGateway) : CoinbaseWsOrderGateway :=
  { gateway with touchedStale := true }

def terminate (gateway : CoinbaseWsOrderGateway) : CoinbaseWsOrderGateway :=
  { gateway with terminated := true }

def send (gateway : CoinbaseWsOrderGateway) (ws : Nat) (frame : UserChannelFrame) :
    CoinbaseWsOrderGateway :=
  match gateway.sockets.lookup ws with
  | none => gateway.touchStale
  | some _ => { gateway with sent := gateway.sent ++ [(ws, frame)] }

def sendNumbered (gateway : CoinbaseWsOrderGateway) (ws : Nat) (frame : Nat → UserChannelFrame) :
    CoinbaseWsOrderGateway :=
  match gateway.sockets.lookup ws with
  | none => gateway.touchStale
  | some data =>
      { gateway with
        sockets := gateway.sockets.insert ws { data with seqNum := data.seqNum + 1 }
        sent := gateway.sent ++ [(ws, frame data.seqNum)] }

def connect (gateway : CoinbaseWsOrderGateway) (ws now : Nat) : CoinbaseWsOrderGateway :=
  { gateway with
    sockets := gateway.sockets.insert ws
      { sub := [], userId := [], seqNum := 0, lastPong := now, authenticated := false
        subscribedHeartbeat := false } }

def handleClose (gateway : CoinbaseWsOrderGateway) (ws : Nat) : CoinbaseWsOrderGateway :=
  match gateway.sockets.lookup ws with
  | none => gateway.touchStale
  | some data =>
      { gateway with
        clients := if data.userId.isEmpty then gateway.clients else gateway.clients.erase data.userId
        sockets := gateway.sockets.erase ws }

/-- What `handle_message` keeps of a decoded token. -/
def register (gateway : CoinbaseWsOrderGateway) (ws : Nat) (sub : List UInt8) : CoinbaseWsOrderGateway :=
  match gateway.sockets.lookup ws with
  | none => gateway.touchStale
  | some data =>
      let data := { data with sub, userId := userOfSubject sub, authenticated := true }
      if data.userId ∈ gateway.clients then
        { gateway with sockets := gateway.sockets.insert ws data }
      else
        { gateway with
          sockets := gateway.sockets.insert ws { data with seqNum := 0 }
          clients := gateway.clients.insert data.userId ws }

def subscribeHeartbeat (gateway : CoinbaseWsOrderGateway) (ws : Nat) : CoinbaseWsOrderGateway :=
  match gateway.sockets.lookup ws with
  | none => gateway.touchStale
  | some data =>
      { gateway with sockets := gateway.sockets.insert ws { data with subscribedHeartbeat := true } }

def abort (gateway : CoinbaseWsOrderGateway) (ws : Nat) : CoinbaseWsOrderGateway :=
  (gateway.send ws .error).handleClose ws

def snapshot (gateway : CoinbaseWsOrderGateway) (user : UserId) : List OrderJson :=
  (gateway.orders.ordersOfUser user).map Order.toJson

def answer (gateway : CoinbaseWsOrderGateway) (ws : Nat) (user : UserId) : UserChannel → CoinbaseWsOrderGateway
  | .user =>
      let orders := gateway.snapshot user
      if ∀ order ∈ orders, order.Dumps then
        let answered := gateway.sendNumbered ws fun seqNum => .orders seqNum orders
        if IsUtf8 user then answered.sendNumbered ws .subscriptions else answered.abort ws
      else gateway.abort ws
  | .heartbeats => (gateway.subscribeHeartbeat ws).sendNumbered ws .subscriptions
  | .futuresBalanceSummary => gateway.sendNumbered ws .balances
  | .unsupported => gateway.send ws .error

def handleMessage (gateway : CoinbaseWsOrderGateway) (ws : Nat) :
    UserChannelMessage → CoinbaseWsOrderGateway
  | .unsupported | .withoutToken => gateway.send ws .error
  | .malformed => gateway.terminate
  | .subscribe none _ => gateway.abort ws
  -- The missing channel throws once the socket has been registered.
  | .subscribe (some sub) none => (gateway.register ws sub).abort ws
  | .subscribe (some sub) (some channel) => (gateway.register ws sub).answer ws (userOfSubject sub) channel

def handlePong (gateway : CoinbaseWsOrderGateway) (ws now : Nat) : CoinbaseWsOrderGateway :=
  match gateway.sockets.lookup ws with
  | none => gateway.touchStale
  | some data => { gateway with sockets := gateway.sockets.insert ws { data with lastPong := now } }

def handleOrderResponse (gateway : CoinbaseWsOrderGateway) (response : OrderResponse) (ws : Nat) :
    CoinbaseWsOrderGateway :=
  if response.orderStatus = .pendingNew then gateway
  else if response.update.Dumps then gateway.sendNumbered ws fun seqNum => .update seqNum response.update
  else gateway.terminate

def processResponse (gateway : CoinbaseWsOrderGateway) (response : OrderResponse) : CoinbaseWsOrderGateway :=
  let gateway := { gateway with orders := gateway.orders.apply response }
  if response.userId.isEmpty then gateway
  else
    match gateway.clients.lookup response.userId.bytes with
    | none => gateway
    | some ws => gateway.handleOrderResponse response ws

def maxBatch : Nat := 100

/-- The loop of `process_all_responses`, which a response that cannot be told ends. -/
def processResponses : Nat → CoinbaseWsOrderGateway → CoinbaseWsOrderGateway
  | 0, gateway => gateway
  | batch + 1, gateway =>
      match gateway.unread with
      | [] => gateway
      | response :: unread =>
          let processed := { gateway with unread }.processResponse response
          if processed.terminated then processed else processResponses batch processed

def processAllResponses (gateway : CoinbaseWsOrderGateway) : CoinbaseWsOrderGateway :=
  gateway.processResponses maxBatch

/-- Whether a socket has answered no ping for more seconds than it may. -/
def TimedOut (pongTimeout now : Nat) (data : PerSocketData) : Prop :=
  pongTimeout < (now - data.lastPong) / 1000000000

instance (pongTimeout now : Nat) (data : PerSocketData) : Decidable (TimedOut pongTimeout now data) :=
  Nat.decLt ..

def sendHeartbeat (gateway : CoinbaseWsOrderGateway) (ws : Nat) : CoinbaseWsOrderGateway :=
  { gateway.sendNumbered ws fun seqNum => .heartbeat seqNum gateway.heartbeatCount with
    heartbeatCount := gateway.heartbeatCount + 1 }

/-- The loop body of `check_heartbeats`. -/
def checkClient (gateway : CoinbaseWsOrderGateway) (pongTimeout now : Nat) (user : UserId) :
    CoinbaseWsOrderGateway :=
  match gateway.clients.lookup user with
  | none => gateway
  | some ws =>
      match gateway.sockets.lookup ws with
      | none => gateway.touchStale
      | some data =>
          if TimedOut pongTimeout now data then
            { gateway with clients := gateway.clients.erase user }.handleClose ws
          else
            (if data.subscribedHeartbeat then gateway.sendHeartbeat ws else gateway).send ws .ping

/-- The iterator already stands on the next entry when the close handler erases one. -/
def checkHeartbeats (pongTimeout now : Nat) : List UserId → CoinbaseWsOrderGateway → CoinbaseWsOrderGateway
  | [], gateway => gateway
  | user :: visits, gateway =>
      let checked := gateway.checkClient pongTimeout now user
      let stands := visits.find? (· ∈ gateway.clients)
      checkHeartbeats pongTimeout now visits
        (if stands.any (· ∉ checked.clients) then checked.touchStale else checked)

/-- The event loop runs no handler once an exception has left one. -/
def whileRunning (gateway : CoinbaseWsOrderGateway)
    (handler : CoinbaseWsOrderGateway → CoinbaseWsOrderGateway) : CoinbaseWsOrderGateway :=
  if gateway.terminated then gateway else handler gateway

def step (pongTimeout : Nat) (gateway : CoinbaseWsOrderGateway) : GatewayEvent → CoinbaseWsOrderGateway
  | .connect ws now => gateway.whileRunning (connect · ws now)
  | .message ws message => gateway.whileRunning (handleMessage · ws message)
  | .pong ws now => gateway.whileRunning (handlePong · ws now)
  | .close ws => gateway.whileRunning (handleClose · ws)
  | .respond response => { gateway with unread := gateway.unread ++ [response] }
  | .processAllResponses => gateway.whileRunning processAllResponses
  | .checkHeartbeats now visits => gateway.whileRunning (checkHeartbeats pongTimeout now visits)

def run (pongTimeout : Nat) (gateway : CoinbaseWsOrderGateway) (events : List GatewayEvent) :
    CoinbaseWsOrderGateway :=
  events.foldl (step pongTimeout) gateway

/-- What the event loop offers: a socket that connects is not open, events come from open
sockets, and a walk of the map visits every entry once. -/
def Offers (gateway : CoinbaseWsOrderGateway) : GatewayEvent → Prop
  | .connect ws _ => ws ∉ gateway.sockets
  | .message ws _ | .pong ws _ | .close ws => ws ∈ gateway.sockets
  | .checkHeartbeats _ visits => visits.Perm gateway.clients.keys
  | .respond _ | .processAllResponses => True

instance (gateway : CoinbaseWsOrderGateway) (event : GatewayEvent) : Decidable (gateway.Offers event) :=
  match event with
  | .connect .. => inferInstanceAs (Decidable (_ ∉ _))
  | .message .. | .pong .. | .close _ => inferInstanceAs (Decidable (_ ∈ _))
  | .checkHeartbeats .. => inferInstanceAs (Decidable (List.Perm _ _))
  | .respond _ | .processAllResponses => isTrue trivial

/-- No event comes once the process has ended. -/
def Admits (gateway : CoinbaseWsOrderGateway) (event : GatewayEvent) : Prop :=
  gateway.terminated = false ∧ gateway.Offers event

instance (gateway : CoinbaseWsOrderGateway) (event : GatewayEvent) : Decidable (gateway.Admits event) :=
  inferInstanceAs (Decidable (_ ∧ _))

end CoinbaseWsOrderGateway

end SlickSim
