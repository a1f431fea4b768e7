import SlickSim.Exchange.Symbol

/-!
# The exchange around one symbol

Request handling and market-data publication of `Exchange`, for the exchange as
one of its symbols sees it: a request for another symbol is answered as for an
unknown contract.
-/

set_option autoImplicit false

namespace SlickSim

/-- Phantom quantity one print removed, until a level update accounts for it. -/
structure TradedCredit where
  qty : Int
  eventTime : Nat
deriving DecidableEq, Repr

inductive VenueMark where
  | print (eventTime : Nat) (removed : BookSide → Int → Int)
  | rebuilt
  | reconciled (side : BookSide) (price : Int) (asOf : Nat)

/-- `SymbolEventState`, without the queue events wait in. -/
structure CoinbaseState where
  nextBookSeqNum : Nat
  levelUpdateBuffer : List MDLevel
  lastPublishedLevelSeqNum : Nat
  /-- A first `LEVEL2` subscriber still waits for its snapshot. -/
  pendingLevel2 : Bool
deriving DecidableEq

structure HyperliquidState where
  /-- `l2_ref_levels_`: the venue's prices best first. -/
  l2RefLevels : BookSide → List Int
  pendingL2Book : Bool
  pendingL2 : Bool

structure Exchange (β : Type) where
  matching : MatchState β
  clientIds : AList (fun _ : Name => Int)
  nextClientId : Int
  mdQueue : List MDFrame
  publishOrderUpdates : Bool
  nextVenueTradeId : Nat
  tradeHistory : List MDTrade
  tradedQtyCredit : BookSide → AList (fun _ : Int => List TradedCredit)
  /-- The history credits are compared with, newest first. -/
  venueLog : List VenueMark
  marketChanged : Bool
  coinbase : CoinbaseState
  hyperliquid : HyperliquidState

def tradeHistoryCapacity : Nat := 64

namespace Exchange

variable {β : Type}

def onMatching (exchange : Exchange β) (change : MatchState β → MatchState β) : Exchange β :=
  { exchange with matching := change exchange.matching }

def onBook (exchange : Exchange β) (change : OrderBook β → OrderBook β) : Exchange β :=
  exchange.onMatching fun state => state.onBook change

def book (exchange : Exchange β) : OrderBook β :=
  exchange.matching.book

/-- The client number of a user, drawn at first sight. No user, no number. -/
def clientIdFor (exchange : Exchange β) (userId : Name) : Int × Exchange β :=
  if userId.isEmpty then (-1, exchange)
  else
    match exchange.clientIds.lookup userId with
    | some clientId => (clientId, exchange)
    | none =>
        (exchange.nextClientId,
          { exchange with
            clientIds := exchange.clientIds.insert userId exchange.nextClientId
            nextClientId := exchange.nextClientId + 1 })

/-! ## Market data -/

def publishLevelUpdate (exchange : Exchange β) (rows : List MDLevel) : Exchange β :=
  { exchange with mdQueue := exchange.mdQueue ++ [.level rows] }

def publishMDOrderUpdate (exchange : Exchange β) (rows : List MDOrder) : Exchange β :=
  { exchange with mdQueue := exchange.mdQueue ++ [.order rows] }

def flushMarketDataCaches (exchange : Exchange β) : Exchange β :=
  let levels := exchange.book.mdLevelUpdateCache
  let orders := exchange.book.mdOrderUpdateCache
  let exchange := if levels.isEmpty then exchange else exchange.publishLevelUpdate levels
  let exchange :=
    if orders.isEmpty ∨ exchange.publishOrderUpdates = false then exchange
    else exchange.publishMDOrderUpdate orders
  exchange.onBook OrderBook.clearCaches

/-- `Symbol::recordTrade`, into a ring that forgets the oldest: pushes fill all cells but one. -/
def recordTrade (exchange : Exchange β) (trade : MDTrade) : Exchange β :=
  let history := exchange.tradeHistory ++ [trade]
  { exchange with tradeHistory := history.drop (history.length + 1 - tradeHistoryCapacity) }

def publishTradeSummary (exchange : Exchange β) (summary : TradeSummaryInfo) : Exchange β :=
  let tradeId := exchange.nextVenueTradeId
  let exchange : Exchange β := { exchange with
    nextVenueTradeId := tradeId + 1
    mdQueue := exchange.mdQueue ++ [.tradeSummary tradeId summary] }
  exchange.recordTrade
    { tradeId, eventTime := summary.timestamp, seqNum := 0, price := summary.price
      qty := summary.qty, flags := {}, side := summary.aggressorSide }

def publishTradeSummaries (exchange : Exchange β) (summaries : List TradeSummaryInfo) : Exchange β :=
  summaries.foldl publishTradeSummary exchange

/-- One credit per timestamp: a second print stamped alike adds to the first. -/
def addCredit (qty : Int) (eventTime : Nat) : List TradedCredit → List TradedCredit
  | [] => [{ qty, eventTime }]
  | credit :: rest =>
      if credit.eventTime = eventTime then { credit with qty := credit.qty + qty } :: rest
      else credit :: addCredit qty eventTime rest

def creditTradedQty (exchange : Exchange β) (side : Side) (price phantomConsumed : Int)
    (eventTime : Nat) : Exchange β :=
  if phantomConsumed ≤ 0 ∨ side = .unknownSide then exchange
  else
    let byPrice := exchange.tradedQtyCredit (toBookSide side)
    let credits := addCredit phantomConsumed eventTime ((byPrice.lookup price).getD [])
    { exchange with
      tradedQtyCredit :=
        Function.update exchange.tradedQtyCredit (toBookSide side) (byPrice.insert price credits) }

def takeTradedQty (exchange : Exchange β) (side : Side) (price : Int) (asOf : Nat) :
    Int × Exchange β :=
  if side = .unknownSide then (0, exchange)
  else
    let bookSide := toBookSide side
    match (exchange.tradedQtyCredit bookSide).lookup price with
    | none => (0, exchange)
    | some credits =>
        let kept := credits.filter fun credit => asOf < credit.eventTime
        let byPrice :=
          if kept.isEmpty then (exchange.tradedQtyCredit bookSide).erase price
          else (exchange.tradedQtyCredit bookSide).insert price kept
        ((kept.map TradedCredit.qty).sum,
          { exchange with
            tradedQtyCredit := Function.update exchange.tradedQtyCredit bookSide byPrice })

def noteMark (exchange : Exchange β) (mark : VenueMark) : Exchange β :=
  { exchange with venueLog := mark :: exchange.venueLog }

variable [OrderBookL3 β]

/-- Records what a print took from the side it swept, given the book before it. -/
def notePrint (exchange : Exchange β) (before : OrderBook β) (swept : BookSide) (eventTime : Nat) :
    Exchange β :=
  exchange.noteMark (.print eventTime fun side price =>
    if side = swept then before.phantomQtyAt side price - exchange.book.phantomQtyAt side price else 0)

/-- The rows `populateL2Snapshot` writes for one side. -/
def snapshotRows (book : OrderBook β) (side : BookSide) : List SnapshotLevel :=
  (OrderBookL3.getLevelsL3 book.l3 side).map fun level =>
    { price := level.price, qty := level.totalQuantity, numOrders := level.orders.length }

def populateL2Snapshot (exchange : Exchange β) : Exchange β :=
  { exchange with
    mdQueue := exchange.mdQueue ++
      [.bookSnapshot (snapshotRows exchange.book .buy) (snapshotRows exchange.book .sell)] }

def populateL2SubscriptionResponse (exchange : Exchange β) : Exchange β :=
  { exchange with
    mdQueue := exchange.mdQueue ++
      [.subResponse (snapshotRows exchange.book .buy) (snapshotRows exchange.book .sell)] }

/-! ## Requests -/

/-- What `handleNewOrderRequest` writes onto the order it allocated. -/
def fillNewOrder (config : SymbolConfig) (header : RequestHeader) (msg : AddOrderMessage)
    (clientId : Int) (order : Order) : Order :=
  { order.resetFillAccounting msg.qty with
    symbol := config.symbol
    clientOrderId := msg.clientOrderId
    userId := msg.userId
    clientId := clientId
    side := msg.side
    type := msg.type
    timeInForce := msg.timeInForce
    price := msg.price
    status := .pendingNew
    requestTag := header.requestTag }

def handleNewOrderRequest (exchange : Exchange β) (env : Environment) (config : SymbolConfig)
    (header : RequestHeader) (msg : AddOrderMessage) : Exchange β :=
  if header.symbol ≠ config.symbol then
    exchange.onMatching fun state => state.rejectNewOrderRequest env header msg .unknownContract
  else if msg.clientOrderId.isEmpty = false ∧
      (exchange.book.findOrderByClientOrderId msg.clientOrderId).isSome = true then
    exchange.onMatching fun state =>
      state.rejectNewOrderRequest env header msg .clientOrderIdAlreadyExists
  else
    let (ref, book) := exchange.book.allocateOrder env
    let exchange := exchange.onBook fun _ => book
    let (clientId, exchange) := exchange.clientIdFor msg.userId
    let exchange := exchange.onBook fun book =>
      book.updateOrder ref (fillNewOrder config header msg clientId)
    let exchange := exchange.onMatching fun state =>
      state.sendOrderNewPending env ref header.timeStamp
    let (rejectReason, summaries, matching) :=
      exchange.matching.addOrder env config ref header.timeStamp
    let exchange := { exchange with matching }.publishTradeSummaries summaries
    let exchange :=
      if rejectReason ≠ .none ∧ rejectReason ≠ .fokCannotFill then
        exchange.onMatching fun state => state.rejectNewOrderRequest env header msg rejectReason
      else exchange
    exchange.flushMarketDataCaches

/-- An amendment or a cancel names its order by client order id when it has one. -/
def selectOrder (book : OrderBook β) (clientOrderId orderId : Name) : Option Nat :=
  if clientOrderId.isEmpty = false then book.findOrderByClientOrderId clientOrderId
  else book.findOrderByOrderId orderId

def beginReplace (requestTag now : Nat) (order : Order) : Order :=
  { order with status := .pendingReplace, lastUpdateTime := now, requestTag }

def handleModifyOrderRequest (exchange : Exchange β) (env : Environment) (config : SymbolConfig)
    (header : RequestHeader) (msg : ModifyOrderMessage) : Exchange β :=
  if header.symbol ≠ config.symbol then
    exchange.onMatching fun state => state.rejectModifyOrderRequest env header msg .unknownContract
  else
    match selectOrder exchange.book msg.clientOrderId msg.orderId with
    | none =>
        exchange.onMatching fun state => state.rejectModifyOrderRequest env header msg .unknownOrder
    | some ref =>
        let acceptedTag := (exchange.matching.order ref).requestTag
        let now := exchange.book.currentTime env
        let exchange := exchange.onBook fun book =>
          book.readClock.updateOrder ref (beginReplace header.requestTag now)
        let exchange := exchange.onMatching fun state =>
          state.sendOrderReplacePending env ref header.timeStamp
        let (rejectReason, summaries, matching) :=
          exchange.matching.modifyOrder env config ref msg.newPrice msg.newQty header.timeStamp
        let exchange := { exchange with matching }.publishTradeSummaries summaries
        let exchange :=
          if rejectReason ≠ .none then
            (exchange.onBook fun book => book.updateOrder ref fun order =>
              { order with requestTag := acceptedTag }).onMatching fun state =>
                state.rejectModifyOrderRequest env header msg rejectReason
          else exchange
        exchange.flushMarketDataCaches

def beginCancel (requestTag : Nat) (order : Order) : Order :=
  { order with status := .pendingCancel, requestTag }

def handleCancelOrderRequest (exchange : Exchange β) (env : Environment) (config : SymbolConfig)
    (header : RequestHeader) (msg : CancelOrderMessage) : Exchange β :=
  if header.symbol ≠ config.symbol then
    exchange.onMatching fun state => state.rejectCancelOrderRequest env header msg .unknownContract
  else
    match selectOrder exchange.book msg.clientOrderId msg.orderId with
    | none =>
        exchange.onMatching fun state => state.rejectCancelOrderRequest env header msg .unknownOrder
    | some ref =>
        let exchange := exchange.onBook fun book =>
          book.updateOrder ref (beginCancel header.requestTag)
        let exchange := exchange.onMatching fun state =>
          (state.sendOrderCancelPending env ref header.timeStamp).cancelOrder env ref header.timeStamp
        exchange.flushMarketDataCaches

end Exchange

end SlickSim
