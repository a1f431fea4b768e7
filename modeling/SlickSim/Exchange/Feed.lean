import SlickSim.Exchange.Exchange

/-!
# Feed operations

What `Exchange` offers the venues: bringing the phantom quantity of a level to a
target, and mirroring an order-by-order feed.
-/

set_option autoImplicit false

namespace SlickSim

/-- One of the venue's own orders entering, changing or leaving the book. -/
@[ext] structure MarketOrderEvent where
  bookOrderId : Nat
  bookPriority : Nat
  price : Int
  transactTime : Nat
  qty : Int
  side : Side
  action : MDUpdateAction
  requeue : Bool
  qty_nonneg : 0 ≤ qty

instance : DecidableEq MarketOrderEvent := fun _ _ => decidable_of_iff _ MarketOrderEvent.ext_iff.symm

structure MarketTradeEvent where
  price : Int
  qty : Int
  aggressor : Side
  transactTime : Nat
deriving DecidableEq

structure PhantomReduction where
  orderId : Nat
  newQty : Int
  priority : Nat
deriving DecidableEq, Repr

namespace Exchange

variable {β : Type}

/-- The reductions that take `diff` off a level, given its orders back to front. -/
def phantomReductions (book : OrderBook β) : List BookOrder → Int → List PhantomReduction
  | [], _ => []
  | order :: rest, diff =>
      if diff ≤ 0 then []
      else if (book.findOrder order.orderId).isSome then phantomReductions book rest diff
      else
        let toReduce := min diff order.quantity
        { orderId := order.orderId, newQty := order.quantity - toReduce, priority := order.priority } ::
          phantomReductions book rest (diff - toReduce)

variable [OrderBookL3 β]

def reducePhantoms (book : OrderBook β) (price : Int) (eventTime seqNum : Nat) (endEvent : Bool) :
    List PhantomReduction → OrderBook β
  | [] => book
  | reduction :: rest =>
      reducePhantoms (book.modifyL3Order reduction.orderId price reduction.newQty eventTime
        reduction.priority seqNum (endEvent && rest.isEmpty)) price eventTime seqNum endEvent rest

def reconcilePhantomQty (exchange : Exchange β) (side : Side) (price targetQty : Int)
    (eventTime seqNum : Nat) (endEvent : Bool) : Exchange β :=
  match OrderBookL3.getLevel exchange.book.l3 (toBookSide side) price with
  | none => exchange
  | some level =>
      let (unreflected, exchange) := exchange.takeTradedQty side price eventTime
      let exchange := exchange.noteMark (.reconciled (toBookSide side) price eventTime)
      let targetQty :=
        if 0 < unreflected then (if targetQty > unreflected then targetQty - unreflected else 0)
        else targetQty
      let mdLevelQty := exchange.book.getMDLevelQty price
      if targetQty > mdLevelQty then
        let orderId := exchange.book.globals.nextOrderId
        exchange.onBook fun book => book.nextOrderId.addBookOrder orderId (toBookSide side) price
          (targetQty - mdLevelQty) eventTime seqNum endEvent
      else if targetQty < mdLevelQty then
        -- Chosen back to front before any of them is applied.
        let reductions := phantomReductions exchange.book level.orders.reverse (mdLevelQty - targetQty)
        exchange.onBook fun book => reducePhantoms book price eventTime seqNum endEvent reductions
      else exchange

/-- `restMarketOrder`: the order keeps the priority it came with. -/
def restMarketOrder (exchange : Exchange β) (env : Environment) (config : SymbolConfig)
    (event : MarketOrderEvent) : Exchange β :=
  let (qty, summaries, matching) := config.matchingEngine.matchFeed env event.side event.bookOrderId
    event.price event.qty event.transactTime 0 exchange.matching
  let exchange := { exchange with matching }.publishTradeSummaries summaries
  if 0 < qty then
    exchange.onBook fun book => book.addL3Order event.bookOrderId (toBookSide event.side) event.price
      qty event.transactTime event.bookPriority 0 true
  else exchange

def applyMarketOrder (exchange : Exchange β) (env : Environment) (config : SymbolConfig)
    (event : MarketOrderEvent) : Exchange β :=
  let exchange :=
    match event.action with
    | .new => exchange.restMarketOrder env config event
    | .delete => exchange.onBook fun book =>
        book.deleteL3Order event.bookOrderId event.transactTime 0 true
    | .change =>
        match OrderBookL3.findOrder exchange.book.l3 event.bookOrderId with
        | some resting =>
            if event.requeue = false then
              exchange.onBook fun book => book.modifyL3Order event.bookOrderId event.price event.qty
                event.transactTime resting.priority 0 true
            else
              (exchange.onBook fun book =>
                book.deleteL3Order event.bookOrderId event.transactTime 0 true).restMarketOrder env
                  config event
        | none => exchange.restMarketOrder env config event
  { exchange with marketChanged := true }

def replayMarketTrade (exchange : Exchange β) (env : Environment) (config : SymbolConfig)
    (event : MarketTradeEvent) : Exchange β :=
  let orderId := exchange.book.globals.nextOrderId
  let exchange := exchange.onBook OrderBook.nextOrderId
  let (_, summaries, matching) := config.matchingEngine.matchFeed env event.aggressor orderId
    event.price event.qty event.transactTime 0 exchange.matching
  { { exchange with matching }.publishTradeSummaries summaries with marketChanged := true }

def flushMarketEvents (exchange : Exchange β) : Exchange β :=
  if exchange.marketChanged then { exchange.flushMarketDataCaches with marketChanged := false }
  else exchange

end Exchange

end SlickSim
