import SlickSim.Exchange.Feed

/-!
# Hyperliquid

Snapshots, diffs and trades after the JSON has been read. Every book mutation is
stamped 0, and the phantom orders of a new level are added with priority 0.
-/

set_option autoImplicit false

namespace SlickSim

structure L2Row where
  price : Int
  qty : Int
deriving DecidableEq, Repr

def oneMillisecondNs : Nat := 1000000

structure L2Snapshot where
  timeMs : Nat
  bids : List L2Row
  asks : List L2Row
deriving DecidableEq, Repr

structure L2Diff where
  timeMs : Nat
  /-- Indices of removed levels, bids and asks, when the message has them. -/
  removed : Option (List Nat × List Nat)
  bids : List L2Row
  asks : List L2Row
deriving DecidableEq, Repr

structure HyperliquidTrade where
  side : Side
  price : Int
  qty : Int
  timeMs : Nat
deriving DecidableEq, Repr

namespace Exchange

variable {β : Type}

def setRefLevels (exchange : Exchange β) (side : BookSide) (prices : List Int) : Exchange β :=
  { exchange with
    hyperliquid := { exchange.hyperliquid with
      l2RefLevels := Function.update exchange.hyperliquid.l2RefLevels side prices } }

variable [OrderBookL3 β]

/-- Matches venue liquidity under a fresh id and rests what is left of it, under
the priority 0 that the book reads as the timestamp. -/
def restTimestamped (exchange : Exchange β) (env : Environment) (config : SymbolConfig) (side : Side)
    (price qty : Int) (eventTimeNs : Nat) : List TradeSummaryInfo × Exchange β :=
  let orderId := exchange.book.globals.nextOrderId
  let exchange := exchange.onBook OrderBook.nextOrderId
  let (qty, summaries, matching) := config.matchingEngine.matchFeed env side orderId price qty
    eventTimeNs 0 exchange.matching
  let exchange := { exchange with matching }
  if 0 < qty then
    (summaries, exchange.onBook fun book =>
      book.addL3Order orderId (toBookSide side) price qty eventTimeNs 0 0 true)
  else (summaries, exchange)

def finalizeL2Event (exchange : Exchange β) : Exchange β :=
  let bookPending := exchange.hyperliquid.pendingL2Book
  let l2Pending := exchange.hyperliquid.pendingL2
  let exchange := if bookPending then exchange.populateL2SubscriptionResponse else exchange
  let exchange := if l2Pending then exchange.populateL2SubscriptionResponse else exchange
  let exchange := { exchange with
    hyperliquid := { exchange.hyperliquid with pendingL2Book := false, pendingL2 := false } }
  if bookPending = false ∨ l2Pending = false then exchange.populateL2Snapshot else exchange

def applyL2Side (exchange : Exchange β) (env : Environment) (config : SymbolConfig) (side : Side)
    (eventTimeNs : Nat) : List L2Row → Exchange β
  | [] => exchange
  | row :: rest =>
      if row.qty ≤ 0 then applyL2Side exchange env config side eventTimeNs rest
      else
        let (summaries, exchange) :=
          exchange.restTimestamped env config side row.price row.qty eventTimeNs
        let exchange := exchange.publishTradeSummaries summaries
        let exchange := exchange.setRefLevels (toBookSide side)
          (exchange.hyperliquid.l2RefLevels (toBookSide side) ++ [row.price])
        applyL2Side exchange env config side eventTimeNs rest

def processL2Snapshot (exchange : Exchange β) (env : Environment) (config : SymbolConfig)
    (snapshot : L2Snapshot) : Exchange β :=
  let eventTimeNs := snapshot.timeMs * oneMillisecondNs
  let exchange := (exchange.onBook OrderBook.clearMDOrders).noteMark .rebuilt
  let exchange := (exchange.setRefLevels .buy []).setRefLevels .sell []
  let exchange := exchange.applyL2Side env config .buy eventTimeNs snapshot.bids
  let exchange := exchange.applyL2Side env config .sell eventTimeNs snapshot.asks
  let exchange := exchange.onBook fun book => book.setLastUpdate eventTimeNs 0
  exchange.finalizeL2Event.onBook OrderBook.clearCaches

def applyPhantomLevelUpdate (exchange : Exchange β) (env : Environment) (config : SymbolConfig)
    (side : Side) (price targetQty : Int) (eventTimeNs : Nat) : Exchange β :=
  match OrderBookL3.getLevel exchange.book.l3 (toBookSide side) price with
  | none =>
      if targetQty ≤ 0 then exchange
      else
        let (summaries, exchange) :=
          exchange.restTimestamped env config side price targetQty eventTimeNs
        exchange.publishTradeSummaries summaries
  | some _ => exchange.reconcilePhantomQty side price targetQty eventTimeNs 0 true

/-- Removes levels by price, each from the book and then from the mirror. -/
def removeL2Prices (exchange : Exchange β) (env : Environment) (config : SymbolConfig) (side : Side)
    (eventTimeNs : Nat) : List Int → Exchange β
  | [] => exchange
  | price :: rest =>
      let exchange := exchange.applyPhantomLevelUpdate env config side price 0 eventTimeNs
      let exchange := exchange.setRefLevels (toBookSide side)
        ((exchange.hyperliquid.l2RefLevels (toBookSide side)).erase price)
      removeL2Prices exchange env config side eventTimeNs rest

/-- Puts a price where `std::lower_bound` finds its place, unless it is there. -/
def insertRefLevel (side : BookSide) (price : Int) : List Int → List Int
  | [] => [price]
  | head :: rest =>
      if isPriceBetter side head price then head :: insertRefLevel side price rest
      else if head = price then head :: rest
      else price :: head :: rest

def changeL2Rows (exchange : Exchange β) (env : Environment) (config : SymbolConfig) (side : Side)
    (eventTimeNs : Nat) : List L2Row → Exchange β
  | [] => exchange
  | row :: rest =>
      let exchange := exchange.applyPhantomLevelUpdate env config side row.price row.qty eventTimeNs
      let exchange := exchange.setRefLevels (toBookSide side)
        (insertRefLevel (toBookSide side) row.price (exchange.hyperliquid.l2RefLevels (toBookSide side)))
      changeL2Rows exchange env config side eventTimeNs rest

/-- Removes levels by index. Every index is resolved against the mirror as it stood
before. -/
def removeL2Indices (exchange : Exchange β) (env : Environment) (config : SymbolConfig) (side : Side)
    (eventTimeNs : Nat) (indices : List Nat) : Exchange β :=
  let reference := exchange.hyperliquid.l2RefLevels (toBookSide side)
  exchange.removeL2Prices env config side eventTimeNs
    (indices.filterMap fun index => reference[index]?)

def removeL2Levels (exchange : Exchange β) (env : Environment) (config : SymbolConfig)
    (eventTimeNs : Nat) : Option (List Nat × List Nat) → Exchange β
  | none => exchange
  | some (bids, asks) =>
      (exchange.removeL2Indices env config .buy eventTimeNs bids).removeL2Indices env config .sell
        eventTimeNs asks

def processL2Diff (exchange : Exchange β) (env : Environment) (config : SymbolConfig)
    (diff : L2Diff) : Exchange β :=
  let eventTimeNs := diff.timeMs * oneMillisecondNs
  let exchange := exchange.removeL2Levels env config eventTimeNs diff.removed
  let exchange := exchange.changeL2Rows env config .buy eventTimeNs diff.bids
  let exchange := exchange.changeL2Rows env config .sell eventTimeNs diff.asks
  let exchange := exchange.onBook fun book => book.setLastUpdate eventTimeNs 0
  exchange.finalizeL2Event.onBook OrderBook.clearCaches

/-- One print: replayed as an aggressor, credited and published. -/
def applyTrade (exchange : Exchange β) (env : Environment) (config : SymbolConfig)
    (trade : HyperliquidTrade) : Exchange β :=
  let eventTimeNs := trade.timeMs * oneMillisecondNs
  let before := exchange.book
  let (summaries, exchange) :=
    exchange.restTimestamped env config trade.side trade.price trade.qty eventTimeNs
  let exchange := exchange.notePrint before (MatchingEngine.sweptSide trade.side) eventTimeNs
  summaries.foldl (fun exchange summary =>
    (exchange.creditTradedQty (oppositeSide trade.side) summary.price summary.phantomQty
      eventTimeNs).publishTradeSummary summary) exchange

def applyTrades (exchange : Exchange β) (env : Environment) (config : SymbolConfig)
    (trades : List HyperliquidTrade) : Exchange β :=
  trades.foldl (fun exchange trade => exchange.applyTrade env config trade) exchange

/-- `processTradesEvent` on a message that names this coin. -/
def processTradesEvent (exchange : Exchange β) (env : Environment) (config : SymbolConfig)
    (trades : List HyperliquidTrade) : Exchange β :=
  if trades.isEmpty then exchange
  else
    let exchange := exchange.applyTrades env config trades
    exchange.populateL2Snapshot.onBook OrderBook.clearCaches

end Exchange

end SlickSim
