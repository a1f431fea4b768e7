import Mathlib.Data.Prod.Lex
import Mathlib.Order.OrderDual
import SlickSim.Lib.PriorityQueue
import SlickSim.Exchange.Run

/-!
# Sequencing Coinbase events

Level updates and trades come in batches on two channels. They wait in a priority
queue of their symbol and are dispatched by the venue's timestamp.
-/

set_option autoImplicit false

namespace SlickSim

structure Event extends CoinbaseEvent where
  receivedTime : Nat
  /-- Internal counter for tiebreaking. -/
  sequenceId : Nat
deriving DecidableEq

@[ext] structure MarketTrade where
  productId : SymbolName
  side : Side
  price : Int
  size : Int
  time : Nat
  size_nonneg : 0 ≤ size

instance : DecidableEq MarketTrade := fun _ _ => decidable_of_iff _ MarketTrade.ext_iff.symm

/-- `EventCompare`: the left event is processed after the right one. -/
def eventCompare (left right : Event) : Bool :=
  if left.eventTime ≠ right.eventTime then decide (left.eventTime > right.eventTime)
  else if left.type ≠ right.type then decide (left.type ≠ .trade)
  else decide (left.sequenceId < right.sequenceId)

def oneSecondNs : Nat := 1000000000

/-- Whether `processSequencedEvents` releases an event. Times are unsigned and wrap. -/
def eventReady (force : Bool) (now lastEventTime : Nat) (event : Event) : Bool :=
  let safeByTimeGap := decide (0 < lastEventTime) &&
    decide ((event.eventTime + oneSecondNs) % 2 ^ 64 ≤ lastEventTime)
  let timeInQueue := (now + 2 ^ 64 - event.receivedTime) % 2 ^ 64
  force || safeByTimeGap || decide (oneSecondNs ≤ timeInQueue)

structure CoinbaseSymbol (β : Type) where
  exchange : Exchange β
  pendingEvents : List Event
  lastEventTime : Nat
  nextSequenceId : Nat

def levelEvent (seqNum : Nat) (update : Level2Update) (endEvent : Bool) : CoinbaseEvent :=
  { type := .levelUpdate, eventTime := update.eventTime, seqNum, price := update.price
    qty := update.newQuantity, side := update.side, flags := { endEvent }
    qty_nonneg := update.newQuantity_nonneg }

def tradeEvent (seqNum : Nat) (trade : MarketTrade) (endEvent : Bool) : CoinbaseEvent :=
  { type := .trade, eventTime := trade.time, seqNum, price := trade.price, qty := trade.size
    side := trade.side, flags := { endEvent }, qty_nonneg := trade.size_nonneg }

namespace CoinbaseSymbol

variable {β : Type}

/-- The event the next one to be pushed becomes. -/
def stamp (symbol : CoinbaseSymbol β) (env : Environment) (event : CoinbaseEvent) : Event :=
  { event with
    receivedTime := symbol.exchange.book.currentTime env
    sequenceId := symbol.nextSequenceId }

def enqueue (symbol : CoinbaseSymbol β) (env : Environment) (event : CoinbaseEvent) :
    CoinbaseSymbol β :=
  { exchange := symbol.exchange.onBook OrderBook.readClock
    pendingEvents := symbol.pendingEvents ++ [symbol.stamp env event]
    lastEventTime := max symbol.lastEventTime event.eventTime
    nextSequenceId := symbol.nextSequenceId + 1 }

def enqueueAll (symbol : CoinbaseSymbol β) (env : Environment) (events : List CoinbaseEvent) :
    CoinbaseSymbol β :=
  events.foldl (fun symbol event => symbol.enqueue env event) symbol

/-- The events of a batch in the order they are enqueued: the one enqueued first is
dispatched last and closes the batch. -/
def levelEvents (seqNum : Nat) (updates : List Level2Update) : List CoinbaseEvent :=
  match updates.reverse with
  | [] => []
  | last :: rest => levelEvent seqNum last true :: rest.map fun update => levelEvent seqNum update false

/-- The batch may carry prints of other products. -/
def tradeEvents (config : SymbolConfig) (seqNum : Nat) : List MarketTrade → List CoinbaseEvent
  | [] => []
  | newest :: rest =>
      (if newest.productId = config.symbol then [tradeEvent seqNum newest true] else []) ++
        (rest.filter fun trade => decide (trade.productId = config.symbol)).map fun trade =>
          tradeEvent seqNum trade false

/-- `onLevel2Updates`: the batch comes oldest first. -/
def onLevel2Updates (symbol : CoinbaseSymbol β) (env : Environment) (seqNum : Nat)
    (updates : List Level2Update) : CoinbaseSymbol β :=
  symbol.enqueueAll env (levelEvents seqNum updates)

/-- `onMarketTrades`: the batch comes newest first. -/
def onMarketTrades (symbol : CoinbaseSymbol β) (env : Environment) (config : SymbolConfig)
    (seqNum : Nat) (trades : List MarketTrade) : CoinbaseSymbol β :=
  symbol.enqueueAll env (tradeEvents config seqNum trades)

variable [OrderBookL3 β]

def processPending (env : Environment) (config : SymbolConfig) (ready : Event → Bool) :
    Nat → CoinbaseSymbol β → CoinbaseSymbol β
  | 0, symbol => symbol
  | fuel + 1, symbol =>
      match PriorityQueue.top eventCompare symbol.pendingEvents with
      | none => symbol
      | some event =>
          if ready event then
            processPending env config ready fuel
              { symbol with
                pendingEvents := symbol.pendingEvents.erase event
                exchange := symbol.exchange.dispatchEvent env config event.toCoinbaseEvent }
          else symbol

def processSequencedEvents (symbol : CoinbaseSymbol β) (env : Environment) (config : SymbolConfig)
    (force : Bool) : CoinbaseSymbol β :=
  let now := symbol.exchange.book.currentTime env
  let symbol := { symbol with exchange := symbol.exchange.onBook OrderBook.readClock }
  processPending env config (eventReady force now symbol.lastEventTime) symbol.pendingEvents.length symbol

/-- A snapshot discards the events for the book it replaces. -/
def onLevel2Snapshot (symbol : CoinbaseSymbol β) (env : Environment) (config : SymbolConfig)
    (seqNum : Nat) (updates : List Level2Update) : CoinbaseSymbol β :=
  { symbol with
    exchange := symbol.exchange.onLevel2Snapshot env config seqNum updates
    pendingEvents := [] }

def new (pool : Nat → Order) (publishOrderUpdates : Bool) : CoinbaseSymbol β :=
  { exchange := Exchange.new pool publishOrderUpdates, pendingEvents := [], lastEventTime := 0
    nextSequenceId := 0 }

end CoinbaseSymbol

inductive CoinbaseInput where
  | level2Updates (seqNum : Nat) (updates : List Level2Update)
  | marketTrades (seqNum : Nat) (trades : List MarketTrade)
  | level2Snapshot (seqNum : Nat) (updates : List Level2Update)
  | processSequencedEvents (force : Bool)
  | request (input : Input)
deriving DecidableEq

namespace CoinbaseSymbol

variable {β : Type} [OrderBookL3 β]

def step (symbol : CoinbaseSymbol β) (env : Environment) (config : SymbolConfig) :
    CoinbaseInput → CoinbaseSymbol β
  | .level2Updates seqNum updates => symbol.onLevel2Updates env seqNum updates
  | .marketTrades seqNum trades => symbol.onMarketTrades env config seqNum trades
  | .level2Snapshot seqNum updates => symbol.onLevel2Snapshot env config seqNum updates
  | .processSequencedEvents force => symbol.processSequencedEvents env config force
  | .request input => { symbol with exchange := symbol.exchange.step env config input }

end CoinbaseSymbol

end SlickSim
