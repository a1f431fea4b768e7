import SlickSim.Exchange.Feed

/-!
# Coinbase

The snapshot rebuild and the dispatch of one sequenced event. The book is
stamped with dispatch order, never with the venue's sequence.
-/

set_option autoImplicit false

namespace SlickSim

inductive EventType where
  | levelUpdate
  | trade
deriving DecidableEq, Repr

@[ext] structure CoinbaseEvent where
  type : EventType
  eventTime : Nat
  seqNum : Nat
  price : Int
  qty : Int
  side : Side
  flags : UpdateFlags
  qty_nonneg : 0 ≤ qty

instance : DecidableEq CoinbaseEvent := fun _ _ => decidable_of_iff _ CoinbaseEvent.ext_iff.symm

@[ext] structure Level2Update where
  side : Side
  price : Int
  newQuantity : Int
  eventTime : Nat
  newQuantity_nonneg : 0 ≤ newQuantity

instance : DecidableEq Level2Update := fun _ _ => decidable_of_iff _ Level2Update.ext_iff.symm

namespace Exchange

variable {β : Type} [OrderBookL3 β]

/-- Catches up with the book's own sequence, then steps. -/
def nextBookSeqNum (exchange : Exchange β) : Nat × Exchange β :=
  let seqNum := max exchange.coinbase.nextBookSeqNum (OrderBookL3.lastSeqNum exchange.book.l3) + 1
  (seqNum, { exchange with coinbase := { exchange.coinbase with nextBookSeqNum := seqNum } })

def restVenueQty (exchange : Exchange β) (env : Environment) (config : SymbolConfig) (side : Side)
    (price qty : Int) (eventTime seqNum : Nat) (isLastInBatch : Bool) :
    Int × List TradeSummaryInfo × Exchange β :=
  let orderId := exchange.book.globals.nextOrderId
  let exchange := exchange.onBook OrderBook.nextOrderId
  let (qty, summaries, matching) := config.matchingEngine.matchFeed env side orderId price qty
    eventTime seqNum exchange.matching
  let exchange := { exchange with matching }
  if qty ≠ 0 then
    (qty, summaries, exchange.onBook fun book => book.addBookOrder orderId (toBookSide side) price
      qty eventTime seqNum isLastInBatch)
  else (qty, summaries, exchange)

/-- Puts a level's liquidity into the book: a level that is not there is matched
first, one that is there is brought to its target. -/
def placeVenueLevel (exchange : Exchange β) (env : Environment) (config : SymbolConfig)
    (event : CoinbaseEvent) (bookSeqNum : Nat) (hadLevel : Bool) : MDUpdateAction × Exchange β :=
  if hadLevel = false then
    let (qty, summaries, exchange) := exchange.restVenueQty env config event.side event.price
      event.qty event.eventTime bookSeqNum event.flags.endEvent
    (if qty ≠ 0 then MDUpdateAction.new else .change,
      (exchange.publishTradeSummaries summaries).flushMarketDataCaches)
  else
    (.change, exchange.reconcilePhantomQty event.side event.price event.qty event.eventTime
      bookSeqNum event.flags.endEvent)

/-- Publishes the buffered rows of an earlier sequence and buffers this event's row:
the level as the book holds it, not the venue's raw figure. -/
def bufferLevelRow (exchange : Exchange β) (event : CoinbaseEvent) (hadLevel : Bool) (index : Nat)
    (action : MDUpdateAction) : Exchange β :=
  let bookSide := toBookSide event.side
  let lastPublished :=
    if exchange.coinbase.lastPublishedLevelSeqNum = 0 then event.seqNum
    else exchange.coinbase.lastPublishedLevelSeqNum
  let buffer := exchange.coinbase.levelUpdateBuffer
  let (lastPublished, buffer, exchange) :=
    match buffer.getLast? with
    | none => (lastPublished, buffer, exchange)
    | some last =>
        if event.seqNum ≠ lastPublished then (last.seqNum, [], exchange.publishLevelUpdate buffer)
        else (lastPublished, buffer, exchange)
  let newLevel := OrderBookL3.getLevel exchange.book.l3 bookSide event.price
  let index :=
    if hadLevel = false ∧ newLevel.isSome = true then
      OrderBookL3.levelIndex exchange.book.l3 bookSide event.price
    else index
  let row : MDLevel :=
    { eventTime := event.eventTime, seqNum := event.seqNum, price := event.price
      qty := (newLevel.map PriceLevelL3.totalQuantity).getD 0
      numOrders := (newLevel.map fun level => level.orders.length).getD 0
      levelIndex := index, updateAction := if newLevel.isSome then action else .delete
      flags := event.flags, side := event.side, moment := exchange.book.levelTrail.length }
  { exchange with
    coinbase := { exchange.coinbase with
      lastPublishedLevelSeqNum := lastPublished
      levelUpdateBuffer := buffer ++ [row] } }

def dispatchLevelUpdate (exchange : Exchange β) (env : Environment) (config : SymbolConfig)
    (event : CoinbaseEvent) (bookSeqNum : Nat) : Exchange β :=
  if event.eventTime < exchange.book.lastUpdateTime then exchange
  else
    let bookSide := toBookSide event.side
    let hadLevel := (OrderBookL3.getLevel exchange.book.l3 bookSide event.price).isSome
    let index := OrderBookL3.levelIndex exchange.book.l3 bookSide event.price
    let (action, exchange) := exchange.placeVenueLevel env config event bookSeqNum hadLevel
    let exchange := exchange.onBook fun book => book.setLastUpdate event.eventTime event.seqNum
    exchange.bufferLevelRow event hadLevel index action

def dispatchTrade (exchange : Exchange β) (env : Environment) (config : SymbolConfig)
    (event : CoinbaseEvent) (bookSeqNum : Nat) : Exchange β :=
  let before := exchange.book
  let (_, summaries, exchange) := exchange.restVenueQty env config event.side event.price event.qty
    event.eventTime bookSeqNum event.flags.endEvent
  let exchange := exchange.notePrint before (MatchingEngine.sweptSide event.side) event.eventTime
  let exchange := summaries.foldl (fun exchange summary =>
    (exchange.creditTradedQty (oppositeSide event.side) summary.price summary.phantomQty
      event.eventTime).publishTradeSummary summary) exchange
  exchange.flushMarketDataCaches

/-- `dispatchEvent`, stamped as `processSequencedEvents` does. -/
def dispatchEvent (exchange : Exchange β) (env : Environment) (config : SymbolConfig)
    (event : CoinbaseEvent) : Exchange β :=
  let (bookSeqNum, exchange) := exchange.nextBookSeqNum
  match event.type with
  | .levelUpdate => exchange.dispatchLevelUpdate env config event bookSeqNum
  | .trade => exchange.dispatchTrade env config event bookSeqNum

def applySnapshotRow (exchange : Exchange β) (env : Environment) (config : SymbolConfig)
    (seqNum bookSeqNum : Nat) (update : Level2Update) (isLastInBatch : Bool) : Exchange β :=
  let (_, summaries, exchange) := exchange.restVenueQty env config update.side update.price
    update.newQuantity update.eventTime bookSeqNum isLastInBatch
  let exchange := exchange.publishTradeSummaries summaries
  if exchange.book.lastUpdateTime < update.eventTime then
    exchange.onBook fun book => book.setLastUpdate update.eventTime seqNum
  else exchange

/-- The rows of a snapshot in the order they are applied. The last one closes the batch. -/
def applySnapshotRows (exchange : Exchange β) (env : Environment) (config : SymbolConfig)
    (seqNum bookSeqNum : Nat) : List Level2Update → Exchange β
  | [] => exchange
  | update :: rest =>
      applySnapshotRows (exchange.applySnapshotRow env config seqNum bookSeqNum update rest.isEmpty) env
        config seqNum bookSeqNum rest

def onLevel2Snapshot (exchange : Exchange β) (env : Environment) (config : SymbolConfig)
    (seqNum : Nat) (updates : List Level2Update) : Exchange β :=
  let pending := exchange.coinbase.pendingLevel2
  let exchange := (exchange.onBook OrderBook.clearMDOrders).noteMark .rebuilt
  let exchange := { exchange with
    coinbase := { exchange.coinbase with levelUpdateBuffer := [], lastPublishedLevelSeqNum := 0 } }
  let (bookSeqNum, exchange) := exchange.nextBookSeqNum
  let exchange := exchange.applySnapshotRows env config seqNum bookSeqNum updates.reverse
  let exchange :=
    if pending then
      { exchange.populateL2SubscriptionResponse with
        coinbase := { exchange.coinbase with pendingLevel2 := false } }
    else exchange.populateL2Snapshot
  exchange.onBook OrderBook.clearCaches

end Exchange

end SlickSim
