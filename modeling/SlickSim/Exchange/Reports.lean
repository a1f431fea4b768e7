import SlickSim.Engine.Reports
import SlickSim.Exchange.Run

/-!
# What an input reports

The feeds of both venues and the mirrored events match for no order of a client, so
every report they cause is a fill of an order that was in the maps. Client numbers
change with new orders alone.
-/

set_option autoImplicit false

namespace SlickSim

def Input.isRequest : Input → Bool
  | .newOrder .. | .amend .. | .cancel .. => true
  | _ => false

namespace Exchange

variable {β : Type} {who : Option Nat} {first second third : Exchange β}

/-- One exchange comes from another by what a match may do, and nobody is numbered. -/
structure Serves (who : Option Nat) (before after : Exchange β) : Prop where
  matching : before.matching.Serves who after.matching
  clientIds : after.clientIds = before.clientIds
  nextClientId : after.nextClientId = before.nextClientId

namespace Serves

theorem refl (exchange : Exchange β) : exchange.Serves who exchange :=
  ⟨.refl _, rfl, rfl⟩

theorem quiet (run : first.Serves who second) (matching : third.matching = second.matching)
    (clientIds : third.clientIds = second.clientIds)
    (nextClientId : third.nextClientId = second.nextClientId) : first.Serves who third where
  matching := by rw [matching]; exact run.matching
  clientIds := clientIds.trans run.clientIds
  nextClientId := nextClientId.trans run.nextClientId

theorem onBook (run : first.Serves who second) {change : OrderBook β → OrderBook β}
    (keeps : second.book.Keeps who (change second.book)) : first.Serves who (second.onBook change) :=
  ⟨run.matching.onBook keeps, run.clientIds, run.nextClientId⟩

theorem onBookOnly (run : first.Serves who second) {change : OrderBook β → OrderBook β}
    (heap : (change second.book).heap = second.book.heap)
    (orders : (change second.book).orders = second.book.orders) :
    first.Serves who (second.onBook change) :=
  run.onBook (.of_eq heap orders)

theorem publishTradeSummaries (run : first.Serves who second) (summaries : List TradeSummaryInfo) :
    first.Serves who (second.publishTradeSummaries summaries) := by
  unfold Exchange.publishTradeSummaries
  induction summaries generalizing second with
  | nil => exact run
  | cons summary rest ih => exact ih (run.quiet rfl rfl rfl)

theorem creditTradedQty (run : first.Serves who second) (side : Side) (price phantomConsumed : Int)
    (eventTime : Nat) : first.Serves who (second.creditTradedQty side price phantomConsumed eventTime) := by
  unfold Exchange.creditTradedQty
  split
  · exact run
  · exact run.quiet rfl rfl rfl

theorem creditTrades (run : first.Serves who second) (side : Side) (eventTime : Nat)
    (summaries : List TradeSummaryInfo) :
    first.Serves who (summaries.foldl (fun exchange summary =>
      (exchange.creditTradedQty side summary.price summary.phantomQty eventTime).publishTradeSummary
        summary) second) := by
  induction summaries generalizing second with
  | nil => exact run
  | cons summary rest ih => exact ih ((run.creditTradedQty ..).quiet rfl rfl rfl)

theorem takeTradedQty (run : first.Serves who second) (side : Side) (price : Int) (asOf : Nat) :
    first.Serves who (second.takeTradedQty side price asOf).2 := by
  unfold Exchange.takeTradedQty
  split
  · exact run
  · dsimp only
    split
    · exact run
    · exact run.quiet rfl rfl rfl

theorem flushMarketDataCaches (run : first.Serves who second) :
    first.Serves who second.flushMarketDataCaches := by
  unfold Exchange.flushMarketDataCaches
  dsimp only
  refine Serves.onBookOnly ?_ rfl rfl
  split
  · split
    · exact run
    · exact run.quiet rfl rfl rfl
  · split
    · exact run.quiet rfl rfl rfl
    · exact run.quiet rfl rfl rfl

end Serves

/-! ## Feeds -/

variable [OrderBookL3 β] (env : Environment) (config : SymbolConfig) {start exchange : Exchange β}

open OrderBook (Keeps)

theorem matchFeed_serves (run : start.Serves none exchange) (side : Side) (orderId : Nat) (price qty : Int)
    (eventTime seqNum : Nat) :
    start.Serves none { exchange with
      matching := (config.matchingEngine.matchFeed env side orderId price qty eventTime seqNum
        exchange.matching).2.2 } :=
  ⟨MatchState.matchFeed_serves env run.matching .., run.clientIds, run.nextClientId⟩

theorem reducePhantoms_keeps (book : OrderBook β) (price : Int) (eventTime seqNum : Nat) (endEvent : Bool)
    (reductions : List PhantomReduction) :
    book.Keeps who (reducePhantoms book price eventTime seqNum endEvent reductions) := by
  induction reductions generalizing book with
  | nil => exact .refl _
  | cons reduction rest ih =>
      unfold reducePhantoms
      exact (OrderBook.modifyL3Order_keeps ..).trans (ih _)

theorem reconcilePhantomQty_serves (run : start.Serves who exchange) (side : Side) (price targetQty : Int)
    (eventTime seqNum : Nat) (endEvent : Bool) :
    start.Serves who (exchange.reconcilePhantomQty side price targetQty eventTime seqNum endEvent) := by
  unfold reconcilePhantomQty
  split
  · exact run
  · dsimp only
    have taken := run.takeTradedQty side price eventTime
    have noted : start.Serves who ((exchange.takeTradedQty side price eventTime).2.noteMark
        (.reconciled (toBookSide side) price eventTime)) := taken.quiet rfl rfl rfl
    generalize (exchange.takeTradedQty side price eventTime).2.noteMark _ = marked at noted ⊢
    generalize (if 0 < (exchange.takeTradedQty side price eventTime).1 then
      (if targetQty > (exchange.takeTradedQty side price eventTime).1 then
        targetQty - (exchange.takeTradedQty side price eventTime).1 else 0) else targetQty) = target
    split
    · exact noted.onBook (Keeps.since (OrderBook.addBookOrder_keeps ..) rfl rfl)
    · split
      · exact noted.onBook (reducePhantoms_keeps ..)
      · exact noted

theorem restMarketOrder_serves (run : start.Serves none exchange) (event : MarketOrderEvent) :
    start.Serves none (exchange.restMarketOrder env config event) := by
  unfold restMarketOrder
  dsimp only
  have published := (matchFeed_serves env config run event.side event.bookOrderId event.price event.qty
    event.transactTime 0).publishTradeSummaries (config.matchingEngine.matchFeed env event.side
      event.bookOrderId event.price event.qty event.transactTime 0 exchange.matching).2.1
  split
  · exact published.onBook (OrderBook.addL3Order_keeps ..)
  · exact published

theorem applyMarketOrder_serves (run : start.Serves none exchange) (event : MarketOrderEvent) :
    start.Serves none (exchange.applyMarketOrder env config event) := by
  have deleted : start.Serves none (exchange.onBook fun book =>
      book.deleteL3Order event.bookOrderId event.transactTime 0 true) :=
    run.onBook (OrderBook.deleteL3Order_keeps ..)
  unfold applyMarketOrder
  dsimp only
  have finishes : ∀ after : Exchange β, start.Serves none after →
      start.Serves none { after with marketChanged := true } := fun _ run => run.quiet rfl rfl rfl
  apply finishes
  cases event.action with
  | new => exact restMarketOrder_serves env config run event
  | delete => exact deleted
  | change =>
      dsimp only
      split
      · split
        · exact run.onBook (OrderBook.modifyL3Order_keeps ..)
        · exact restMarketOrder_serves env config deleted event
      · exact restMarketOrder_serves env config run event

theorem replayMarketTrade_serves (run : start.Serves none exchange) (event : MarketTradeEvent) :
    start.Serves none (exchange.replayMarketTrade env config event) := by
  unfold replayMarketTrade
  dsimp only
  have drawn : start.Serves none (exchange.onBook OrderBook.nextOrderId) := run.onBookOnly rfl rfl
  have matched := matchFeed_serves env config drawn event.aggressor exchange.book.globals.nextOrderId
    event.price event.qty event.transactTime 0
  exact (matched.publishTradeSummaries _).quiet rfl rfl rfl

theorem restVenueQty_serves (run : start.Serves none exchange) (side : Side) (price qty : Int)
    (eventTime seqNum : Nat) (isLast : Bool) :
    start.Serves none (exchange.restVenueQty env config side price qty eventTime seqNum isLast).2.2 := by
  unfold restVenueQty
  dsimp only
  have drawn : start.Serves none (exchange.onBook OrderBook.nextOrderId) := run.onBookOnly rfl rfl
  have matched := matchFeed_serves env config drawn side exchange.book.globals.nextOrderId price qty
    eventTime seqNum
  split
  · exact matched.onBook (OrderBook.addBookOrder_keeps ..)
  · exact matched

theorem placeVenueLevel_serves (run : start.Serves none exchange) (event : CoinbaseEvent) (bookSeqNum : Nat)
    (hadLevel : Bool) :
    start.Serves none (exchange.placeVenueLevel env config event bookSeqNum hadLevel).2 := by
  unfold placeVenueLevel
  split
  · exact ((restVenueQty_serves env config run ..).publishTradeSummaries _).flushMarketDataCaches
  · exact reconcilePhantomQty_serves run ..

theorem bufferLevelRow_serves (run : start.Serves who exchange) (event : CoinbaseEvent) (hadLevel : Bool)
    (index : Nat) (action : MDUpdateAction) :
    start.Serves who (exchange.bufferLevelRow event hadLevel index action) := by
  unfold bufferLevelRow
  dsimp only
  generalize (if exchange.coinbase.lastPublishedLevelSeqNum = 0 then event.seqNum
    else exchange.coinbase.lastPublishedLevelSeqNum) = lastPublished
  split
  · exact run.quiet rfl rfl rfl
  · split
    · exact run.quiet rfl rfl rfl
    · exact run.quiet rfl rfl rfl

theorem dispatchEvent_serves (run : start.Serves none exchange) (event : CoinbaseEvent) :
    start.Serves none (exchange.dispatchEvent env config event) := by
  unfold dispatchEvent
  have numbered : start.Serves none exchange.nextBookSeqNum.2 := run.quiet rfl rfl rfl
  generalize exchange.nextBookSeqNum = next at numbered ⊢
  obtain ⟨bookSeqNum, after⟩ := next
  dsimp only at numbered ⊢
  split
  · unfold dispatchLevelUpdate
    split
    · exact numbered
    · dsimp only
      exact bufferLevelRow_serves ((placeVenueLevel_serves env config numbered ..).onBookOnly rfl rfl) ..
  · unfold dispatchTrade
    dsimp only
    have rested := restVenueQty_serves env config numbered event.side event.price event.qty event.eventTime
      bookSeqNum event.flags.endEvent
    generalize after.restVenueQty env config event.side event.price event.qty event.eventTime bookSeqNum
      event.flags.endEvent = result at rested ⊢
    obtain ⟨left, summaries, last⟩ := result
    have noted : start.Serves none (last.notePrint after.book (MatchingEngine.sweptSide event.side)
      event.eventTime) := rested.quiet rfl rfl rfl
    exact (noted.creditTrades ..).flushMarketDataCaches

theorem applySnapshotRows_serves (seqNum bookSeqNum : Nat) (updates : List Level2Update)
    (run : start.Serves none exchange) :
    start.Serves none (exchange.applySnapshotRows env config seqNum bookSeqNum updates) := by
  induction updates generalizing exchange with
  | nil => exact run
  | cons update rest ih =>
      unfold applySnapshotRows
      apply ih
      unfold applySnapshotRow
      dsimp only
      have rested := (restVenueQty_serves env config run update.side update.price update.newQuantity
        update.eventTime bookSeqNum rest.isEmpty).publishTradeSummaries
          (exchange.restVenueQty env config update.side update.price update.newQuantity update.eventTime
            bookSeqNum rest.isEmpty).2.1
      split
      · exact rested.onBookOnly rfl rfl
      · exact rested

theorem onLevel2Snapshot_serves (run : start.Serves none exchange) (seqNum : Nat)
    (updates : List Level2Update) :
    start.Serves none (exchange.onLevel2Snapshot env config seqNum updates) := by
  have cleared : start.Serves none (exchange.onBook OrderBook.clearMDOrders) :=
    run.onBook (OrderBook.clearMDOrders_keeps _)
  have finishes : ∀ (begun : Exchange β) (bookSeqNum : Nat) (pending : Bool), start.Serves none begun →
      start.Serves none ((if pending then
        { (begun.applySnapshotRows env config seqNum bookSeqNum
            updates.reverse).populateL2SubscriptionResponse with
          coinbase := { (begun.applySnapshotRows env config seqNum bookSeqNum updates.reverse).coinbase with
            pendingLevel2 := false } }
        else (begun.applySnapshotRows env config seqNum bookSeqNum
          updates.reverse).populateL2Snapshot).onBook OrderBook.clearCaches) := by
    intro begun bookSeqNum pending run
    have applied := applySnapshotRows_serves env config seqNum bookSeqNum updates.reverse run
    refine Serves.onBookOnly ?_ rfl rfl
    split
    · exact applied.quiet rfl rfl rfl
    · exact applied.quiet rfl rfl rfl
  unfold onLevel2Snapshot
  dsimp only
  apply finishes
  exact cleared.quiet rfl rfl rfl

theorem restTimestamped_serves (run : start.Serves none exchange) (side : Side) (price qty : Int)
    (eventTimeNs : Nat) :
    start.Serves none (exchange.restTimestamped env config side price qty eventTimeNs).2 := by
  unfold restTimestamped
  dsimp only
  have drawn : start.Serves none (exchange.onBook OrderBook.nextOrderId) := run.onBookOnly rfl rfl
  have matched := matchFeed_serves env config drawn side exchange.book.globals.nextOrderId price qty
    eventTimeNs 0
  split
  · exact matched.onBook (OrderBook.addL3Order_keeps ..)
  · exact matched

theorem finalizeL2Event_serves (run : start.Serves who exchange) :
    start.Serves who exchange.finalizeL2Event := by
  unfold finalizeL2Event
  dsimp only
  split_ifs <;> exact run.quiet rfl rfl rfl

theorem applyL2Side_serves (side : Side) (eventTimeNs : Nat) (rows : List L2Row)
    (run : start.Serves none exchange) :
    start.Serves none (exchange.applyL2Side env config side eventTimeNs rows) := by
  induction rows generalizing exchange with
  | nil => exact run
  | cons row rest ih =>
      unfold applyL2Side
      split
      · exact ih run
      · dsimp only
        apply ih
        exact ((restTimestamped_serves env config run ..).publishTradeSummaries _).quiet rfl rfl rfl

theorem processL2Snapshot_serves (run : start.Serves none exchange) (snapshot : L2Snapshot) :
    start.Serves none (exchange.processL2Snapshot env config snapshot) := by
  unfold processL2Snapshot
  dsimp only
  have cleared : start.Serves none (exchange.onBook OrderBook.clearMDOrders) :=
    run.onBook (OrderBook.clearMDOrders_keeps _)
  have marked : start.Serves none ((((exchange.onBook OrderBook.clearMDOrders).noteMark .rebuilt).setRefLevels
      .buy []).setRefLevels .sell []) := cleared.quiet rfl rfl rfl
  have sides := applyL2Side_serves env config .sell (snapshot.timeMs * oneMillisecondNs) snapshot.asks
    (applyL2Side_serves env config .buy (snapshot.timeMs * oneMillisecondNs) snapshot.bids marked)
  have stamped : start.Serves none (((((((exchange.onBook OrderBook.clearMDOrders).noteMark
      .rebuilt).setRefLevels .buy []).setRefLevels .sell []).applyL2Side env config .buy
        (snapshot.timeMs * oneMillisecondNs) snapshot.bids).applyL2Side env config .sell
          (snapshot.timeMs * oneMillisecondNs) snapshot.asks).onBook fun book =>
            book.setLastUpdate (snapshot.timeMs * oneMillisecondNs) 0) := sides.onBookOnly rfl rfl
  exact (finalizeL2Event_serves stamped).onBookOnly rfl rfl

theorem applyPhantomLevelUpdate_serves (run : start.Serves none exchange) (side : Side)
    (price targetQty : Int) (eventTimeNs : Nat) :
    start.Serves none
      (exchange.applyPhantomLevelUpdate env config side price targetQty eventTimeNs) := by
  unfold applyPhantomLevelUpdate
  split
  · split
    · exact run
    · exact (restTimestamped_serves env config run ..).publishTradeSummaries _
  · exact reconcilePhantomQty_serves run ..

theorem removeL2Prices_serves (side : Side) (eventTimeNs : Nat) (prices : List Int)
    (run : start.Serves none exchange) :
    start.Serves none (exchange.removeL2Prices env config side eventTimeNs prices) := by
  induction prices generalizing exchange with
  | nil => exact run
  | cons price rest ih =>
      unfold removeL2Prices
      dsimp only
      apply ih
      exact (applyPhantomLevelUpdate_serves env config run ..).quiet rfl rfl rfl

theorem changeL2Rows_serves (side : Side) (eventTimeNs : Nat) (rows : List L2Row)
    (run : start.Serves none exchange) :
    start.Serves none (exchange.changeL2Rows env config side eventTimeNs rows) := by
  induction rows generalizing exchange with
  | nil => exact run
  | cons row rest ih =>
      unfold changeL2Rows
      dsimp only
      apply ih
      exact (applyPhantomLevelUpdate_serves env config run ..).quiet rfl rfl rfl

theorem processL2Diff_serves (run : start.Serves none exchange) (diff : L2Diff) :
    start.Serves none (exchange.processL2Diff env config diff) := by
  have removed : start.Serves none (exchange.removeL2Levels env config (diff.timeMs * oneMillisecondNs)
      diff.removed) := by
    unfold removeL2Levels
    split
    · exact run
    · exact removeL2Prices_serves env config _ _ _ (removeL2Prices_serves env config _ _ _ run)
  have finishes : ∀ after : Exchange β, start.Serves none after →
      start.Serves none ((after.onBook fun book => book.setLastUpdate (diff.timeMs * oneMillisecondNs)
        0).finalizeL2Event.onBook OrderBook.clearCaches) := by
    intro after run
    have stamped : start.Serves none (after.onBook fun book =>
      book.setLastUpdate (diff.timeMs * oneMillisecondNs) 0) := run.onBookOnly rfl rfl
    exact (finalizeL2Event_serves stamped).onBookOnly rfl rfl
  unfold processL2Diff
  dsimp only
  apply finishes
  exact changeL2Rows_serves env config _ _ _ (changeL2Rows_serves env config _ _ _ removed)

theorem applyTrade_serves (run : start.Serves none exchange) (trade : HyperliquidTrade) :
    start.Serves none (exchange.applyTrade env config trade) := by
  unfold applyTrade
  dsimp only
  have rested := restTimestamped_serves env config run trade.side trade.price trade.qty
    (trade.timeMs * oneMillisecondNs)
  generalize exchange.restTimestamped env config trade.side trade.price trade.qty _ = result at rested ⊢
  obtain ⟨summaries, last⟩ := result
  have noted : start.Serves none (last.notePrint exchange.book (MatchingEngine.sweptSide trade.side)
    (trade.timeMs * oneMillisecondNs)) := rested.quiet rfl rfl rfl
  exact noted.creditTrades ..

theorem processTradesEvent_serves (run : start.Serves none exchange) (trades : List HyperliquidTrade) :
    start.Serves none (exchange.processTradesEvent env config trades) := by
  have applied : start.Serves none (exchange.applyTrades env config trades) := by
    unfold applyTrades
    induction trades generalizing exchange with
    | nil => exact run
    | cons trade rest ih => exact ih (applyTrade_serves env config run trade)
  unfold processTradesEvent
  split
  · exact run
  · dsimp only
    have shown : start.Serves none (exchange.applyTrades env config trades).populateL2Snapshot :=
      applied.quiet rfl rfl rfl
    exact shown.onBookOnly rfl rfl

theorem step_serves {input : Input} (feed : input.isRequest = false) (exchange : Exchange β) :
    exchange.Serves none (exchange.step env config input) := by
  have start := @Serves.refl _ none exchange
  cases input with
  | newOrder header msg => cases feed
  | amend header msg => cases feed
  | cancel header msg => cases feed
  | level2Snapshot seqNum updates => exact onLevel2Snapshot_serves env config start seqNum updates
  | coinbaseEvent event => exact dispatchEvent_serves env config start event
  | l2Snapshot snapshot => exact processL2Snapshot_serves env config start snapshot
  | l2Diff diff => exact processL2Diff_serves env config start diff
  | trades trades => exact processTradesEvent_serves env config start trades
  | marketOrder event => exact applyMarketOrder_serves env config start event
  | marketTrade event => exact replayMarketTrade_serves env config start event
  | flushMarketEvents =>
      show exchange.Serves none exchange.flushMarketEvents
      unfold flushMarketEvents
      split
      · exact start.flushMarketDataCaches.quiet rfl rfl rfl
      · exact start
  | subscribe level2 l2Book l2 => exact start.quiet rfl rfl rfl
  | subscribeServed => exact start.quiet rfl rfl rfl
  | elsewhere draws => exact start.onBookOnly rfl rfl

end Exchange

end SlickSim
