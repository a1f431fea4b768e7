import SlickSim.Exchange.Run

/-!
# Feed events do not read the clock

How often the clock was read is all that a drain leaves on an exchange besides the events it
dispatches. An event is dispatched alike whatever that count is.
-/

set_option autoImplicit false

namespace SlickSim

/-! ## The book -/

namespace OrderBook

variable {β : Type} (book : OrderBook β) (reads : Nat)

/-- The book as it would be had the clock been read so often. -/
def atClock : OrderBook β :=
  { book with globals := { book.globals with clockReads := reads } }

@[simp] theorem atClock_atClock (later : Nat) : (book.atClock reads).atClock later = book.atClock later := rfl

theorem onOrderUpdate_atClock (update : OrderUpdate) :
    (book.atClock reads).onOrderUpdate update = (book.onOrderUpdate update).atClock reads := by
  have found : (book.atClock reads).findOrder update.orderId = book.findOrder update.orderId := rfl
  unfold onOrderUpdate
  rw [found]
  cases book.findOrder update.orderId with
  | none => rfl
  | some ref =>
      have same : ((book.atClock reads).heap ref) = book.heap ref := rfl
      dsimp only
      rw [same]
      split <;> rfl

theorem absorb_atClock (result : L3Result β) :
    (book.atClock reads).absorb result = (book.absorb result).atClock reads := by
  have told : ∀ (updates : List OrderUpdate) (start : OrderBook β),
      updates.foldl onOrderUpdate (start.atClock reads) = (updates.foldl onOrderUpdate start).atClock reads := by
    intro updates
    induction updates with
    | nil => exact fun _ => rfl
    | cons update rest ih =>
        intro start
        rw [List.foldl_cons, List.foldl_cons, onOrderUpdate_atClock, ih]
  unfold absorb
  rw [← told]
  rfl

theorem dropOrder_atClock (ref : Nat) : (book.atClock reads).dropOrder ref = (book.dropOrder ref).atClock reads := by
  have found : (book.atClock reads).findOrder ((book.atClock reads).heap ref).id =
      book.findOrder (book.heap ref).id := rfl
  unfold dropOrder
  rw [found]
  cases book.findOrder (book.heap ref).id <;> rfl

variable [OrderBookL3 β]

theorem addL3Order_atClock (orderId : Nat) (side : BookSide) (price qty : Int) (timestamp priority seqNum : Nat)
    (isLast : Bool) :
    (book.atClock reads).addL3Order orderId side price qty timestamp priority seqNum isLast =
      (book.addL3Order orderId side price qty timestamp priority seqNum isLast).atClock reads := by
  unfold addL3Order
  rw [← absorb_atClock]
  rfl

theorem addBookOrder_atClock (orderId : Nat) (side : BookSide) (price qty : Int) (timestamp seqNum : Nat)
    (isLast : Bool) :
    (book.atClock reads).addBookOrder orderId side price qty timestamp seqNum isLast =
      (book.addBookOrder orderId side price qty timestamp seqNum isLast).atClock reads := by
  unfold addBookOrder
  rw [← addL3Order_atClock]
  rfl

theorem modifyL3Order_atClock (orderId : Nat) (newPrice newQty : Int) (timestamp priority seqNum : Nat)
    (isLast : Bool) :
    (book.atClock reads).modifyL3Order orderId newPrice newQty timestamp priority seqNum isLast =
      (book.modifyL3Order orderId newPrice newQty timestamp priority seqNum isLast).atClock reads := by
  unfold modifyL3Order
  rw [← absorb_atClock]
  rfl

omit [OrderBookL3 β] in
private theorem filled_atClock (ref : Nat) (result : L3Result β) :
    (if (((book.atClock reads).absorb result).heap ref).leavesQuantity = 0 then
        ((book.atClock reads).absorb result).unregisterOrder ref
      else (book.atClock reads).absorb result) =
      (if ((book.absorb result).heap ref).leavesQuantity = 0 then (book.absorb result).unregisterOrder ref
        else book.absorb result).atClock reads := by
  have same : ((book.absorb result).atClock reads).heap = (book.absorb result).heap := rfl
  rw [absorb_atClock, same]
  split <;> rfl

theorem executeOrder_atClock (orderId : Nat) (qty : Int) (timestamp seqNum : Nat) (isLast : Bool) :
    (book.atClock reads).executeOrder orderId qty timestamp seqNum isLast =
      ((book.executeOrder orderId qty timestamp seqNum isLast).1,
        (book.executeOrder orderId qty timestamp seqNum isLast).2.atClock reads) := by
  have found : (book.atClock reads).findOrder orderId = book.findOrder orderId := rfl
  have sequence : (book.atClock reads).l3 = book.l3 := rfl
  unfold executeOrder
  rw [found, sequence]
  by_cases stale : 0 < seqNum ∧ seqNum < OrderBookL3.lastSeqNum book.l3
  · rw [if_pos stale, if_pos stale]
    rfl
  · rw [if_neg stale, if_neg stale]
    cases book.findOrder orderId with
    | none => exact Prod.ext rfl (absorb_atClock (book.noteDeclined _) reads _)
    | some ref =>
        let filled := book.updateOrder ref fun order => order.execute order.price qty timestamp
        let result := OrderBookL3.executeOrder book.l3 orderId qty timestamp seqNum isLast
        exact Prod.ext rfl (filled_atClock (filled.noteDeclined (result.accepted = false)) reads ref result)

end OrderBook

/-! ## Matching against the feed -/

namespace MatchState

variable {β : Type} (state : MatchState β) (reads : Nat)

def atClock : MatchState β :=
  state.onBook fun book => book.atClock reads

theorem recordTrade_atClock (ctx : MatchContext) (side : BookSide) (aggressorId bookOrderId : Nat)
    (price tradeQty phantomQty : Int) :
    let recorded := state.recordTrade ctx side aggressorId bookOrderId price tradeQty phantomQty
    (state.atClock reads).recordTrade ctx side aggressorId bookOrderId price tradeQty phantomQty =
      (recorded.1, recorded.2.atClock reads) := by
  unfold recordTrade
  split <;> rfl

variable (env : Environment)

theorem reportRestingFill_atClock (resting : Option Nat) :
    (state.atClock reads).reportRestingFill env resting =
      (state.reportRestingFill env resting).atClock reads := by
  cases resting with
  | none => rfl
  | some ref =>
      have same : ((state.atClock reads).publishOrderExecution env ref false).order ref =
          (state.publishOrderExecution env ref false).order ref := rfl
      unfold reportRestingFill
      dsimp only
      rw [same]
      split
      · exact congrArg (MatchState.mk · _) (OrderBook.dropOrder_atClock state.book reads ref)
      · rfl

variable [OrderBookL3 β]

theorem fillRestingFromFeed_atClock (ctx : MatchContext) (side : BookSide) (aggressorId bookOrderId : Nat)
    (price tradeQty qty : Int) :
    let filled := state.fillRestingFromFeed env ctx side aggressorId bookOrderId price tradeQty qty
    (state.atClock reads).fillRestingFromFeed env ctx side aggressorId bookOrderId price tradeQty qty =
      (filled.1, filled.2.1, filled.2.2.1, filled.2.2.2.atClock reads) := by
  have found : (state.atClock reads).book.findOrder bookOrderId = state.book.findOrder bookOrderId := rfl
  have taken := OrderBook.executeOrder_atClock state.book reads bookOrderId tradeQty ctx.eventTime ctx.seqNum
    (decide (qty - tradeQty = 0))
  unfold fillRestingFromFeed
  dsimp only
  rw [found, show (state.atClock reads).book = state.book.atClock reads from rfl, taken]
  cases state.book.executeOrder bookOrderId tradeQty ctx.eventTime ctx.seqNum (decide (qty - tradeQty = 0)) with
  | mk accepted book =>
      let filled : MatchState β := { book, responses := state.responses }
      have same : MatchState.mk (book.atClock reads) (state.atClock reads).responses = filled.atClock reads := rfl
      dsimp only
      rw [same]
      cases accepted with
      | false => rfl
      | true =>
          rw [reportRestingFill_atClock, recordTrade_atClock]
          rfl

end MatchState

def LoopResult.atClock {β : Type} (result : LoopResult β) (reads : Nat) : LoopResult β :=
  { result with state := result.state.atClock reads }

section Loops

variable {β : Type} [OrderBookL3 β] (reads : Nat) (env : Environment)

theorem Fifo.feedLoop_atClock (side : BookSide) (aggressorId : Nat) (price : Int) (fuel : Nat)
    (ctx : MatchContext) (qty : Int) (state : MatchState β) :
    Fifo.feedLoop env side aggressorId price fuel ctx qty (state.atClock reads) =
      (Fifo.feedLoop env side aggressorId price fuel ctx qty state).atClock reads := by
  induction fuel generalizing ctx qty state with
  | zero => rfl
  | succ fuel ih =>
      unfold feedLoop
      by_cases done : qty ≤ 0
      · rw [if_pos done, if_pos done]
        rfl
      · rw [if_neg done, if_neg done,
          show (state.atClock reads).crossableLevel side price = state.crossableLevel side price from rfl]
        cases state.crossableLevel side price with
        | none => rfl
        | some level =>
            dsimp only
            cases level.orders with
            | nil => rfl
            | cons bookOrder _ =>
                dsimp only
                rw [MatchState.fillRestingFromFeed_atClock]
                rcases state.fillRestingFromFeed env ctx side aggressorId bookOrder.orderId level.price
                  (min qty bookOrder.quantity) qty with ⟨taken, left, told, filled⟩
                cases taken with
                | false => rfl
                | true => exact ih told left filled

namespace ProRata

theorem feedLevel_atClock (side : BookSide) (aggressorId : Nat) (levelPrice : Int) (items : List Allocation)
    (ctx : MatchContext) (qty : Int) (state : MatchState β) :
    let filled := feedLevel env side aggressorId levelPrice items ctx qty state
    feedLevel env side aggressorId levelPrice items ctx qty (state.atClock reads) =
      (filled.1, filled.2.1, filled.2.2.1, filled.2.2.2.atClock reads) := by
  induction items generalizing ctx qty state with
  | nil => rfl
  | cons item rest ih =>
      unfold feedLevel
      dsimp only
      by_cases idle : item.qty = 0
      · rw [if_pos idle, if_pos idle]
        exact ih ctx qty state
      · rw [if_neg idle, if_neg idle, MatchState.fillRestingFromFeed_atClock]
        rcases state.fillRestingFromFeed env ctx side aggressorId item.orderId levelPrice item.qty qty with
          ⟨taken, left, told, filled⟩
        cases taken with
        | false => rfl
        | true => exact ih told left filled

theorem feedLoop_atClock (config : ProRataConfig) (side : BookSide) (aggressorId : Nat) (price : Int)
    (fuel : Nat) (ctx : MatchContext) (qty : Int) (state : MatchState β) :
    feedLoop env config side aggressorId price fuel ctx qty (state.atClock reads) =
      (feedLoop env config side aggressorId price fuel ctx qty state).atClock reads := by
  induction fuel generalizing ctx qty state with
  | zero => rfl
  | succ fuel ih =>
      unfold feedLoop
      by_cases done : qty ≤ 0
      · rw [if_pos done, if_pos done]
        rfl
      · rw [if_neg done, if_neg done,
          show (state.atClock reads).crossableLevel side price = state.crossableLevel side price from rfl]
        cases state.crossableLevel side price with
        | none => rfl
        | some level =>
            dsimp only
            rw [show blankAllocations (state.atClock reads).book level false =
              blankAllocations state.book level false from rfl, feedLevel_atClock]
            rcases feedLevel env side aggressorId level.price
              (allocate config (blankAllocations state.book level false) qty) ctx qty state with
              ⟨taken, left, told, filled⟩
            cases taken with
            | false => rfl
            | true => exact ih told left filled

end ProRata

theorem MatchingEngine.matchFeed_atClock (engine : MatchingEngine) (side : Side) (orderId : Nat)
    (price qty : Int) (eventTime seqNum : Nat) (state : MatchState β) :
    let matched := engine.matchFeed env side orderId price qty eventTime seqNum state
    engine.matchFeed env side orderId price qty eventTime seqNum (state.atClock reads) =
      (matched.1, matched.2.1, matched.2.2.atClock reads) := by
  have fuel : (state.atClock reads).sweepFuel (sweptSide side) = state.sweepFuel (sweptSide side) := rfl
  cases engine with
  | fifo =>
      unfold matchFeed MatchingEngine.feedLoop
      dsimp only
      rw [fuel, Fifo.feedLoop_atClock]
      rfl
  | proRata config =>
      unfold matchFeed MatchingEngine.feedLoop
      dsimp only
      rw [fuel, ProRata.feedLoop_atClock]
      rfl

end Loops

/-! ## Dispatching -/

namespace Exchange

variable {β : Type} (exchange : Exchange β) (reads : Nat)

def atClock : Exchange β :=
  exchange.onMatching fun state => state.atClock reads

theorem flushMarketDataCaches_atClock :
    (exchange.atClock reads).flushMarketDataCaches = exchange.flushMarketDataCaches.atClock reads := by
  have levels : (exchange.atClock reads).book.mdLevelUpdateCache = exchange.book.mdLevelUpdateCache := rfl
  have orders : (exchange.atClock reads).book.mdOrderUpdateCache = exchange.book.mdOrderUpdateCache := rfl
  have published : (if exchange.book.mdLevelUpdateCache.isEmpty then exchange.atClock reads
      else (exchange.atClock reads).publishLevelUpdate exchange.book.mdLevelUpdateCache) =
      (if exchange.book.mdLevelUpdateCache.isEmpty then exchange
        else exchange.publishLevelUpdate exchange.book.mdLevelUpdateCache).atClock reads := by
    split <;> rfl
  unfold flushMarketDataCaches
  dsimp only
  rw [levels, orders, published]
  generalize (if exchange.book.mdLevelUpdateCache.isEmpty then exchange
    else exchange.publishLevelUpdate exchange.book.mdLevelUpdateCache) = told
  rw [show (told.atClock reads).publishOrderUpdates = told.publishOrderUpdates from rfl]
  split <;> rfl

theorem publishTradeSummaries_atClock (summaries : List TradeSummaryInfo) :
    (exchange.atClock reads).publishTradeSummaries summaries =
      (exchange.publishTradeSummaries summaries).atClock reads := by
  unfold publishTradeSummaries
  induction summaries generalizing exchange with
  | nil => rfl
  | cons summary rest ih => exact ih (exchange.publishTradeSummary summary)

theorem takeTradedQty_atClock (side : Side) (price : Int) (asOf : Nat) :
    (exchange.atClock reads).takeTradedQty side price asOf =
      ((exchange.takeTradedQty side price asOf).1, (exchange.takeTradedQty side price asOf).2.atClock reads) := by
  have same : (exchange.atClock reads).tradedQtyCredit = exchange.tradedQtyCredit := rfl
  unfold takeTradedQty
  rw [same]
  by_cases unknown : side = .unknownSide
  · rw [if_pos unknown, if_pos unknown]
  · rw [if_neg unknown, if_neg unknown]
    dsimp only
    cases (exchange.tradedQtyCredit (toBookSide side)).lookup price <;> rfl

theorem creditTradedQty_atClock (side : Side) (price phantomConsumed : Int) (eventTime : Nat) :
    (exchange.atClock reads).creditTradedQty side price phantomConsumed eventTime =
      (exchange.creditTradedQty side price phantomConsumed eventTime).atClock reads := by
  unfold creditTradedQty
  split <;> rfl

theorem phantomReductions_atClock (book : OrderBook β) (orders : List BookOrder) (diff : Int) :
    phantomReductions (book.atClock reads) orders diff = phantomReductions book orders diff := by
  induction orders generalizing diff with
  | nil => rfl
  | cons order rest ih =>
      unfold phantomReductions
      dsimp only
      rw [show (book.atClock reads).findOrder order.orderId = book.findOrder order.orderId from rfl, ih, ih]

variable [OrderBookL3 β] (env : Environment) (config : SymbolConfig)

theorem reducePhantoms_atClock (book : OrderBook β) (price : Int) (eventTime seqNum : Nat) (endEvent : Bool)
    (reductions : List PhantomReduction) :
    reducePhantoms (book.atClock reads) price eventTime seqNum endEvent reductions =
      (reducePhantoms book price eventTime seqNum endEvent reductions).atClock reads := by
  induction reductions generalizing book with
  | nil => rfl
  | cons reduction rest ih =>
      unfold reducePhantoms
      rw [OrderBook.modifyL3Order_atClock, ih]

theorem restVenueQty_atClock (side : Side) (price qty : Int) (eventTime seqNum : Nat) (isLast : Bool) :
    let rested := exchange.restVenueQty env config side price qty eventTime seqNum isLast
    (exchange.atClock reads).restVenueQty env config side price qty eventTime seqNum isLast =
      (rested.1, rested.2.1, rested.2.2.atClock reads) := by
  have matched := MatchingEngine.matchFeed_atClock reads env config.matchingEngine side
    exchange.book.globals.nextOrderId price qty eventTime seqNum (exchange.onBook OrderBook.nextOrderId).matching
  unfold restVenueQty
  dsimp only
  rw [show (exchange.atClock reads).book.globals.nextOrderId = exchange.book.globals.nextOrderId from rfl,
    show ((exchange.atClock reads).onBook OrderBook.nextOrderId).matching =
      (exchange.onBook OrderBook.nextOrderId).matching.atClock reads from rfl, matched]
  rcases config.matchingEngine.matchFeed env side exchange.book.globals.nextOrderId price qty eventTime seqNum
    (exchange.onBook OrderBook.nextOrderId).matching with ⟨left, summaries, matching⟩
  dsimp only
  by_cases spent : left ≠ 0
  · rw [if_pos spent, if_pos spent]
    refine Prod.ext rfl (Prod.ext rfl ?_)
    have added := OrderBook.addBookOrder_atClock matching.book reads exchange.book.globals.nextOrderId
      (toBookSide side) price left eventTime seqNum isLast
    exact congrArg (fun book => ({ exchange with matching } : Exchange β).onBook fun _ => book) added
  · rw [if_neg spent, if_neg spent]
    rfl

theorem reconcilePhantomQty_atClock (side : Side) (price targetQty : Int) (eventTime seqNum : Nat)
    (endEvent : Bool) :
    (exchange.atClock reads).reconcilePhantomQty side price targetQty eventTime seqNum endEvent =
      (exchange.reconcilePhantomQty side price targetQty eventTime seqNum endEvent).atClock reads := by
  unfold reconcilePhantomQty
  rw [show (exchange.atClock reads).book.l3 = exchange.book.l3 from rfl]
  cases OrderBookL3.getLevel exchange.book.l3 (toBookSide side) price with
  | none => rfl
  | some level =>
      dsimp only
      rw [takeTradedQty_atClock]
      rcases exchange.takeTradedQty side price eventTime with ⟨unreflected, taken⟩
      dsimp only
      generalize (if 0 < unreflected then (if targetQty > unreflected then targetQty - unreflected else 0)
        else targetQty) = target
      let noted := taken.noteMark (.reconciled (toBookSide side) price eventTime)
      rw [show (taken.atClock reads).noteMark (.reconciled (toBookSide side) price eventTime) =
        noted.atClock reads from rfl,
        show (noted.atClock reads).book.getMDLevelQty price = noted.book.getMDLevelQty price from rfl]
      split
      · exact congrArg (fun book => noted.onBook fun _ => book) (OrderBook.addBookOrder_atClock noted.book.nextOrderId
          reads noted.book.globals.nextOrderId (toBookSide side) price (target - noted.book.getMDLevelQty price)
          eventTime seqNum endEvent)
      · split
        · rw [show (noted.atClock reads).book = noted.book.atClock reads from rfl, phantomReductions_atClock]
          exact congrArg (fun book => noted.onBook fun _ => book)
            (reducePhantoms_atClock reads noted.book price eventTime seqNum endEvent _)
        · rfl

theorem placeVenueLevel_atClock (event : CoinbaseEvent) (bookSeqNum : Nat) (hadLevel : Bool) :
    let placed := exchange.placeVenueLevel env config event bookSeqNum hadLevel
    (exchange.atClock reads).placeVenueLevel env config event bookSeqNum hadLevel =
      (placed.1, placed.2.atClock reads) := by
  unfold placeVenueLevel
  cases hadLevel with
  | false =>
      dsimp only
      rw [restVenueQty_atClock]
      rcases exchange.restVenueQty env config event.side event.price event.qty event.eventTime bookSeqNum
        event.flags.endEvent with ⟨left, summaries, rested⟩
      dsimp only
      rw [if_pos rfl, if_pos rfl, publishTradeSummaries_atClock, flushMarketDataCaches_atClock]
  | true =>
      dsimp only
      rw [if_neg (by decide), if_neg (by decide), reconcilePhantomQty_atClock]

theorem bufferLevelRow_atClock (event : CoinbaseEvent) (hadLevel : Bool) (index : Nat) (action : MDUpdateAction) :
    (exchange.atClock reads).bufferLevelRow event hadLevel index action =
      (exchange.bufferLevelRow event hadLevel index action).atClock reads := by
  have same : (exchange.atClock reads).coinbase = exchange.coinbase := rfl
  unfold bufferLevelRow
  rw [same]
  dsimp only
  cases exchange.coinbase.levelUpdateBuffer.getLast? with
  | none => rfl
  | some last =>
      dsimp only
      by_cases flushed : event.seqNum ≠
          (if exchange.coinbase.lastPublishedLevelSeqNum = 0 then event.seqNum
            else exchange.coinbase.lastPublishedLevelSeqNum)
      · simp only [if_pos flushed]
        rfl
      · simp only [if_neg flushed]
        rfl

theorem dispatchLevelUpdate_atClock (event : CoinbaseEvent) (bookSeqNum : Nat) :
    (exchange.atClock reads).dispatchLevelUpdate env config event bookSeqNum =
      (exchange.dispatchLevelUpdate env config event bookSeqNum).atClock reads := by
  unfold dispatchLevelUpdate
  rw [show (exchange.atClock reads).book.lastUpdateTime = exchange.book.lastUpdateTime from rfl,
    show (exchange.atClock reads).book.l3 = exchange.book.l3 from rfl]
  split
  · rfl
  · dsimp only
    rw [placeVenueLevel_atClock]
    rcases exchange.placeVenueLevel env config event bookSeqNum
      (OrderBookL3.getLevel exchange.book.l3 (toBookSide event.side) event.price).isSome with ⟨action, placed⟩
    exact bufferLevelRow_atClock (placed.onBook fun book => book.setLastUpdate event.eventTime event.seqNum) reads
      event _ _ action

theorem notePrint_atClock (before : OrderBook β) (swept : BookSide) (eventTime : Nat) :
    (exchange.atClock reads).notePrint (before.atClock reads) swept eventTime =
      (exchange.notePrint before swept eventTime).atClock reads := rfl

theorem dispatchTrade_atClock (event : CoinbaseEvent) (bookSeqNum : Nat) :
    (exchange.atClock reads).dispatchTrade env config event bookSeqNum =
      (exchange.dispatchTrade env config event bookSeqNum).atClock reads := by
  have told : ∀ (summaries : List TradeSummaryInfo) (start : Exchange β),
      summaries.foldl (fun exchange summary =>
        (exchange.creditTradedQty (oppositeSide event.side) summary.price summary.phantomQty
          event.eventTime).publishTradeSummary summary) (start.atClock reads) =
      (summaries.foldl (fun exchange summary =>
        (exchange.creditTradedQty (oppositeSide event.side) summary.price summary.phantomQty
          event.eventTime).publishTradeSummary summary) start).atClock reads := by
    intro summaries
    induction summaries with
    | nil => exact fun _ => rfl
    | cons summary rest ih =>
        intro start
        rw [List.foldl_cons, List.foldl_cons, creditTradedQty_atClock, ← ih]
        rfl
  unfold dispatchTrade
  dsimp only
  rw [restVenueQty_atClock]
  dsimp only
  rw [show (exchange.atClock reads).book = exchange.book.atClock reads from rfl, notePrint_atClock, told,
    flushMarketDataCaches_atClock]

theorem dispatchEvent_atClock (event : CoinbaseEvent) :
    (exchange.atClock reads).dispatchEvent env config event =
      (exchange.dispatchEvent env config event).atClock reads := by
  unfold dispatchEvent
  dsimp only
  cases event.type with
  | levelUpdate => exact dispatchLevelUpdate_atClock exchange.nextBookSeqNum.2 reads env config event _
  | trade => exact dispatchTrade_atClock exchange.nextBookSeqNum.2 reads env config event _

end Exchange

end SlickSim
