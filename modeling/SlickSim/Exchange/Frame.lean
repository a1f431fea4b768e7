import SlickSim.Exchange.Run

/-!
# What inputs leave alone

Only the dispatch of Coinbase events and Coinbase snapshots touch a symbol's event
state.
-/

set_option autoImplicit false

namespace SlickSim

namespace Exchange

variable {β : Type} (exchange : Exchange β)

@[simp] theorem onMatching_coinbase (change : MatchState β → MatchState β) :
    (exchange.onMatching change).coinbase = exchange.coinbase := rfl

@[simp] theorem onBook_coinbase (change : OrderBook β → OrderBook β) :
    (exchange.onBook change).coinbase = exchange.coinbase := rfl

@[simp] theorem clientIdFor_coinbase (userId : Name) :
    (exchange.clientIdFor userId).2.coinbase = exchange.coinbase := by
  unfold clientIdFor
  split
  · rfl
  · split <;> rfl

@[simp] theorem flushMarketDataCaches_coinbase :
    exchange.flushMarketDataCaches.coinbase = exchange.coinbase := by
  unfold flushMarketDataCaches
  dsimp only
  split <;> split <;> rfl

@[simp] theorem publishTradeSummary_coinbase (summary : TradeSummaryInfo) :
    (exchange.publishTradeSummary summary).coinbase = exchange.coinbase := rfl

@[simp] theorem publishTradeSummaries_coinbase (summaries : List TradeSummaryInfo) :
    (exchange.publishTradeSummaries summaries).coinbase = exchange.coinbase := by
  induction summaries generalizing exchange with
  | nil => rfl
  | cons summary rest ih => exact ih (exchange.publishTradeSummary summary)

@[simp] theorem creditTradedQty_coinbase (side : Side) (price phantomConsumed : Int) (eventTime : Nat) :
    (exchange.creditTradedQty side price phantomConsumed eventTime).coinbase = exchange.coinbase := by
  unfold creditTradedQty
  split <;> rfl

@[simp] theorem creditTrades_coinbase (side : Side) (eventTime : Nat) (summaries : List TradeSummaryInfo) :
    (summaries.foldl (fun exchange summary =>
      (exchange.creditTradedQty side summary.price summary.phantomQty eventTime).publishTradeSummary
        summary) exchange).coinbase = exchange.coinbase := by
  induction summaries generalizing exchange with
  | nil => rfl
  | cons summary rest ih =>
      rw [List.foldl_cons, ih]
      simp

@[simp] theorem takeTradedQty_coinbase (side : Side) (price : Int) (asOf : Nat) :
    (exchange.takeTradedQty side price asOf).2.coinbase = exchange.coinbase := by
  unfold takeTradedQty
  split
  · rfl
  · dsimp only
    split <;> rfl

@[simp] theorem noteMark_coinbase (mark : VenueMark) :
    (exchange.noteMark mark).coinbase = exchange.coinbase := rfl

@[simp] theorem setRefLevels_coinbase (side : BookSide) (prices : List Int) :
    (exchange.setRefLevels side prices).coinbase = exchange.coinbase := rfl

variable [OrderBookL3 β] (env : Environment) (config : SymbolConfig)

@[simp] theorem notePrint_coinbase (before : OrderBook β) (swept : BookSide) (eventTime : Nat) :
    (exchange.notePrint before swept eventTime).coinbase = exchange.coinbase := rfl

@[simp] theorem populateL2Snapshot_coinbase :
    exchange.populateL2Snapshot.coinbase = exchange.coinbase := rfl

@[simp] theorem populateL2SubscriptionResponse_coinbase :
    exchange.populateL2SubscriptionResponse.coinbase = exchange.coinbase := rfl

@[simp] theorem handleNewOrderRequest_coinbase (header : RequestHeader) (msg : AddOrderMessage) :
    (exchange.handleNewOrderRequest env config header msg).coinbase = exchange.coinbase := by
  unfold handleNewOrderRequest
  split
  · rfl
  · split
    · rfl
    · dsimp only
      split <;> simp

@[simp] theorem handleModifyOrderRequest_coinbase (header : RequestHeader) (msg : ModifyOrderMessage) :
    (exchange.handleModifyOrderRequest env config header msg).coinbase = exchange.coinbase := by
  unfold handleModifyOrderRequest
  split
  · rfl
  · split
    · rfl
    · dsimp only
      split <;> simp

@[simp] theorem handleCancelOrderRequest_coinbase (header : RequestHeader) (msg : CancelOrderMessage) :
    (exchange.handleCancelOrderRequest env config header msg).coinbase = exchange.coinbase := by
  unfold handleCancelOrderRequest
  split
  · rfl
  · split
    · rfl
    · simp

@[simp] theorem restVenueQty_coinbase (side : Side) (price qty : Int) (eventTime seqNum : Nat)
    (isLastInBatch : Bool) :
    (exchange.restVenueQty env config side price qty eventTime seqNum isLastInBatch).2.2.coinbase =
      exchange.coinbase := by
  unfold restVenueQty
  dsimp only
  split <;> rfl

@[simp] theorem restTimestamped_coinbase (side : Side) (price qty : Int) (eventTimeNs : Nat) :
    (exchange.restTimestamped env config side price qty eventTimeNs).2.coinbase = exchange.coinbase := by
  unfold restTimestamped
  dsimp only
  split <;> rfl

@[simp] theorem reconcilePhantomQty_coinbase (side : Side) (price targetQty : Int) (eventTime seqNum : Nat)
    (endEvent : Bool) :
    (exchange.reconcilePhantomQty side price targetQty eventTime seqNum endEvent).coinbase =
      exchange.coinbase := by
  unfold reconcilePhantomQty
  split
  · rfl
  · dsimp only
    simp [apply_ite Exchange.coinbase]

@[simp] theorem placeVenueLevel_coinbase (event : CoinbaseEvent) (bookSeqNum : Nat) (hadLevel : Bool) :
    (exchange.placeVenueLevel env config event bookSeqNum hadLevel).2.coinbase = exchange.coinbase := by
  unfold placeVenueLevel
  split
  · simp
  · simp

@[simp] theorem finalizeL2Event_coinbase : exchange.finalizeL2Event.coinbase = exchange.coinbase := by
  unfold finalizeL2Event
  dsimp only
  split <;> split <;> split <;> rfl

@[simp] theorem applyL2Side_coinbase (side : Side) (eventTimeNs : Nat) (rows : List L2Row) :
    (exchange.applyL2Side env config side eventTimeNs rows).coinbase = exchange.coinbase := by
  induction rows generalizing exchange with
  | nil => rfl
  | cons row rest ih =>
      unfold applyL2Side
      split
      · exact ih exchange
      · dsimp only
        rw [ih]
        simp

@[simp] theorem applyPhantomLevelUpdate_coinbase (side : Side) (price targetQty : Int) (eventTimeNs : Nat) :
    (exchange.applyPhantomLevelUpdate env config side price targetQty eventTimeNs).coinbase =
      exchange.coinbase := by
  unfold applyPhantomLevelUpdate
  split
  · split
    · rfl
    · simp
  · simp

@[simp] theorem removeL2Prices_coinbase (side : Side) (eventTimeNs : Nat) (prices : List Int) :
    (exchange.removeL2Prices env config side eventTimeNs prices).coinbase = exchange.coinbase := by
  induction prices generalizing exchange with
  | nil => rfl
  | cons price rest ih =>
      unfold removeL2Prices
      rw [ih]
      simp

@[simp] theorem changeL2Rows_coinbase (side : Side) (eventTimeNs : Nat) (rows : List L2Row) :
    (exchange.changeL2Rows env config side eventTimeNs rows).coinbase = exchange.coinbase := by
  induction rows generalizing exchange with
  | nil => rfl
  | cons row rest ih =>
      unfold changeL2Rows
      rw [ih]
      simp

@[simp] theorem removeL2Levels_coinbase (eventTimeNs : Nat) (removed : Option (List Nat × List Nat)) :
    (exchange.removeL2Levels env config eventTimeNs removed).coinbase = exchange.coinbase := by
  unfold removeL2Levels
  split
  · rfl
  · simp [removeL2Indices]

@[simp] theorem applyTrades_coinbase (trades : List HyperliquidTrade) :
    (exchange.applyTrades env config trades).coinbase = exchange.coinbase := by
  unfold applyTrades
  induction trades generalizing exchange with
  | nil => rfl
  | cons trade rest ih =>
      rw [List.foldl_cons, ih]
      simp [applyTrade]

@[simp] theorem restMarketOrder_coinbase (event : MarketOrderEvent) :
    (exchange.restMarketOrder env config event).coinbase = exchange.coinbase := by
  unfold restMarketOrder
  dsimp only
  split <;> simp

@[simp] theorem applyMarketOrder_coinbase (event : MarketOrderEvent) :
    (exchange.applyMarketOrder env config event).coinbase = exchange.coinbase := by
  unfold applyMarketOrder
  dsimp only
  split
  · simp
  · simp
  · split
    · split <;> simp
    · simp

/-- What events wait for and how far they got is not touched by any other input. -/
theorem step_coinbase {input : Input} (notEvent : ∀ event, input ≠ .coinbaseEvent event)
    (notSnapshot : ∀ seqNum updates, input ≠ .level2Snapshot seqNum updates) :
    (exchange.step env config input).coinbase =
      { exchange.coinbase with
        pendingLevel2 := (exchange.step env config input).coinbase.pendingLevel2 } := by
  cases input with
  | newOrder header msg => simp [step]
  | amend header msg => simp [step]
  | cancel header msg => simp [step]
  | level2Snapshot seqNum updates => exact absurd rfl (notSnapshot _ _)
  | coinbaseEvent event => exact absurd rfl (notEvent _)
  | l2Snapshot snapshot => simp [step, processL2Snapshot]
  | l2Diff diff => simp [step, processL2Diff]
  | trades trades =>
      unfold step processTradesEvent
      dsimp only
      split <;> simp
  | marketOrder event => simp [step]
  | marketTrade event => simp [step, replayMarketTrade]
  | flushMarketEvents =>
      unfold step flushMarketEvents
      dsimp only
      split <;> simp
  | subscribe level2 l2Book l2 => rfl
  | subscribeServed => rfl
  | elsewhere draws => rfl

end Exchange

end SlickSim
