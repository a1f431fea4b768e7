import SlickSim.Engine.Trail
import SlickSim.Exchange.Frame

/-!
# What an exchange publishes of it

Between two publications an exchange only lets its book tell more. A flush moves
what the caches hold into the queue.
-/

set_option autoImplicit false

namespace SlickSim

open OrderBook (Tells)

def MDFrame.levelRows : MDFrame → List MDLevel
  | .level rows => rows
  | _ => []

def MDFrame.orderRows : MDFrame → List MDOrder
  | .order rows => rows
  | _ => []

namespace Exchange

variable {β : Type}

/-- The rows of all level frames, in the order they were published. -/
def publishedLevels (exchange : Exchange β) : List MDLevel :=
  exchange.mdQueue.flatMap MDFrame.levelRows

def publishedOrders (exchange : Exchange β) : List MDOrder :=
  exchange.mdQueue.flatMap MDFrame.orderRows

variable [OrderBookL3 β] {first second third : Exchange β}

/-- The book tells more, and no row is published. -/
structure Quiet (before after : Exchange β) : Prop where
  tells : before.book.Tells after.book
  levels : after.publishedLevels = before.publishedLevels
  orders : after.publishedOrders = before.publishedOrders
  buffer : after.coinbase.levelUpdateBuffer = before.coinbase.levelUpdateBuffer
  boundary : after.coinbase.lastPublishedLevelSeqNum = before.coinbase.lastPublishedLevelSeqNum
  publishes : after.publishOrderUpdates = before.publishOrderUpdates

namespace Quiet

theorem trans (left : first.Quiet second) (right : second.Quiet third) : first.Quiet third where
  tells := left.tells.trans right.tells
  levels := right.levels.trans left.levels
  orders := right.orders.trans left.orders
  buffer := right.buffer.trans left.buffer
  boundary := right.boundary.trans left.boundary
  publishes := right.publishes.trans left.publishes

theorem onBook {exchange : Exchange β} {change : OrderBook β → OrderBook β}
    (tells : exchange.book.Tells (change exchange.book)) : exchange.Quiet (exchange.onBook change) :=
  ⟨tells, rfl, rfl, rfl, rfl, rfl⟩

theorem matching {exchange : Exchange β} {matching : MatchState β}
    (tells : exchange.book.Tells matching.book) : exchange.Quiet { exchange with matching } :=
  ⟨tells, rfl, rfl, rfl, rfl, rfl⟩

theorem refl (exchange : Exchange β) : exchange.Quiet exchange :=
  ⟨.refl _, rfl, rfl, rfl, rfl, rfl⟩

end Quiet

section Steps

variable (exchange : Exchange β) (env : Environment) (config : SymbolConfig)

theorem publishTradeSummary_quiet (summary : TradeSummaryInfo) :
    exchange.Quiet (exchange.publishTradeSummary summary) where
  tells := .refl _
  levels := by
    unfold publishTradeSummary recordTrade publishedLevels
    simp [MDFrame.levelRows]
  orders := by
    unfold publishTradeSummary recordTrade publishedOrders
    simp [MDFrame.orderRows]
  buffer := rfl
  boundary := rfl
  publishes := rfl

theorem publishTradeSummaries_quiet (summaries : List TradeSummaryInfo) :
    exchange.Quiet (exchange.publishTradeSummaries summaries) := by
  induction summaries generalizing exchange with
  | nil => exact .refl _
  | cons summary rest ih =>
      exact (exchange.publishTradeSummary_quiet summary).trans (ih (exchange.publishTradeSummary summary))

theorem populateL2SubscriptionResponse_quiet : exchange.Quiet exchange.populateL2SubscriptionResponse where
  tells := .refl _
  levels := by
    unfold populateL2SubscriptionResponse publishedLevels
    simp [MDFrame.levelRows]
  orders := by
    unfold populateL2SubscriptionResponse publishedOrders
    simp [MDFrame.orderRows]
  buffer := rfl
  boundary := rfl
  publishes := rfl

theorem clientIdFor_quiet (userId : Name) : exchange.Quiet (exchange.clientIdFor userId).2 := by
  unfold clientIdFor
  split
  · exact .refl _
  · split
    · exact .refl _
    · exact ⟨.refl _, rfl, rfl, rfl, rfl, rfl⟩

/-! ## Feeds -/

theorem matchFeed_quiet (side : Side) (orderId : Nat) (price qty : Int) (eventTime seqNum : Nat) :
    exchange.Quiet { exchange with
      matching := (config.matchingEngine.matchFeed env side orderId price qty eventTime seqNum
        exchange.matching).2.2 } :=
  .matching (MatchState.matchFeed_tells ..)

theorem restMarketOrder_quiet (event : MarketOrderEvent) :
    exchange.Quiet (exchange.restMarketOrder env config event) := by
  unfold restMarketOrder
  dsimp only
  have matched := (exchange.matchFeed_quiet env config event.side event.bookOrderId event.price event.qty
    event.transactTime 0).trans (publishTradeSummaries_quiet _ (config.matchingEngine.matchFeed env event.side
      event.bookOrderId event.price event.qty event.transactTime 0 exchange.matching).2.1)
  split
  · exact matched.trans (.onBook (OrderBook.addL3Order_tells ..))
  · exact matched

theorem applyMarketOrder_quiet (event : MarketOrderEvent) :
    exchange.Quiet (exchange.applyMarketOrder env config event) := by
  have marks : ∀ between : Exchange β, exchange.Quiet between →
      exchange.Quiet { between with marketChanged := true } := fun _ run =>
    run.trans ⟨.refl _, rfl, rfl, rfl, rfl, rfl⟩
  unfold applyMarketOrder
  dsimp only
  apply marks
  split
  · exact restMarketOrder_quiet ..
  · exact .onBook (OrderBook.deleteL3Order_tells ..)
  · split
    · split
      · exact .onBook (OrderBook.modifyL3Order_tells ..)
      · exact (Quiet.onBook (OrderBook.deleteL3Order_tells ..)).trans (restMarketOrder_quiet ..)
    · exact restMarketOrder_quiet ..

theorem replayMarketTrade_quiet (event : MarketTradeEvent) :
    exchange.Quiet (exchange.replayMarketTrade env config event) := by
  unfold replayMarketTrade
  dsimp only
  have drawn : exchange.Quiet (exchange.onBook OrderBook.nextOrderId) := .onBook (.of_observed rfl)
  have matched := (drawn.trans (matchFeed_quiet _ env config event.aggressor
    exchange.book.globals.nextOrderId event.price event.qty event.transactTime 0)).trans
    (publishTradeSummaries_quiet _ (config.matchingEngine.matchFeed env event.aggressor
      exchange.book.globals.nextOrderId event.price event.qty event.transactTime 0
      (exchange.onBook OrderBook.nextOrderId).matching).2.1)
  exact matched.trans ⟨.refl _, rfl, rfl, rfl, rfl, rfl⟩

/-! ## Publication -/

omit [OrderBookL3 β] in
theorem flushMarketDataCaches_mdQueue :
    exchange.flushMarketDataCaches.mdQueue = exchange.mdQueue ++
      ((if exchange.book.mdLevelUpdateCache.isEmpty then []
        else [.level exchange.book.mdLevelUpdateCache]) ++
      if exchange.book.mdOrderUpdateCache.isEmpty ∨ exchange.publishOrderUpdates = false then []
      else [.order exchange.book.mdOrderUpdateCache]) := by
  have seen : ∀ between : Exchange β, (between.onBook OrderBook.clearCaches).mdQueue = between.mdQueue :=
    fun _ => rfl
  unfold flushMarketDataCaches
  dsimp only
  rw [seen]
  by_cases noLevels : exchange.book.mdLevelUpdateCache.isEmpty = true
  · rw [if_pos noLevels, if_pos noLevels, List.nil_append]
    by_cases noOrders : exchange.book.mdOrderUpdateCache.isEmpty = true ∨
        exchange.publishOrderUpdates = false
    · rw [if_pos noOrders, if_pos noOrders, List.append_nil]
    · rw [if_neg noOrders, if_neg noOrders]
      rfl
  · rw [if_neg noLevels, if_neg noLevels]
    by_cases noOrders : exchange.book.mdOrderUpdateCache.isEmpty = true ∨
        exchange.publishOrderUpdates = false
    · rw [if_pos noOrders, if_pos (show _ ∨ (exchange.publishLevelUpdate _).publishOrderUpdates = false from
        noOrders), List.append_nil]
      rfl
    · rw [if_neg noOrders, if_neg (show ¬ (_ ∨ (exchange.publishLevelUpdate _).publishOrderUpdates = false)
        from noOrders)]
      exact List.append_assoc ..

omit [OrderBookL3 β] in
@[simp] theorem flushMarketDataCaches_publishedLevels :
    exchange.flushMarketDataCaches.publishedLevels = exchange.publishedLevels ++ exchange.book.mdLevelUpdateCache := by
  unfold publishedLevels
  rw [flushMarketDataCaches_mdQueue]
  split <;> split <;> simp_all [MDFrame.levelRows]

omit [OrderBookL3 β] in
theorem flushMarketDataCaches_publishedOrders (publishes : exchange.publishOrderUpdates = true) :
    exchange.flushMarketDataCaches.publishedOrders = exchange.publishedOrders ++ exchange.book.mdOrderUpdateCache := by
  unfold publishedOrders
  rw [flushMarketDataCaches_mdQueue]
  split <;> split <;> simp_all [MDFrame.orderRows]

/-- The book tells more, and then the caches are published. -/
def Flushes (before after : Exchange β) : Prop :=
  ∃ between, before.Quiet between ∧ after = between.flushMarketDataCaches

/-! ## Requests -/

theorem onResponses_quiet (change : MatchState β → MatchState β)
    (same : (change exchange.matching).book.observed = exchange.book.observed) :
    exchange.Quiet (exchange.onMatching change) :=
  ⟨.of_observed same, rfl, rfl, rfl, rfl, rfl⟩

theorem updateOrder_quiet (ref : Nat) (change : Order → Order) :
    exchange.Quiet (exchange.onBook fun book => book.updateOrder ref change) :=
  .onBook (.of_observed rfl)

/-- What follows a request's matching: its prints, and its reject if there is one. -/
theorem settle_quiet {begun : Exchange β} (quiet : exchange.Quiet begun)
    {result : OrdRejectReason × List TradeSummaryInfo × MatchState β}
    (matched : begun.book.Tells result.2.2.book) (rejects : Prop) [Decidable rejects]
    {reject : Exchange β → Exchange β} (rejected : ∀ between : Exchange β, between.Quiet (reject between)) :
    exchange.Quiet (if rejects then
      reject ({ begun with matching := result.2.2 }.publishTradeSummaries result.2.1)
      else { begun with matching := result.2.2 }.publishTradeSummaries result.2.1) := by
  have printed := (quiet.trans (.matching matched)).trans (publishTradeSummaries_quiet _ result.2.1)
  split
  · exact printed.trans (rejected _)
  · exact printed

theorem handleNewOrderRequest_flushes (header : RequestHeader) (msg : AddOrderMessage) :
    exchange.Quiet (exchange.handleNewOrderRequest env config header msg) ∨
      exchange.Flushes (exchange.handleNewOrderRequest env config header msg) := by
  unfold handleNewOrderRequest
  split
  · exact .inl (onResponses_quiet _ _ rfl)
  · split
    · exact .inl (onResponses_quiet _ _ rfl)
    · refine .inr ⟨_, ?_, rfl⟩
      have allocated : exchange.Quiet (exchange.onBook fun _ => (exchange.book.allocateOrder env).2) :=
        ⟨.of_observed rfl, rfl, rfl, rfl, rfl, rfl⟩
      have numbered := allocated.trans (clientIdFor_quiet _ msg.userId)
      have filled := numbered.trans (updateOrder_quiet _ (exchange.book.allocateOrder env).1
        (fillNewOrder config header msg ((exchange.onBook fun _ => (exchange.book.allocateOrder env).2).clientIdFor
          msg.userId).1))
      have reported := filled.trans (onResponses_quiet _ (fun state =>
        state.sendOrderNewPending env (exchange.book.allocateOrder env).1 header.timeStamp) rfl)
      exact settle_quiet exchange reported (MatchState.addOrder_tells ..) _ fun _ => onResponses_quiet _ _ rfl

theorem handleModifyOrderRequest_flushes (header : RequestHeader) (msg : ModifyOrderMessage) :
    exchange.Quiet (exchange.handleModifyOrderRequest env config header msg) ∨
      exchange.Flushes (exchange.handleModifyOrderRequest env config header msg) := by
  unfold handleModifyOrderRequest
  split
  · exact .inl (onResponses_quiet _ _ rfl)
  · split
    · exact .inl (onResponses_quiet _ _ rfl)
    · rename_i ref _
      refine .inr ⟨_, ?_, rfl⟩
      have begun : exchange.Quiet (exchange.onBook fun book => book.readClock.updateOrder ref
          (beginReplace header.requestTag (exchange.book.currentTime env))) :=
        .onBook (.of_observed rfl)
      have reported := begun.trans (onResponses_quiet _ (fun state =>
        state.sendOrderReplacePending env ref header.timeStamp) rfl)
      exact settle_quiet exchange reported (MatchState.modifyOrder_tells ..) _ fun between =>
        (between.updateOrder_quiet ref _).trans (onResponses_quiet _ _ rfl)

theorem handleCancelOrderRequest_flushes (header : RequestHeader) (msg : CancelOrderMessage) :
    exchange.Quiet (exchange.handleCancelOrderRequest env config header msg) ∨
      exchange.Flushes (exchange.handleCancelOrderRequest env config header msg) := by
  unfold handleCancelOrderRequest
  split
  · exact .inl (onResponses_quiet _ _ rfl)
  · split
    · exact .inl (onResponses_quiet _ _ rfl)
    · rename_i ref _
      refine .inr ⟨_, ?_, rfl⟩
      have begun := exchange.updateOrder_quiet ref (beginCancel header.requestTag)
      generalize exchange.onBook _ = named at begun ⊢
      have cancelled := (named.matching.sendOrderCancelPending env ref header.timeStamp).cancelOrder_tells env
        ref header.timeStamp
      exact begun.trans (.matching (cancelled.since rfl))

end Steps

end Exchange

end SlickSim
