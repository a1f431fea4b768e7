import SlickSim.Ledger.Amendments
import SlickSim.Ledger.Feeds
import SlickSim.Properties.SelfTrades

/-!
# The place of an amended order

An amendment that keeps the price and does not raise the quantity leaves the order where it
stands. Any other takes it out and puts it behind every order of its new price. Of the other
orders only those that the amendment fills or withdraws change.
-/

set_option autoImplicit false

namespace SlickSim

open KeyedList Sweeping
open MatchingEngine (amendedQty sweptSide)
open OrderBookL3 (Regresses restingOrders)

/-- An order of a queue is rewritten, where it stands, or behind all orders of its new price when it
moves. The others keep their order among themselves. -/
def Repositions (moves : Bool) (next : BookOrder) (before after : List BookOrder) : Prop :=
  ∃ front back, eraseKey BookOrder.orderId next.orderId before = front ++ back ∧
    after = front ++ next :: back ∧
    if moves = true then ∀ other ∈ back, other.price ≠ next.price
    else ∃ order, order.orderId = next.orderId ∧ before = front ++ order :: back

section Queue

variable {β : Type} [OrderBookL3 β] {book : β} {order next : BookOrder}
  {timestamp priority seqNum : Nat} {isLast moves : Bool}

private theorem setKey_repositions {orders : List BookOrder} (distinct : (orders.map BookOrder.orderId).Nodup)
    (member : order ∈ orders) (sameId : next.orderId = order.orderId) :
    Repositions false next orders (setKey BookOrder.orderId order.orderId (fun _ => next) orders) := by
  obtain ⟨front, back, rfl⟩ := List.append_of_mem member
  rw [List.map_append, List.nodup_append] at distinct
  obtain ⟨-, tail, apart⟩ := distinct
  have absent : ∀ other ∈ front, other.orderId ≠ order.orderId := fun other inside =>
    apart _ (List.mem_map_of_mem inside) _ List.mem_cons_self
  refine ⟨front, back, ?_, ?_, order, sameId.symm, rfl⟩
  · rw [sameId, eraseKey_append, eraseKey_of_absent absent, eraseKey_head tail]
  · show List.map _ (_ ++ _) = _
    rw [List.map_append]
    exact congrArg₂ (· ++ ·) (setKey_of_absent _ absent) (setKey_head tail _)

/-- The book keeps the place of an order that keeps its price and priority. One that ranks below all
others goes behind its price. -/
theorem modifyOrder_repositions (current : ¬ Regresses book seqNum)
    (member : order ∈ restingOrders book order.side) (positive : 0 < next.quantity)
    (sameId : next.orderId = order.orderId) (sameSide : next.side = order.side)
    (isPriority : next.priority = effectivePriority priority timestamp)
    (kept : moves = false → order.price = next.price ∧ order.priority = next.priority)
    (last : moves = true → ∀ other ∈ restingOrders book order.side, other.priority < next.priority) :
    let after := (OrderBookL3.modifyOrder book order.orderId next.price next.quantity timestamp priority
      seqNum isLast).book
    Repositions moves next (restingOrders book order.side) (restingOrders after order.side) ∧
      restingOrders after order.side.opposite = restingOrders book order.side.opposite := by
  intro after
  obtain ⟨-, queue, opposite, -⟩ := OrderBookL3.modifyOrder_accepted book order next timestamp priority
    seqNum isLast current member positive sameId sameSide isPriority
  refine ⟨?_, opposite⟩
  cases moves with
  | false =>
      rw [if_pos (kept rfl)] at queue
      rw [show restingOrders after order.side = _ from queue]
      exact setKey_repositions (OrderBookL3.restingOrders_distinct book order.side) member sameId
  | true =>
      rw [if_neg fun same => (last rfl order member).ne same.2] at queue
      obtain ⟨front, back, erased, inserted⟩ := queue
      refine ⟨front, back, sameId ▸ erased, inserted, ?_⟩
      have ranked := OrderBookL3.ranked after order.side
      rw [show restingOrders after order.side = _ from inserted, List.pairwise_append,
        List.pairwise_cons] at ranked
      rw [if_pos rfl]
      intro other behind samePrice
      have inside : other ∈ restingOrders book order.side := by
        have rests : other ∈ eraseKey BookOrder.orderId order.orderId (restingOrders book order.side) :=
          erased ▸ List.mem_append_right front behind
        exact (mem_eraseKey.mp rests).1
      have drawn := last rfl other inside
      have earlier := (ranked.2.1.1 other behind).priority_le samePrice.symm
      omega

end Queue

/-- What an accepted amendment that leaves its order something makes of the book, given what it filled
and withdrew on the other side. -/
structure AmendPlaces {β : Type} [OrderBookL3 β] (before after : MatchState β) (ref : Nat)
    (newPrice newQty : Int) (acts : List (Act BookOrder)) : Prop where
  quantity : (after.order ref).quantity = newQty
  filled : (after.order ref).cumQuantity = (before.order ref).cumQuantity + filledQty acts
  place : ∃ next : BookOrder, next.orderId = (before.order ref).id ∧ next.price = newPrice ∧
    next.quantity = newQty - (after.order ref).cumQuantity ∧
    Repositions ((before.order ref).requeues newPrice newQty) next
      (restingOrders before.book.l3 (toBookSide (before.order ref).side))
      (restingOrders after.book.l3 (toBookSide (before.order ref).side))
  met : restingOrders after.book.l3 (toBookSide (before.order ref).side).opposite =
    (restingOrders before.book.l3 (toBookSide (before.order ref).side).opposite).filterMap (leftBy acts)
  trades : after.trades = before.trades ++ (fillsIn acts).flatMap
    (fillTrades (some (before.order ref).id) fun id => (before.book.findOrder id).isSome)
  cancels : after.cancels = before.cancels ++ (withdrawn acts).map BookOrder.orderId

namespace MatchState

variable {β : Type} [OrderBookL3 β] {state : MatchState β} {ref requestTime : Nat} {newPrice newQty : Int}
  {config : SymbolConfig}

theorem settleAmend_l3 (env : Environment) (requeue : Bool) (registered : state.ledger.Registered ref)
    (price : (state.order ref).price = newPrice) :
    ∃ timestamp, (state.settleAmend env ref newPrice requeue).book.l3 =
      (OrderBookL3.modifyOrder state.book.l3 (state.order ref).id newPrice (state.order ref).leavesQuantity
        timestamp (if requeue then state.book.globals.nextPriority + 1 else (state.order ref).priority) 0
        true).book := by
  let touched := state.touchOrder env ref
  let ranked := if requeue then
      touched.onBook fun book =>
        let book := book.nextOrderPriority
        (book.updateOrder ref fun order =>
          { order with priority := book.globals.nextPriority }).noteJoin (book.heap ref).id
    else touched
  have touchedSelf : touched.order ref =
      { state.order ref with lastUpdateTime := state.book.currentTime env } := Function.update_self ..
  have self : ∃ stamp, ranked.order ref = { state.order ref with
      lastUpdateTime := stamp
      priority := if requeue then state.book.globals.nextPriority + 1 else (state.order ref).priority } := by
    cases requeue with
    | false => exact ⟨_, touchedSelf⟩
    | true =>
        have rankedSelf : ranked.order ref =
            { touched.order ref with priority := touched.book.globals.nextPriority + 1 } :=
          Function.update_self ..
        rw [touchedSelf] at rankedSelf
        exact ⟨_, rankedSelf⟩
  obtain ⟨stamp, self⟩ := self
  have sameBook : ranked.book.l3 = state.book.l3 ∧ ranked.book.orders = state.book.orders := by
    cases requeue <;> exact ⟨rfl, rfl⟩
  have inside : (ranked.book.ledger ranked.responses).Registered ref := by
    show ranked.book.orders.lookup (ranked.order ref).id = some ref
    rw [self, sameBook.2]
    exact registered
  let moved := ranked.onBook fun book => book.modifyOrder ref newPrice (ranked.order ref).quantity
    (ranked.order ref).lastUpdateTime 0 true
  have finalIs : (state.settleAmend env ref newPrice requeue).book.l3 = moved.book.l3 := by
    show (MatchState.book (if (moved.order ref).leavesQuantity = 0 then
      moved.onBook fun book => book.freeOrder ref else moved)).l3 = _
    split <;> rfl
  have follows := @OrderBook.modifyOrder_l3 _ _ ranked.book ranked.responses ref 0 true stamp inside
  rw [show ranked.book.heap ref = _ from self, sameBook.1] at follows
  refine ⟨stamp, ?_⟩
  rw [finalIs, ← price, ← follows]
  show (ranked.book.modifyOrder ref newPrice (ranked.order ref).quantity (ranked.order ref).lastUpdateTime 0
    true).l3 = _
  rw [self, price]

private theorem settleAmend_repositions (env : Environment) (moves : Bool) {resting : BookOrder}
    (inv : state.ledger.Represents (.amended ref)) (price : (state.order ref).price = newPrice)
    (left : 0 < (state.order ref).leavesQuantity)
    (member : resting ∈ restingOrders state.book.l3 resting.side)
    (sameId : (state.order ref).id = resting.orderId)
    (kept : moves = false → resting.price = newPrice ∧ resting.priority = (state.order ref).priority)
    (ranked : ∀ other ∈ restingOrders state.book.l3 resting.side,
      other.priority ≤ state.book.globals.nextPriority) :
    let after := state.settleAmend env ref newPrice moves
    ∃ next : BookOrder, next.orderId = resting.orderId ∧ next.price = newPrice ∧
      next.quantity = (state.order ref).leavesQuantity ∧
      Repositions moves next (restingOrders state.book.l3 resting.side) (restingOrders after.book.l3 resting.side) ∧
      restingOrders after.book.l3 resting.side.opposite = restingOrders state.book.l3 resting.side.opposite := by
  intro after
  have registered : state.ledger.Registered ref := inv.indexed.resting_registered rfl
  obtain ⟨drawn, -⟩ := (inv.agrees.at_ ref).ranked registered
  have drawn : 0 < (state.order ref).priority := drawn
  obtain ⟨timestamp, settled⟩ := settleAmend_l3 env moves registered price
  rw [sameId] at settled
  generalize isPriority : (if moves then state.book.globals.nextPriority + 1 else (state.order ref).priority) =
    priority at settled
  have positive : 0 < priority := by
    rw [← isPriority]
    split
    · exact Nat.succ_pos _
    · exact drawn
  let next : BookOrder := { resting with price := newPrice, quantity := (state.order ref).leavesQuantity, priority }
  rw [show after.book.l3 = _ from settled]
  refine ⟨next, rfl, rfl, rfl, modifyOrder_repositions (fun stale => stale.1.false) member left rfl rfl
    (if_neg positive.ne').symm ?_ ?_⟩
  · intro stays
    rw [stays, if_neg Bool.false_ne_true] at isPriority
    exact ⟨(kept stays).1, (kept stays).2.trans isPriority⟩
  · intro isMove other inside
    rw [isMove, if_pos rfl] at isPriority
    show other.priority < priority
    rw [← isPriority]
    exact Nat.lt_succ_of_le (ranked other inside)

section Places

variable (env : Environment) (inv : state.ledger.Represents (.amending ref))
  (isAmend : (state.order ref).status = .pendingReplace)
  (goesOn : ¬ config.matchingEngine.Refuses state.book config.smpMode (state.order ref) newPrice
    (amendedQty (state.order ref) newQty))
  (left : 0 < ((state.modifyOrder env config ref newPrice newQty requestTime).2.2.order ref).leavesQuantity)

include inv isAmend goesOn left

private theorem amendedQty_pos : 0 < amendedQty (state.order ref) newQty := by
  obtain ⟨summaries, after, swept, modified, -, idle, settled⟩ :=
    modifyOrder_spec env requestTime inv isAmend goesOn
  obtain ⟨-, -, whole⟩ := (inv.agrees.at_ ref).rests (inv.indexed.resting_registered rfl) (by rintro ⟨⟩)
  have whole : (state.order ref).quantity =
    (state.order ref).leavesQuantity + (state.order ref).cumQuantity := whole
  have uncovered : ¬ newQty ≤ (state.order ref).cumQuantity := by
    intro covered
    obtain ⟨stamp, priority, self⟩ := Ledger.settleAmend_order swept env ref requestTime
      (decide (newQty ≤ (state.order ref).cumQuantity) ||
        decide (0 < (swept.heap ref).leavesQuantity ∧ newPrice = nullPrice))
      ((state.order ref).requeues newPrice newQty)
    have replacedSelf : (state.ledger.replaceOrder env ref newPrice newQty requestTime).heap ref =
        (state.order ref).replace newPrice newQty := Ledger.updateOrder_heap_self _
    rw [← settled, idle covered, replacedSelf] at self
    have emptied := congrArg Order.leavesQuantity self
    rw [show ((state.order ref).replace newPrice newQty).leavesQuantity = 0 from if_pos covered] at emptied
    rw [modified] at left
    exact left.ne emptied.symm
  unfold amendedQty
  omega

private theorem modifyOrder_settles (limit : newPrice ≠ nullPrice) :
    let acts := config.matchingEngine.orderPlan state ref newPrice (amendedQty (state.order ref) newQty)
      config.smpMode
    let replaced := state.replaceOrder env ref newPrice newQty requestTime
    ∃ ctx swept, Performance env (.amended ref) (sweptSide (state.order ref).side) 0 (some (state.order ref).id)
        (state.order ref).id acts (.start (state.order ref).lastUpdateTime 0) replaced ctx swept ∧
      (swept.order ref).cumQuantity = (state.order ref).cumQuantity + filledQty acts ∧
      (state.modifyOrder env config ref newPrice newQty requestTime).2.2 =
        swept.settleAmend env ref newPrice ((state.order ref).requeues newPrice newQty) := by
  intro acts replaced
  have more := amendedQty_pos env inv isAmend goesOn left
  have incoming := Incoming.amended inv isAmend newPrice newQty
  have shown : MatchingEngine.Presented (.amended ref) ref config.smpMode
      (amendedQty (state.order ref) newQty) state replaced :=
    MatchingEngine.presented_amend env requestTime config.smpMode inv
  have start := MatchingEngine.loopStart_amend config.matchingEngine env requestTime config.smpMode inv isAmend
    goesOn more
  have clear : config.smpMode = .cancelNewest → acts.any Act.isWithdraw = false := by
    intro newest
    rw [Bool.eq_false_iff]
    exact fun met => goesOn ((MatchingEngine.refuses_iff _ config.smpMode incoming).mpr ⟨newest, met⟩)
  have enough : filledQty acts ≤ (replaced.order ref).leavesQuantity := by
    have total : filledQty acts = min _ _ :=
      MatchingEngine.filledQty_orderPlan config.matchingEngine incoming config.smpMode more.le
    rw [shown.leaves, total]
    exact Int.min_le_left ..
  obtain ⟨ctx, swept, performs, -, executed, run⟩ := @perform_run _ _ env _ _ _ _ _ _ shown.held requestTime acts
    (.start (state.order ref).lastUpdateTime 0) (replaced.order ref).leavesQuantity replaced rfl shown.ready
    shown.mine (config.matchingEngine.orderPlan_performable shown) enough clear
  have self : replaced.order ref = (state.order ref).replace newPrice newQty := replaceOrder_order ..
  rw [self] at executed run
  refine ⟨ctx, swept, run, executed, ?_⟩
  have sweptInv := run.ready.inv
  have restable : (swept.order ref).restsRemainder = true := by
    have durable : (swept.order ref).timeInForce.rests = true :=
      (sweptInv.agrees.at_ ref).durable (sweptInv.indexed.resting_registered rfl)
    have price : (swept.order ref).price = (replaced.order ref).price :=
      ((run.sweeps.takenFrom shown.ready.inv).terms ref).price
    rw [self] at price
    unfold Order.restsRemainder
    rw [durable, show (swept.order ref).price = newPrice from price]
    simpa using limit
  have whole := performs []
  rw [List.append_nil, shown.leaves] at whole
  have matched : config.matchingEngine.matchOrder env ref newPrice newQty requestTime
      (state.order ref).lastUpdateTime 0 config.smpMode state = (.none, ctx.summaries,
        swept.cancelUnrestableRemainder env ref (amendedQty (state.order ref) newQty - filledQty acts)
          requestTime) := by
    have planned := start.planned config.matchingEngine (state.order ref).lastUpdateTime
    dsimp only at planned
    rw [shown.leaves] at planned
    rw [planned, show replaced.perform env _ ref requestTime config.smpMode acts _ _ = _ from whole]
    rfl
  have rests : swept.cancelUnrestableRemainder env ref
      (amendedQty (state.order ref) newQty - filledQty acts) requestTime = swept := by
    unfold cancelUnrestableRemainder
    rw [if_neg]
    rw [restable]
    rintro ⟨-, ⟨⟩⟩
  rw [rests] at matched
  rw [modifyOrder_accepted matched]

theorem modifyOrder_places (ranked : state.ledger.Ranked) (limit : newPrice ≠ nullPrice) :
    AmendPlaces state (state.modifyOrder env config ref newPrice newQty requestTime).2.2 ref newPrice newQty
      (config.matchingEngine.orderPlan state ref newPrice (amendedQty (state.order ref) newQty)
        config.smpMode) := by
  obtain ⟨ctx, swept, run, executed, settles⟩ := modifyOrder_settles env inv isAmend goesOn left limit
  rw [settles] at left ⊢
  let replaced := state.replaceOrder env ref newPrice newQty requestTime
  let moves := (state.order ref).requeues newPrice newQty
  have shown : MatchingEngine.Presented (.amended ref) ref config.smpMode
      (amendedQty (state.order ref) newQty) state replaced :=
    MatchingEngine.presented_amend env requestTime config.smpMode inv
  have sweptInv := run.ready.inv
  have frame := run.sweeps.takenFrom shown.ready.inv
  have terms : (swept.order ref).SameTerms ((state.order ref).replace newPrice newQty) := by
    have terms : (swept.order ref).SameTerms (replaced.order ref) := frame.terms ref
    rwa [replaceOrder_order] at terms
  have price : (swept.order ref).price = newPrice := terms.price
  have quantity : (swept.order ref).quantity = newQty := terms.quantity
  have registered : swept.ledger.Registered ref := sweptInv.indexed.resting_registered rfl
  have lags := (sweptInv.agrees.at_ ref).lags rfl
  -- The order as it settles.
  have settledLedger : (swept.settleAmend env ref newPrice moves).ledger =
      swept.ledger.settleAmend env ref requestTime false moves :=
    settleAmend_ledger moves sweptInv price lags.2.1
  obtain ⟨stamp, place, self⟩ := Ledger.settleAmend_order swept.ledger env ref requestTime false moves
  rw [← settledLedger] at self
  have self : (swept.settleAmend env ref newPrice moves).order ref =
      { swept.order ref with lastUpdateTime := stamp, priority := place } := self
  have left : 0 < (swept.order ref).leavesQuantity := by
    rw [self] at left
    exact left
  have whole : (swept.order ref).quantity = (swept.order ref).leavesQuantity + (swept.order ref).cumQuantity :=
    lags.2.2 left
  -- The match leaves the order's own side as it is.
  obtain ⟨isEntry, -⟩ := (inv.agrees.at_ ref).rests (inv.indexed.resting_registered rfl) (by rintro ⟨⟩)
  have isEntry : state.ledger.entry (state.order ref).id = some (state.order ref).bookEntry := isEntry
  have own : restingOrders swept.book.l3 (toBookSide (state.order ref).side) =
      restingOrders state.book.l3 (toBookSide (state.order ref).side) := by
    have otherSide := run.performs.otherSide
    rw [MatchingEngine.sweptSide_eq, BookSide.opposite_opposite] at otherSide
    exact otherSide
  obtain ⟨next, nextId, nextPrice, nextQty, repositions, opposite⟩ := @settleAmend_repositions β _ swept ref
    newPrice env moves (state.order ref).bookEntry sweptInv price left (own ▸ mem_of_entry isEntry) terms.id
    (by
      intro stays
      have keeps : newPrice = (state.order ref).price ∧ ¬ newQty > (state.order ref).quantity := by
        simpa [moves, Order.requeues] using stays
      exact ⟨keeps.1.symm, terms.priority.symm⟩)
    (by
      intro other member
      rw [show restingOrders swept.book.l3 (state.order ref).bookEntry.side = _ from own] at member
      exact (ranked _ other (entry_of_mem member)).trans frame.later.nextPriority)
  refine ⟨?_, ?_, ⟨next, nextId, nextPrice, ?_, own ▸ repositions⟩, ?_, ?_, ?_⟩
  · rw [self]
    exact quantity
  · rw [self]
    exact executed
  · rw [self, nextQty]
    show (swept.order ref).leavesQuantity = newQty - (swept.order ref).cumQuantity
    omega
  · have queue := run.performs.queue
    rw [MatchingEngine.sweptSide_eq, foldl_takeAct (config.matchingEngine.orderPlan_performable shown).distinct]
      at queue
    exact opposite.trans queue
  · refine (congrArg (List.filterMap OrderResponse.trade) (settleAmend_responses ..)).trans ?_
    refine run.performs.trades.trans ?_
    rw [show replaced.trades = state.trades from (publish_trades _ env _).trans (List.append_nil _)]
    rfl
  · refine (congrArg (List.filterMap OrderResponse.cancelled) (settleAmend_responses ..)).trans ?_
    refine run.performs.cancels.trans ?_
    rw [show replaced.cancels = state.cancels from (publish_cancels _ env _).trans (List.append_nil _)]

end Places

end MatchState

namespace Exchange

variable {β : Type} [OrderBookL3 β] {exchange : Exchange β} {env : Environment} {config : SymbolConfig}
  {header : RequestHeader} {msg : ModifyOrderMessage} {ref : Nat}

theorem ranked_iff : exchange.ledger.Ranked ↔
    ∀ order ∈ OrderBookL3.allOrders exchange.book.l3, order.priority ≤ exchange.book.globals.nextPriority := by
  constructor
  · intro ranked order member
    exact ranked order.orderId order (OrderBookL3.findOrder_eq_some.mpr ⟨member, rfl⟩)
  · intro drawn id order rests
    exact drawn order (OrderBookL3.findOrder_eq_some.mp rests).1

private theorem orderPlan_marked (limit qty : Int) :
    config.matchingEngine.orderPlan (exchange.markReplace env header ref).matching ref limit qty config.smpMode =
      config.matchingEngine.orderPlan exchange.matching ref limit qty config.smpMode := by
  have sameOwn : (exchange.markReplace env header ref).matching.book.ownOrders config.smpMode
      ((exchange.markReplace env header ref).matching.order ref) =
      exchange.matching.book.ownOrders config.smpMode (exchange.matching.order ref) :=
    MatchingEngine.ownOrders_congr rfl markReplace_order (markReplace_order ref)
  unfold MatchingEngine.orderPlan
  rw [sameOwn, markReplace_self]
  rfl

/-- What is so from the state that marked the order is so from the state before. -/
private theorem places_of_marked {after : MatchState β} {newPrice newQty : Int} {acts : List (Act BookOrder)}
    (places : AmendPlaces (exchange.markReplace env header ref).matching after ref newPrice newQty acts) :
    AmendPlaces exchange.matching after ref newPrice newQty acts := by
  obtain ⟨quantity, filled, place, met, trades, cancels⟩ := places
  rw [markReplace_self] at filled place met trades
  have marked : (exchange.markReplace env header ref).matching.trades = exchange.matching.trades ∧
      (exchange.markReplace env header ref).matching.cancels = exchange.matching.cancels :=
    ⟨(MatchState.publish_trades _ env _).trans (List.append_nil _),
      (MatchState.publish_cancels _ env _).trans (List.append_nil _)⟩
  rw [marked.1] at trades
  rw [marked.2] at cancels
  exact ⟨quantity, filled, place, met, trades, cancels⟩

/-- On a book whose priorities were all drawn, an accepted amendment to a limit price that leaves its order
something keeps the order's place if it keeps the price and does not raise the quantity, and sends it behind
its price otherwise. The order rests with what its new quantity leaves after its fills, and of the other
orders only those that the amendment fills or withdraws change. -/
theorem amendment_places (inv : exchange.ledger.Represents .none) (ranked : exchange.ledger.Ranked)
    (listed : header.symbol = config.symbol)
    (selected : selectOrder exchange.book msg.clientOrderId msg.orderId = some ref)
    (accepted : ¬ exchange.RefusesAmend config ref msg.newPrice msg.newQty) (limit : msg.newPrice ≠ nullPrice)
    (left : 0 < ((exchange.handleModifyOrderRequest env config header msg).matching.order ref).leavesQuantity) :
    AmendPlaces exchange.matching (exchange.handleModifyOrderRequest env config header msg).matching ref
      msg.newPrice msg.newQty
      (config.matchingEngine.orderPlan exchange.matching ref msg.newPrice
        (amendedQty (exchange.matching.order ref) msg.newQty) config.smpMode) := by
  let marked := (exchange.markReplace env header ref).matching
  have self : marked.order ref = beginReplace header.requestTag (exchange.book.currentTime env)
      (exchange.matching.order ref) := markReplace_self
  have markedInv : marked.ledger.Represents (.amending ref) :=
    beginAmend_represents header.requestTag header.timeStamp inv (selectOrder_registered inv selected)
  have isAmend : (marked.order ref).status = .pendingReplace := by
    rw [self]
    rfl
  have goesOn : ¬ config.matchingEngine.Refuses marked.book config.smpMode (marked.order ref) msg.newPrice
      (amendedQty (marked.order ref) msg.newQty) :=
    fun refused => accepted ((markReplace_refuses msg.newPrice msg.newQty).mp refused)
  obtain ⟨summaries, after, -, modified, -⟩ := MatchState.modifyOrder_spec env header.timeStamp markedInv isAmend
    goesOn
  have handled : (exchange.handleModifyOrderRequest env config header msg).matching =
      after.onBook OrderBook.clearCaches := by
    rw [handleModifyOrderRequest_eq listed selected]
    dsimp only
    rw [modified]
    dsimp only
    rw [if_neg (by simp), flushMarketDataCaches_matching, publishTradeSummaries_matching]
  rw [handled] at left ⊢
  have places := MatchState.modifyOrder_places env markedInv isAmend goesOn (by rw [modified]; exact left)
    ranked limit
  rw [modified, orderPlan_marked, show amendedQty (marked.order ref) msg.newQty =
    amendedQty (exchange.matching.order ref) msg.newQty by rw [self]; rfl] at places
  obtain ⟨quantity, filled, place, met, trades, cancels⟩ := places_of_marked places
  exact ⟨quantity, filled, place, met, trades, cancels⟩

/-- The first of two bids, lowered where it stands, and raised to where it trades and rests. -/
theorem amendment_places_lowered_raised :
    let env : Environment := .counted fun _ => default
    let config : SymbolConfig := .reference .none
    let limit (draw : Nat) (side : Side) (price qty : Int) : Input := .newOrder Input.header
      { userId := default, clientOrderId := Environment.countedName draw, side, type := .limit
        timeInForce := .goodTillCancel, price, qty }
    let exchange := (Exchange.new (fun _ => default) true : Exchange ReferenceBook).run env config
      [limit 1 .buy 99 5, limit 2 .buy 99 5, limit 3 .sell 101 2]
    let amend (price qty : Int) : ModifyOrderMessage :=
      { userId := default, orderId := default, clientOrderId := Environment.countedName 1, newPrice := price
        newQty := qty }
    let bid := (exchange.book.findOrderByClientOrderId (Environment.countedName 1)).getD 0
    AmendPlaces exchange.matching (exchange.handleModifyOrderRequest env config Input.header (amend 99 3)).matching
        bid 99 3 (config.matchingEngine.orderPlan exchange.matching bid 99
          (amendedQty (exchange.matching.order bid) 3) config.smpMode) ∧
      AmendPlaces exchange.matching
        (exchange.handleModifyOrderRequest env config Input.header (amend 101 8)).matching bid 101 8
        (config.matchingEngine.orderPlan exchange.matching bid 101
          (amendedQty (exchange.matching.order bid) 8) config.smpMode) := by
  intro env config limit exchange amend bid
  have start : Reachable env config (fun _ _ => True) (Exchange.new (fun _ => default) true :
      Exchange ReferenceBook) := .new _ _
  have reachable : Reachable env config (fun _ _ => True) exchange := start.run (by decide +kernel)
  have inv := reachable.represents.1
  have ranked : exchange.ledger.Ranked := ranked_iff.mpr (by decide +kernel)
  refine ⟨?_, ?_⟩
  · exact @amendment_places _ _ exchange env config Input.header (amend 99 3) bid inv ranked rfl
      (by decide +kernel) (by decide +kernel) (by decide) (by decide +kernel)
  · exact @amendment_places _ _ exchange env config Input.header (amend 101 8) bid inv ranked rfl
      (by decide +kernel) (by decide +kernel) (by decide) (by decide +kernel)

end Exchange

end SlickSim
