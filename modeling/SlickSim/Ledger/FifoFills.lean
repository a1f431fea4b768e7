import SlickSim.Lib.Serving
import SlickSim.Ledger.Matching

/-!
# The fills of a FIFO sweep

A FIFO loop serves its aggressor from the queue it sweeps. What is left of the queue, the
TRADE reports and the legs of the trade summaries are those of the orders served.
-/

set_option autoImplicit false

namespace SlickSim

open KeyedList Serving
open OrderBookL3 (Regresses restingOrders)

/-! ## What is told of a fill -/

/-- What a TRADE report says of a fill. -/
structure TradeTold where
  orderNum : Nat
  aggressor : Bool
  price : Int
  qty : Int
deriving DecidableEq

def OrderResponse.trade (response : OrderResponse) : Option TradeTold :=
  if response.execType = .trade then
    some { orderNum := response.orderNum, aggressor := response.aggressor
           price := response.lastFillPrice, qty := response.lastQty }
  else none

def OrderResponse.cancelled (response : OrderResponse) : Option Nat :=
  if response.execType = .canceled then some response.orderNum else none

/-- The TRADE reports of a fill: the aggressor's, if it is a client order, and then that of
the resting order, if it is one. -/
def fillTrades (aggressor : Option Nat) (owned : Nat → Bool) (fill : BookOrder × Int) : List TradeTold :=
  (aggressor.map fun orderNum => ⟨orderNum, true, fill.1.price, fill.2⟩).toList ++
    if owned fill.1.orderId then [⟨fill.1.orderId, false, fill.1.price, fill.2⟩] else []

/-- The resting orders that trade summaries name, each with its price and quantity. -/
def tradeLegs (summaries : List TradeSummaryInfo) : List (Nat × Int × Int) :=
  summaries.flatMap fun summary => summary.trades.tail.map fun leg => (leg.orderId, summary.price, leg.qty)

def BookOrder.reduce (order : BookOrder) (qty : Int) : BookOrder :=
  { order with quantity := order.quantity - qty }

namespace OrderBook

variable {β : Type}

/-- Observers leave alone what a fill writes onto an order. -/
private theorem absorb_fill (book : OrderBook β) (result : L3Result β) (ref : Nat) :
    ((book.absorb result).heap ref).id = (book.heap ref).id ∧
      ((book.absorb result).heap ref).lastFillPrice = (book.heap ref).lastFillPrice ∧
      ((book.absorb result).heap ref).lastFillQty = (book.heap ref).lastFillQty := by
  have observed : ∀ (updates : List OrderUpdate) (start : OrderBook β),
      ((updates.foldl onOrderUpdate start).heap ref).id = (start.heap ref).id ∧
        ((updates.foldl onOrderUpdate start).heap ref).lastFillPrice = (start.heap ref).lastFillPrice ∧
        ((updates.foldl onOrderUpdate start).heap ref).lastFillQty = (start.heap ref).lastFillQty := by
    intro updates
    induction updates with
    | nil => exact fun _ => ⟨rfl, rfl, rfl⟩
    | cons update rest ih =>
        intro start
        obtain ⟨sameId, samePrice, sameQty⟩ := ih (start.onOrderUpdate update)
        have here : ((start.onOrderUpdate update).heap ref).id = (start.heap ref).id ∧
            ((start.onOrderUpdate update).heap ref).lastFillPrice = (start.heap ref).lastFillPrice ∧
            ((start.onOrderUpdate update).heap ref).lastFillQty = (start.heap ref).lastFillQty := by
          unfold onOrderUpdate
          split
          · exact ⟨rfl, rfl, rfl⟩
          · rename_i other _
            split
            · show (Function.update start.heap other _ ref).id = _ ∧
                (Function.update start.heap other _ ref).lastFillPrice = _ ∧
                (Function.update start.heap other _ ref).lastFillQty = _
              by_cases same : ref = other
              · rw [same, Function.update_self]
                exact ⟨rfl, rfl, rfl⟩
              · rw [Function.update_of_ne same]
                exact ⟨rfl, rfl, rfl⟩
            · exact ⟨rfl, rfl, rfl⟩
        exact ⟨sameId.trans here.1, samePrice.trans here.2.1, sameQty.trans here.2.2⟩
  unfold absorb
  exact observed ..

variable [OrderBookL3 β] {book : OrderBook β} {seqNum : Nat} {resting : BookOrder}

theorem executeOrder_fill {id ref : Nat} (qty : Int) (timestamp : Nat) (isLast : Bool)
    (current : ¬ Regresses book.l3 seqNum) (ours : book.findOrder id = some ref) :
    let filled := ((book.executeOrder id qty timestamp seqNum isLast).2.heap ref)
    filled.id = (book.heap ref).id ∧ filled.lastFillPrice = (book.heap ref).price ∧ filled.lastFillQty = qty := by
  unfold executeOrder
  rw [if_neg (show ¬ (_ ∧ _) from current), ours]
  dsimp only
  let booked := book.updateOrder ref fun order => order.execute order.price qty timestamp
  let result := OrderBookL3.executeOrder booked.l3 id qty timestamp seqNum isLast
  have self : (booked.noteDeclined (result.accepted = false)).heap ref =
      (book.heap ref).execute (book.heap ref).price qty timestamp := Function.update_self ..
  have observed := (booked.noteDeclined (result.accepted = false)).absorb_fill result ref
  rw [self] at observed
  split <;> exact observed

theorem executeOrder_otherSide {qty : Int} (timestamp : Nat) (isLast : Bool)
    (current : ¬ Regresses book.l3 seqNum) (member : resting ∈ restingOrders book.l3 resting.side)
    (positive : 0 < qty) (within : qty ≤ resting.quantity) :
    restingOrders (book.executeOrder resting.orderId qty timestamp seqNum isLast).2.l3 resting.side.opposite =
      restingOrders book.l3 resting.side.opposite := by
  obtain ⟨-, -, otherSide, -⟩ := OrderBookL3.executeOrder_accepted book.l3 resting qty timestamp seqNum
    isLast current member positive within
  rw [executeOrder_l3 _ _ _ _ current]
  exact otherSide

end OrderBook

/-- Taking from the front of a queue serves from it. -/
theorem takeFromQueue_unserved {front : BookOrder} {rest : List BookOrder} (qty : Int)
    (distinct : ((front :: rest).map BookOrder.orderId).Nodup) :
    takeFromQueue front qty (front :: rest) =
      unserved BookOrder.quantity BookOrder.reduce [(front, qty)] (front :: rest) := by
  by_cases whole : qty = front.quantity
  · rw [whole, takeFromQueue_front distinct, unserved_whole, unserved_nil]
  · rw [unserved_partly whole, takeFromQueue, if_neg whole, setKey_head distinct]
    rfl

namespace MatchState

variable {β : Type}

def trades (state : MatchState β) : List TradeTold :=
  state.responses.filterMap OrderResponse.trade

theorem publish_trades (state : MatchState β) (env : Environment) (write : OrderResponse → OrderResponse) :
    (state.publish env write).trades =
      state.trades ++ ((write (env.slot state.responses.length)).trade).toList := by
  unfold trades publish
  rw [List.filterMap_append]
  cases told : (write (env.slot state.responses.length)).trade <;> simp [told]

theorem publishOrderExecution_trades (state : MatchState β) (env : Environment) (ref : Nat) (aggressor : Bool) :
    (state.publishOrderExecution env ref aggressor).trades = state.trades ++
      [⟨(state.order ref).id, aggressor, (state.order ref).lastFillPrice, (state.order ref).lastFillQty⟩] :=
  state.publish_trades env _

theorem reportRestingFill_trades (state : MatchState β) (env : Environment) (resting : Option Nat) :
    (state.reportRestingFill env resting).trades = state.trades ++ (resting.map fun ref =>
      ⟨(state.order ref).id, false, (state.order ref).lastFillPrice, (state.order ref).lastFillQty⟩).toList := by
  cases resting with
  | none => exact (List.append_nil _).symm
  | some ref =>
      rw [Option.map_some, Option.toList_some, ← publishOrderExecution_trades _ env]
      unfold reportRestingFill
      dsimp only
      split <;> rfl

def cancels (state : MatchState β) : List Nat :=
  state.responses.filterMap OrderResponse.cancelled

theorem publish_cancels (state : MatchState β) (env : Environment) (write : OrderResponse → OrderResponse) :
    (state.publish env write).cancels =
      state.cancels ++ ((write (env.slot state.responses.length)).cancelled).toList := by
  unfold cancels publish
  rw [List.filterMap_append]
  cases told : (write (env.slot state.responses.length)).cancelled <;> simp [told]

theorem publishOrderExecution_cancels (state : MatchState β) (env : Environment) (ref : Nat) (aggressor : Bool) :
    (state.publishOrderExecution env ref aggressor).cancels = state.cancels :=
  (state.publish_cancels env _).trans (List.append_nil _)

theorem reportRestingFill_cancels (state : MatchState β) (env : Environment) (resting : Option Nat) :
    (state.reportRestingFill env resting).cancels = state.cancels := by
  cases resting with
  | none => rfl
  | some ref =>
      rw [← publishOrderExecution_cancels state env ref false]
      unfold reportRestingFill
      dsimp only
      split <;> rfl

theorem recordTrade_order (state : MatchState β) (ctx : MatchContext) (side : BookSide) (aggressorId bookOrderId : Nat)
    (price tradeQty phantomQty : Int) (ref : Nat) :
    (state.recordTrade ctx side aggressorId bookOrderId price tradeQty phantomQty).2.order ref = state.order ref := by
  unfold recordTrade
  split <;> rfl

/-- One fill happened on a side. No other trade was told and the other side is as it was. -/
structure FillsOne [OrderBookL3 β] (aggressor : Option Nat) (side : BookSide) (order : BookOrder) (qty : Int)
    (before after : MatchState β) : Prop where
  queue : restingOrders after.book.l3 side = takeFromQueue order qty (restingOrders before.book.l3 side)
  otherSide : restingOrders after.book.l3 side.opposite = restingOrders before.book.l3 side.opposite
  trades : after.trades =
    before.trades ++ fillTrades aggressor (fun id => (before.book.findOrder id).isSome) (order, qty)
  cancels : after.cancels = before.cancels

/-- These fills happened on a side, in this order. No other trade was told and the other
side is as it was. -/
structure Filled [OrderBookL3 β] (aggressor : Option Nat) (side : BookSide) (fills : List (BookOrder × Int))
    (before after : MatchState β) : Prop where
  queue : restingOrders after.book.l3 side =
    unserved BookOrder.quantity BookOrder.reduce fills (restingOrders before.book.l3 side)
  otherSide : restingOrders after.book.l3 side.opposite = restingOrders before.book.l3 side.opposite
  trades : after.trades =
    before.trades ++ fills.flatMap (fillTrades aggressor fun id => (before.book.findOrder id).isSome)

variable [OrderBookL3 β] {aggressor : Option Nat} {side : BookSide} {fills : List (BookOrder × Int)}
  {state before between after : MatchState β} {front : BookOrder} {rest : List BookOrder} {qty : Int}

theorem FillsOne.filled (one : FillsOne aggressor side front qty before after)
    (orders : restingOrders before.book.l3 side = front :: rest) :
    Filled aggressor side [(front, qty)] before after where
  queue := by
    have distinct := OrderBookL3.restingOrders_distinct before.book.l3 side
    rw [one.queue]
    rw [orders] at distinct ⊢
    exact takeFromQueue_unserved qty distinct
  otherSide := one.otherSide
  trades := by
    rw [one.trades, List.flatMap_singleton]

theorem Filled.nil : Filled aggressor side [] state state :=
  ⟨unserved_nil.symm, rfl, (List.append_nil _).symm⟩

theorem Filled.congr {before' after' : MatchState β} (filled : Filled aggressor side fills before after)
    (l3 : before'.book.l3 = before.book.l3) (trades : before'.trades = before.trades)
    (orders : before'.book.orders = before.book.orders) (l3After : after'.book.l3 = after.book.l3)
    (tradesAfter : after'.trades = after.trades) : Filled aggressor side fills before' after' where
  queue := by rw [l3, l3After, filled.queue]
  otherSide := by rw [l3, l3After, filled.otherSide]
  trades := by
    unfold OrderBook.findOrder
    rw [trades, orders, tradesAfter]
    exact filled.trades

theorem Filled.cons (orders : restingOrders before.book.l3 side = front :: rest)
    (first : Filled aggressor side [(front, qty)] before between)
    (others : Filled aggressor side fills between after) (short : qty ≠ front.quantity → fills = [])
    (owners : ∀ fill ∈ fills,
      between.book.findOrder fill.1.orderId = before.book.findOrder fill.1.orderId) :
    Filled aggressor side ((front, qty) :: fills) before after where
  queue := by
    rw [others.queue, first.queue, orders]
    by_cases whole : qty = front.quantity
    · rw [whole, unserved_whole, unserved_whole, unserved_nil]
    · rw [short whole, unserved_nil]
  otherSide := others.otherSide.trans first.otherSide
  trades := by
    rw [others.trades, first.trades, List.append_assoc, List.flatMap_singleton, List.flatMap_cons]
    congr 2
    refine List.flatMap_congr fun fill member => ?_
    simp only [fillTrades, owners fill member]

theorem FillsOne.recorded (one : FillsOne aggressor side front qty before after) (ctx : MatchContext)
    (aggressorId bookOrderId : Nat) (price tradeQty phantomQty : Int) :
    FillsOne aggressor side front qty before
      (after.recordTrade ctx side aggressorId bookOrderId price tradeQty phantomQty).2 := by
  unfold recordTrade
  split
  · exact ⟨one.queue, one.otherSide, one.trades, one.cancels⟩
  · exact one

/-! ## One fill -/

section Fill

variable {env : Environment} {ctx ctx' : MatchContext} {price left : Int} {isLast : Bool}

/-- What the maps and the pool say of the front order's owner. -/
def FrontAgrees (state : MatchState β) (front : BookOrder) : Prop :=
  ∀ ref, state.book.findOrder front.orderId = some ref →
    (state.order ref).id = front.orderId ∧ (state.order ref).price = front.price

private theorem executeOrder_fillsOne {book : OrderBook β} {timestamp seqNum : Nat}
    (member : front ∈ restingOrders state.book.l3 side) (current : ¬ Regresses state.book.l3 seqNum)
    (agrees : state.FrontAgrees front) (positive : 0 < qty) (within : qty ≤ front.quantity)
    (executed : state.book.executeOrder front.orderId qty timestamp seqNum isLast = (true, book)) :
    FillsOne none side front qty state
      ({ state with book }.reportRestingFill env (state.book.findOrder front.orderId)) := by
  obtain rfl : front.side = side := OrderBookL3.side_of_mem member
  have rests : OrderBookL3.findOrder state.book.l3 front.orderId = some front :=
    OrderBookL3.findOrder_of_mem member
  have bookIs : book = (state.book.executeOrder front.orderId qty timestamp seqNum isLast).2 := by
    rw [executed]
  refine ⟨?_, ?_, ?_, reportRestingFill_cancels ..⟩
  · rw [reportRestingFill_l3, bookIs, OrderBook.executeOrder_queue timestamp isLast current rests positive
      within]
  · rw [reportRestingFill_l3, bookIs]
    exact OrderBook.executeOrder_otherSide timestamp isLast current member positive within
  · rw [reportRestingFill_trades]
    have told : fillTrades none (fun id => (state.book.findOrder id).isSome) (front, qty) =
        if (state.book.findOrder front.orderId).isSome then [⟨front.orderId, false, front.price, qty⟩] else [] :=
      rfl
    rw [told]
    refine congrArg (state.trades ++ ·) ?_
    cases ours : state.book.findOrder front.orderId with
    | none => rfl
    | some ref =>
        obtain ⟨sameId, samePrice⟩ := agrees ref ours
        obtain ⟨filledId, filledPrice, filledQty⟩ :=
          OrderBook.executeOrder_fill qty timestamp isLast current ours
        rw [← bookIs] at filledId filledPrice filledQty
        show [TradeTold.mk (book.heap ref).id false (book.heap ref).lastFillPrice
          (book.heap ref).lastFillQty] = [⟨front.orderId, false, front.price, qty⟩]
        rw [filledId, filledPrice, filledQty, ← sameId, ← samePrice]
        rfl

theorem fillRestingFromFeed_fillsOne {aggressorId : Nat} {remaining : Int}
    (member : front ∈ restingOrders state.book.l3 side)
    (current : ¬ Regresses state.book.l3 ctx.seqNum) (agrees : state.FrontAgrees front)
    (positive : 0 < qty) (within : qty ≤ front.quantity)
    (filled : state.fillRestingFromFeed env ctx side aggressorId front.orderId price qty remaining =
      (true, left, ctx', after)) :
    FillsOne none side front qty state after ∧ ∃ reported : MatchState β,
      ctx' = (reported.recordTrade ctx side aggressorId front.orderId price qty
        (if (state.book.findOrder front.orderId).isSome then 0 else qty)).1 := by
  unfold fillRestingFromFeed at filled
  dsimp only at filled
  cases executed : state.book.executeOrder front.orderId qty ctx.eventTime ctx.seqNum
    (decide (remaining - qty = 0)) with
  | mk taken book =>
  rw [executed] at filled
  cases taken with
  | false => cases congrArg Prod.fst filled
  | true =>
      have one : FillsOne none side front qty state
          ({ state with book }.reportRestingFill env (state.book.findOrder front.orderId)) :=
        executeOrder_fillsOne member current agrees positive within executed
      dsimp only at filled
      rw [if_neg (by decide)] at filled
      obtain ⟨-, -, isCtx, isAfter⟩ : _ ∧ _ ∧ _ ∧ _ := by simpa only [Prod.mk.injEq] using filled
      exact ⟨isAfter ▸ one.recorded .., _, isCtx.symm⟩

theorem fillResting_fillsOne {ref : Nat} {remaining : Int}
    (member : front ∈ restingOrders state.book.l3 side)
    (current : ¬ Regresses state.book.l3 ctx.seqNum) (agrees : state.FrontAgrees front)
    (positive : 0 < qty) (within : qty ≤ front.quantity)
    (filled : state.fillResting env ctx side ref front.orderId (state.book.findOrder front.orderId) front.price
      qty remaining = (true, ctx', after)) :
    FillsOne (some (state.order ref).id) side front qty state after ∧
      ∃ reported : MatchState β,
        ctx' = (reported.recordTrade ctx side (after.order ref).id front.orderId front.price qty
          (if (state.book.findOrder front.orderId).isSome then 0 else qty)).1 := by
  let booked := state.onBook fun book => book.updateOrder ref fun order =>
    order.execute front.price qty ctx.eventTime
  have self : booked.order ref = (state.order ref).execute front.price qty ctx.eventTime :=
    Function.update_self ..
  let told := booked.publishOrderExecution env ref true
  have toldTrades : told.trades = state.trades ++ [⟨(state.order ref).id, true, front.price, qty⟩] := by
    rw [show told.trades = _ from publishOrderExecution_trades .., self]
    rfl
  have toldAgrees : told.FrontAgrees front := by
    intro owner ours
    obtain ⟨sameId, samePrice⟩ := agrees owner ours
    show ((Function.update state.book.heap ref _ owner).id = _) ∧ (Function.update state.book.heap ref _ owner).price = _
    by_cases same : owner = ref
    · subst same
      rw [Function.update_self]
      exact ⟨sameId, samePrice⟩
    · rw [Function.update_of_ne same]
      exact ⟨sameId, samePrice⟩
  unfold fillResting at filled
  dsimp only at filled
  cases executed : told.book.executeOrder front.orderId qty ctx.eventTime ctx.seqNum (decide (remaining = 0)) with
  | mk taken book =>
  rw [show (((state.onBook fun book => book.updateOrder ref fun order => order.execute front.price qty
    ctx.eventTime).publishOrderExecution env ref true).book.executeOrder front.orderId qty ctx.eventTime
      ctx.seqNum (decide (remaining = 0))) = _ from executed] at filled
  cases taken with
  | false => cases congrArg Prod.fst filled
  | true =>
      have one : FillsOne none side front qty told
          ({ told with book }.reportRestingFill env (state.book.findOrder front.orderId)) :=
        executeOrder_fillsOne member current toldAgrees positive within executed
      dsimp only at filled
      rw [if_neg (by decide)] at filled
      obtain ⟨-, isCtx, isAfter⟩ : _ ∧ _ ∧ _ := by simpa only [Prod.mk.injEq] using filled
      have recorded : FillsOne none side front qty told after := isAfter ▸ one.recorded ..
      refine ⟨⟨recorded.queue, recorded.otherSide, ?_, ?_⟩,
        { told with book }.reportRestingFill env (state.book.findOrder front.orderId), ?_⟩
      · rw [recorded.trades, toldTrades, List.append_assoc]
        rfl
      · exact recorded.cancels.trans (publishOrderExecution_cancels ..)
      · rw [← isAfter, recordTrade_order]
        exact isCtx.symm

end Fill

theorem fillRestingFromFeed_stale {env : Environment} {ctx : MatchContext}
    (stale : Regresses state.book.l3 ctx.seqNum) (aggressorId id : Nat) (price tradeQty left : Int) :
    state.fillRestingFromFeed env ctx side aggressorId id price tradeQty left =
      (false, left, ctx, state.onBook fun book => book.noteDeclined True) := by
  unfold fillRestingFromFeed OrderBook.executeOrder
  dsimp only
  rw [if_pos (show _ ∧ _ from stale)]
  rfl

/-- The front order of a swept side is what its owner's object says it is. -/
theorem Sweepable.frontAgrees {hand : Hand} {seqNum : Nat} (ready : state.Sweepable hand side seqNum)
    (member : front ∈ restingOrders state.book.l3 side) : state.FrontAgrees front := by
  intro ref ours
  obtain ⟨isEntry, -, -⟩ := ready.inv.resting_eq (entry_of_mem member) ours
    (ready.apart (entry_of_mem member) (OrderBookL3.side_of_mem member) ours)
  rw [isEntry]
  exact ⟨rfl, rfl⟩

/-- Its owner has left what an order of a swept side offers. -/
theorem Sweepable.booked {hand : Hand} {seqNum : Nat} {resting : BookOrder} {owner : Nat}
    (ready : state.Sweepable hand side seqNum) (member : resting ∈ restingOrders state.book.l3 side)
    (ours : state.book.findOrder resting.orderId = some owner) :
    (state.order owner).leavesQuantity = resting.quantity := by
  obtain ⟨isEntry, -, -⟩ := ready.inv.resting_eq (entry_of_mem member) ours
    (ready.apart (entry_of_mem member) (OrderBookL3.side_of_mem member) ours)
  rw [isEntry]
  rfl

end MatchState

/-! ## Trade summaries -/

/-- The last summary, if there is one, is that of the last fill price. -/
def MatchContext.Running (ctx : MatchContext) : Prop :=
  match ctx.summaries.getLast? with
  | none => ctx.lastFillPrice = nullPrice
  | some last => last.price = ctx.lastFillPrice ∧ last.trades ≠ []

/-- The summaries gained these fills, each at the price of its order. -/
def MatchContext.Gains (fills : List (BookOrder × Int)) (before after : MatchContext) : Prop :=
  before.Running → (∀ fill ∈ fills, fill.1.price ≠ nullPrice) →
    after.Running ∧ tradeLegs after.summaries =
      tradeLegs before.summaries ++ fills.map fun fill => (fill.1.orderId, fill.1.price, fill.2)

theorem MatchContext.Gains.nil {ctx : MatchContext} : Gains [] ctx ctx :=
  fun running _ => ⟨running, (List.append_nil _).symm⟩

theorem MatchContext.Gains.cons {fill : BookOrder × Int} {fills : List (BookOrder × Int)}
    {before between after : MatchContext} (first : Gains [fill] before between)
    (others : Gains fills between after) : Gains (fill :: fills) before after := by
  intro running real
  obtain ⟨runs, legs⟩ := first running fun other member =>
    real other (List.mem_singleton.mp member ▸ List.mem_cons_self)
  obtain ⟨runsOn, more⟩ := others runs fun other member => real other (List.mem_cons_of_mem _ member)
  exact ⟨runsOn, by rw [more, legs, List.append_assoc]; rfl⟩

theorem tradeLegs_append (first later : List TradeSummaryInfo) :
    tradeLegs (first ++ later) = tradeLegs first ++ tradeLegs later :=
  List.flatMap_append ..

theorem MatchState.recordTrade_gains {β : Type} (state : MatchState β) (ctx : MatchContext) (side : BookSide)
    (aggressorId : Nat) (order : BookOrder) (qty phantomQty : Int) :
    ctx.Gains [(order, qty)]
      (state.recordTrade ctx side aggressorId order.orderId order.price qty phantomQty).1 := by
  intro running real
  have real : order.price ≠ nullPrice := real _ (List.mem_singleton_self _)
  unfold recordTrade
  split <;> rename_i fresh
  · refine ⟨by simp [MatchContext.Running], ?_⟩
    rw [tradeLegs_append]
    rfl
  · have same : ctx.lastFillPrice = order.price := not_ne_iff.mp fresh
    unfold MatchContext.Running at running
    dsimp only
    cases last : ctx.summaries.getLast? with
    | none =>
        rw [last] at running
        exact absurd (same.symm.trans running) real
    | some summary =>
        rw [last] at running
        obtain ⟨samePrice, named⟩ := running
        obtain ⟨first, legs, isTrades⟩ := List.exists_cons_of_ne_nil named
        have whole := List.dropLast_append_getLast? summary last
        refine ⟨by simp [MatchContext.Running, TradeSummaryInfo.addLeg, samePrice], ?_⟩
        rw [tradeLegs_append, ← whole, tradeLegs_append, List.append_assoc]
        simp [tradeLegs, TradeSummaryInfo.addLeg, isTrades, samePrice, same, whole]

/-! ## The loops -/

/-- The front part of a queue, best level first, that is within a limit. -/
def withinLimit (side : BookSide) (limit : Int) (orders : List BookOrder) : List BookOrder :=
  orders.takeWhile fun order => !beyondLimit side order.price limit

theorem withinLimit_of_beyond {side : BookSide} {limit : Int} {orders : List BookOrder}
    (beyond : ∀ order ∈ orders, beyondLimit side order.price limit = true) :
    withinLimit side limit orders = [] := by
  cases orders with
  | nil => rfl
  | cons front rest =>
      unfold withinLimit
      rw [List.takeWhile_cons_of_neg]
      simp [beyond front List.mem_cons_self]

theorem withinLimit_cons {side : BookSide} {limit : Int} {front : BookOrder} {rest : List BookOrder}
    (within : beyondLimit side front.price limit = false) :
    withinLimit side limit (front :: rest) = front :: withinLimit side limit rest :=
  List.takeWhile_cons_of_pos (by simp [within])

/-- What a queue serves an aggressor. -/
def fifoFills (side : BookSide) (limit : Int) (orders : List BookOrder) (qty : Int) : List (BookOrder × Int) :=
  serve BookOrder.quantity (withinLimit side limit orders) qty

namespace Fifo

open MatchState

variable {β : Type} [OrderBookL3 β] {env : Environment} {hand : Hand} {side : BookSide}
  {seqNum ref requestTime : Nat} {limit : Int}

/-- A loop has served its aggressor from the queue. -/
structure Serves (aggressor : Option Nat) (side : BookSide) (limit : Int) (ctx : MatchContext) (qty : Int)
    (state : MatchState β) (result : LoopResult β) : Prop where
  filled : Filled aggressor side (fifoFills side limit (restingOrders state.book.l3 side) qty) state result.state
  gains : ctx.Gains (fifoFills side limit (restingOrders state.book.l3 side) qty) result.ctx
  remaining : result.remaining =
    qty - ((fifoFills side limit (restingOrders state.book.l3 side) qty).map Prod.snd).sum

variable {aggressor : Option Nat} {ctx ctx' : MatchContext} {qty : Int} {state state' : MatchState β}
  {result : LoopResult β}

private theorem serves_here (nothing : fifoFills side limit (restingOrders state.book.l3 side) qty = []) :
    Serves aggressor side limit ctx qty state ⟨false, qty, ctx, state⟩ := by
  refine ⟨?_, ?_, ?_⟩ <;> rw [nothing]
  · exact .nil
  · exact .nil
  · exact (sub_zero qty).symm

private theorem serves_front {front : BookOrder} {rest : List BookOrder} (ready : state.Sweepable hand side seqNum)
    (orders : restingOrders state.book.l3 side = front :: rest)
    (within : beyondLimit side front.price limit = false) (more : 0 < qty)
    (takes : Takes env hand side seqNum front (min qty front.quantity) state state')
    (first : Filled aggressor side [(front, min qty front.quantity)] state state')
    (gains : ctx.Gains [(front, min qty front.quantity)] ctx')
    (others : Serves aggressor side limit ctx' (qty - min qty front.quantity) state' result) :
    Serves aggressor side limit ctx qty state result := by
  let later := fifoFills side limit (restingOrders state'.book.l3 side) (qty - min qty front.quantity)
  have cut : fifoFills side limit (restingOrders state.book.l3 side) qty =
      (front, min qty front.quantity) :: later := by
    show serve _ (withinLimit side limit (restingOrders state.book.l3 side)) qty = _ ::
      serve _ (withinLimit side limit (restingOrders state'.book.l3 side)) _
    rw [first.queue, orders, withinLimit_cons within, serve_cons more]
    by_cases whole : min qty front.quantity = front.quantity
    · rw [whole, unserved_whole, unserved_nil]
    · rw [serve_of_nonpos (by omega), serve_of_nonpos (by omega)]
  have short : min qty front.quantity ≠ front.quantity → later = [] :=
    fun part => serve_of_nonpos (by omega)
  have owners : ∀ fill ∈ later,
      state'.book.findOrder fill.1.orderId = state.book.findOrder fill.1.orderId := by
    intro fill member
    have rests := entry_of_mem ((List.takeWhile_subset _) (mem_of_serve member))
    have frame := takes.sweeps.takenFrom ready.inv
    exact frame.owner (by rw [rests]; rintro ⟨⟩)
  refine ⟨?_, ?_, ?_⟩ <;> rw [cut]
  · exact first.cons orders others.filled short owners
  · exact gains.cons others.gains
  · rw [List.map_cons, List.sum_cons, others.remaining]
    show _ - (later.map Prod.snd).sum = _ - (min qty front.quantity + (later.map Prod.snd).sum)
    omega

theorem feedLoop_fifo (aggressorId fuel : Nat) :
    ∀ (ctx : MatchContext) (qty : Int) (state : MatchState β),
      ctx.seqNum = seqNum → state.Sweepable hand side seqNum →
      (0 < qty → (restingOrders state.book.l3 side).length < fuel) →
      Serves none side limit ctx qty state (feedLoop env side aggressorId limit fuel ctx qty state) := by
  induction fuel with
  | zero =>
      intro ctx qty state _ ready enough
      exact serves_here (serve_of_nonpos (not_lt.mp fun more => Nat.not_lt_zero _ (enough more)))
  | succ fuel ih =>
      intro ctx qty state sameSeq ready enough
      unfold feedLoop
      by_cases done : qty ≤ 0
      · rw [if_pos done]
        exact serves_here (serve_of_nonpos done)
      rw [if_neg done]
      cases crosses : state.crossableLevel side limit with
      | none =>
          refine serves_here ?_
          unfold fifoFills
          rw [withinLimit_of_beyond (beyond_of_crossableLevel_none crosses)]
          rfl
      | some level =>
          obtain ⟨front, queue, rest, isQueue, orders, price, within⟩ := front_of_crossableLevel crosses
          have member : front ∈ restingOrders state.book.l3 side := by
            rw [orders]
            exact List.mem_cons_self
          have rests := entry_of_mem member
          have swept := OrderBookL3.side_of_mem member
          have positive := ready.inv.agrees.positive rests
          have taking : 0 < min qty front.quantity := by omega
          have current : ¬ Regresses state.book.l3 ctx.seqNum := sameSeq ▸ ready.current
          obtain ⟨ctx', state', filled, seqIs, takes⟩ := fillRestingFromFeed_takes env ready.inv current
            rests swept (fun _ ours => ready.apart rests swept ours) taking (Int.min_le_right _ _) front.price
            aggressorId qty
          obtain ⟨first, reported, isCtx⟩ := fillRestingFromFeed_fillsOne member current
            (ready.frontAgrees member) taking (Int.min_le_right _ _) filled
          dsimp only
          rw [isQueue]
          dsimp only
          rw [← price, filled]
          rw [sameSeq] at takes
          refine serves_front ready orders within (by omega) takes (first.filled orders)
            (isCtx ▸ reported.recordTrade_gains _ _ _ _ _ _) (ih ctx' _ state' (seqIs.trans sameSeq)
              (ready.sweeps takes.sweeps takes.current) ?_)
          intro more
          have whole : min qty front.quantity = front.quantity := by omega
          have shorter := length_takeFromQueue_lt member
          rw [takes.queue, whole]
          have := enough (by omega)
          omega

theorem matchLoop_fifo (held : hand.aggressor = some ref) (fuel : Nat) :
    ∀ (ctx : MatchContext) (qty : Int) (state : MatchState β),
      ctx.seqNum = seqNum → state.Sweepable hand side seqNum → qty = (state.order ref).leavesQuantity →
      (0 < qty → (restingOrders state.book.l3 side).length < fuel) →
      Serves (some (state.order ref).id) side limit ctx qty state
        (matchLoop env side ref limit requestTime .none fuel ctx qty state) := by
  induction fuel with
  | zero =>
      intro ctx qty state _ ready _ enough
      exact serves_here (serve_of_nonpos (not_lt.mp fun more => Nat.not_lt_zero _ (enough more)))
  | succ fuel ih =>
      intro ctx qty state sameSeq ready leaves enough
      unfold matchLoop
      by_cases done : qty ≤ 0
      · rw [if_pos done]
        exact serves_here (serve_of_nonpos done)
      rw [if_neg done]
      cases crosses : state.crossableLevel side limit with
      | none =>
          refine serves_here ?_
          unfold fifoFills
          rw [withinLimit_of_beyond (beyond_of_crossableLevel_none crosses)]
          rfl
      | some level =>
          obtain ⟨front, queue, rest, isQueue, orders, price, within⟩ := front_of_crossableLevel crosses
          have member : front ∈ restingOrders state.book.l3 side := by
            rw [orders]
            exact List.mem_cons_self
          have rests := entry_of_mem member
          have swept := OrderBookL3.side_of_mem member
          have positive := ready.inv.agrees.positive rests
          have taking : 0 < min qty front.quantity := by omega
          have current : ¬ Regresses state.book.l3 ctx.seqNum := sameSeq ▸ ready.current
          obtain ⟨ctx', state', filled, seqIs, takes, left, -⟩ := fillResting_takes env ready.inv current
            rests swept (fun _ ours => ready.apart rests swept ours) taking (Int.min_le_right _ _) front.price
            held (by omega) (qty - min qty front.quantity)
          obtain ⟨first, reported, isCtx⟩ := fillResting_fillsOne member current
            (ready.frontAgrees member) taking (Int.min_le_right _ _) filled
          have sameId : (state'.order ref).id = (state.order ref).id :=
            ((takes.sweeps.takenFrom ready.inv).terms ref).id
          dsimp only
          rw [isQueue]
          dsimp only
          rw [if_neg (fun both => both.1 rfl), ← price, filled]
          rw [sameSeq] at takes
          refine serves_front ready orders within (by omega) takes (first.filled orders)
            (isCtx ▸ reported.recordTrade_gains _ _ _ _ _ _) (sameId ▸ ih ctx' _ state' (seqIs.trans sameSeq)
              (ready.sweeps takes.sweeps takes.current) (by omega) ?_)
          intro more
          have whole : min qty front.quantity = front.quantity := by omega
          have shorter := length_takeFromQueue_lt member
          rw [takes.queue, whole]
          have := enough (by omega)
          omega

/-- A book that has seen a later sequence number takes no fill. -/
theorem feedLoop_stale (aggressorId : Nat) (ctx : MatchContext) (qty : Int) (state : MatchState β)
    (stale : Regresses state.book.l3 ctx.seqNum) (fuel : Nat) :
    let result := feedLoop env side aggressorId limit fuel ctx qty state
    result.remaining = qty ∧ result.ctx = ctx ∧ (result.state = state ∨
      result.state = state.onBook fun book => book.noteDeclined True) := by
  cases fuel with
  | zero => exact ⟨rfl, rfl, .inl rfl⟩
  | succ fuel =>
      unfold feedLoop
      split
      · exact ⟨rfl, rfl, .inl rfl⟩
      split
      · exact ⟨rfl, rfl, .inl rfl⟩
      split
      · exact ⟨rfl, rfl, .inl rfl⟩
      · rename_i level _ front _ _
        rw [MatchState.fillRestingFromFeed_stale stale]
        exact ⟨rfl, rfl, .inr rfl⟩

end Fifo

end SlickSim
