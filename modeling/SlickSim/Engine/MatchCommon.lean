import SlickSim.Engine.Publish

/-!
# Building blocks both engines share

The preamble before matching, one fill, and the trade summaries a match
produces. `side` is always the resting side the aggressor sweeps, the template
argument `SIDE` of the source.
-/

set_option autoImplicit false

namespace SlickSim

inductive Reach where
  | queue
  | level
deriving DecidableEq, Repr

/-- Both orders have a client and it is the same one. -/
def isSelfMatch (incoming : Order) (bookOrder : Option Order) : Bool :=
  match bookOrder with
  | none => false
  | some resting =>
      if incoming.clientId = -1 ∨ resting.clientId = -1 then false
      else decide (incoming.clientId = resting.clientId)

def beyondLimit (side : BookSide) (levelPrice orderPrice : Int) : Bool :=
  decide (orderPrice ≠ nullPrice) && !isPriceBetterOrEqual side levelPrice orderPrice

namespace OrderBook

variable {β : Type}

def resolve (book : OrderBook β) (orderId : Nat) : Option Order :=
  (book.findOrder orderId).map book.heap

/-- The inner loop of `wouldSelfMatch`. An error is the answer of an early return. -/
def scanLevel (book : OrderBook β) (reach : Reach) (order : Order) :
    List BookOrder → Int → Except Bool Int
  | [], remaining => .ok remaining
  | bookOrder :: rest, remaining =>
      if reach = .queue ∧ remaining ≤ 0 then .error false
      else if isSelfMatch order (book.resolve bookOrder.orderId) then .error true
      else scanLevel book reach order rest
        (if reach = .queue then remaining - min bookOrder.quantity remaining else remaining)

def scanLevels (book : OrderBook β) (reach : Reach) (side : BookSide) (order : Order)
    (orderPrice : Int) : List PriceLevelL3 → Int → Bool
  | [], _ => false
  | level :: levels, remaining =>
      if remaining ≤ 0 then false
      else if beyondLimit side level.price orderPrice then false
      else
        match scanLevel book reach order level.orders remaining with
        | .error answer => answer
        | .ok remaining => scanLevels book reach side order orderPrice levels
            (if reach = .level then remaining - min level.totalQuantity remaining else remaining)

/-- The inner loop of `canFillCompletely`. An error is the answer of an early return. -/
def countLevel (book : OrderBook β) (smpMode : SelfMatchPreventionMode) (order : Order) :
    List BookOrder → Int → Except Bool Int
  | [], remaining => .ok remaining
  | bookOrder :: rest, remaining =>
      if smpMode ≠ .none ∧ isSelfMatch order (book.resolve bookOrder.orderId) = true then
        if smpMode = .cancelNewest then .error false
        else countLevel book smpMode order rest remaining
      else
        let remaining := remaining - min bookOrder.quantity remaining
        if remaining = 0 then .error true else countLevel book smpMode order rest remaining

def countLevels (book : OrderBook β) (side : BookSide) (smpMode : SelfMatchPreventionMode)
    (order : Order) (orderPrice : Int) : List PriceLevelL3 → Int → Bool
  | [], remaining => decide (remaining = 0)
  | level :: levels, remaining =>
      if beyondLimit side level.price orderPrice then decide (remaining = 0)
      else
        match countLevel book smpMode order level.orders remaining with
        | .error answer => answer
        | .ok remaining => countLevels book side smpMode order orderPrice levels remaining

variable [OrderBookL3 β]

def wouldSelfMatch (book : OrderBook β) (side : BookSide) (reach : Reach) (order : Order)
    (orderPrice orderQty : Int) : Bool :=
  book.scanLevels reach side order orderPrice (OrderBookL3.getLevelsL3 book.l3 side) orderQty

def canFillCompletely (book : OrderBook β) (side : BookSide) (order : Order)
    (orderPrice orderQty : Int) (smpMode : SelfMatchPreventionMode) : Bool :=
  book.countLevels side smpMode order orderPrice (OrderBookL3.getLevelsL3 book.l3 side) orderQty

end OrderBook

structure MatchContext where
  eventTime : Nat
  seqNum : Nat
  summaries : List TradeSummaryInfo
  lastFillPrice : Int
deriving DecidableEq, Repr

def MatchContext.start (eventTime seqNum : Nat) : MatchContext :=
  { eventTime, seqNum, summaries := [], lastFillPrice := nullPrice }

def TradeSummaryInfo.addLeg (summary : TradeSummaryInfo) (bookOrderId : Nat)
    (tradeQty phantomQty : Int) : TradeSummaryInfo :=
  { summary with
    numOrders := summary.numOrders + 1
    qty := summary.qty + tradeQty
    phantomQty := summary.phantomQty + phantomQty
    trades :=
      (match summary.trades with
        | [] => []
        | first :: rest => { first with qty := first.qty + tradeQty } :: rest) ++
      [{ orderId := bookOrderId, qty := tradeQty }] }

namespace MatchState

variable {β : Type}

def recordTrade (state : MatchState β) (ctx : MatchContext) (side : BookSide)
    (aggressorId bookOrderId : Nat) (price tradeQty phantomQty : Int) :
    MatchContext × MatchState β :=
  if ctx.lastFillPrice ≠ price then
    let summary : TradeSummaryInfo :=
      { timestamp := ctx.eventTime, tradeId := state.book.globals.nextTradeId
        aggressorSide := ofBookSide side.opposite, price, qty := tradeQty, phantomQty
        numOrders := 2
        trades := [{ orderId := aggressorId, qty := tradeQty },
          { orderId := bookOrderId, qty := tradeQty }] }
    ({ ctx with summaries := ctx.summaries ++ [summary], lastFillPrice := price },
      state.onBook OrderBook.nextTradeId)
  else
    ({ ctx with
        summaries := ctx.summaries.dropLast ++
          (ctx.summaries.getLast?.map fun last =>
            last.addLeg bookOrderId tradeQty phantomQty).toList }, state)

variable [OrderBookL3 β]

/-- `handleSelfMatch`: whether matching goes on. -/
def handleSelfMatch (state : MatchState β) (env : Environment) (bookRef : Nat)
    (requestTime eventTime seqNum : Nat) (smpMode : SelfMatchPreventionMode) : Bool × MatchState β :=
  match smpMode with
  | .none => (true, state)
  | .cancelResting =>
      let state := state.onBook fun book => book.deleteOrder bookRef eventTime seqNum false
      let state := state.publishOrderCancel env bookRef requestTime
      (true, state.onBook fun book => book.freeOrder bookRef)
  | .cancelNewest => (false, state)

/-- `prepareOrder`: the reason when the order is finished here, `none` when it
goes on to match its leaves. -/
def prepareOrder (state : MatchState β) (env : Environment) (side : BookSide) (reach : Reach)
    (ref : Nat) (orderPrice orderQty : Int) (requestTime : Nat)
    (smpMode : SelfMatchPreventionMode) : Option OrdRejectReason × MatchState β :=
  let order := state.order ref
  let effectiveQty :=
    if order.status = .pendingReplace then max 0 (order.leavesQuantity + (orderQty - order.quantity))
    else order.leavesQuantity
  if smpMode = .cancelNewest ∧ 0 < effectiveQty ∧
      state.book.wouldSelfMatch side reach order orderPrice effectiveQty = true then
    (some .smp, state)
  else
    let state :=
      if order.status = .pendingNew then state.publishOrderAck env ref requestTime else state
    if order.timeInForce = .fillOrKill ∧
        state.book.canFillCompletely side order orderPrice orderQty smpMode = false then
      (some .fokCannotFill, state.publishOrderCancel env ref requestTime)
    else
      let state :=
        if order.status = .pendingReplace then
          let replaced := state.onBook fun book => book.updateOrder ref fun order =>
            { order with
              quantity := orderQty
              price := orderPrice
              leavesQuantity :=
                if order.cumQuantity ≥ orderQty then 0 else orderQty - order.cumQuantity }
          replaced.publishOrderModify env ref orderPrice orderQty requestTime
        else state
      if (state.order ref).leavesQuantity = 0 then
        (some .none, state.publishOrderCancel env ref requestTime)
      else (none, state)

/-- Reports the fill of a resting order of ours and drops it once it is complete. -/
def reportRestingFill (state : MatchState β) (env : Environment) (resting : Option Nat) :
    MatchState β :=
  match resting with
  | none => state
  | some ref =>
      let state := state.publishOrderExecution env ref false
      if (state.order ref).leavesQuantity = 0 then state.onBook fun book => book.dropOrder ref
      else state

/-- `fillResting`: one fill of a client order. `false` when the book declines it. -/
def fillResting (state : MatchState β) (env : Environment) (ctx : MatchContext) (side : BookSide)
    (ref bookOrderId : Nat) (resting : Option Nat) (price tradeQty remaining : Int) :
    Bool × MatchContext × MatchState β :=
  let state := state.onBook fun book => book.updateOrder ref fun order =>
    order.execute price tradeQty ctx.eventTime
  let state := state.publishOrderExecution env ref true
  let (taken, book) := state.book.executeOrder bookOrderId tradeQty ctx.eventTime ctx.seqNum
    (decide (remaining = 0))
  let state := { state with book }
  if taken = false then (false, ctx, state)
  else
    let state := state.reportRestingFill env resting
    let (ctx, state) := state.recordTrade ctx side (state.order ref).id bookOrderId price tradeQty
      (if resting.isSome then 0 else tradeQty)
    (true, ctx, state)

/-- `fillRestingFromFeed`: one fill of a market-data aggressor. Returns the quantity
the aggressor has left. -/
def fillRestingFromFeed (state : MatchState β) (env : Environment) (ctx : MatchContext)
    (side : BookSide) (aggressorId bookOrderId : Nat) (price tradeQty qty : Int) :
    Bool × Int × MatchContext × MatchState β :=
  let ours := state.book.findOrder bookOrderId
  let remaining := qty - tradeQty
  let (taken, book) := state.book.executeOrder bookOrderId tradeQty ctx.eventTime ctx.seqNum
    (decide (remaining = 0))
  let state := { state with book }
  if taken = false then (false, qty, ctx, state)
  else
    let state := state.reportRestingFill env ours
    let (ctx, state) := state.recordTrade ctx side aggressorId bookOrderId price tradeQty
      (if ours.isSome then 0 else tradeQty)
    (true, remaining, ctx, state)

/-- What cannot rest is cancelled. -/
def cancelUnrestableRemainder (state : MatchState β) (env : Environment) (ref : Nat)
    (remaining : Int) (requestTime : Nat) : MatchState β :=
  if 0 < remaining ∧ (state.order ref).restsRemainder = false then
    state.publishOrderCancel env ref requestTime
  else state

end MatchState

end SlickSim
