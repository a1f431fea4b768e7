import SlickSim.Engine.MatchCommon

/-!
# The FIFO engine

Each round trades with the front of the best level. A loop runs on fuel: every
round that goes on removes the order it met, so one more round than the swept
side has orders always suffices.
-/

set_option autoImplicit false

namespace SlickSim

structure LoopResult (β : Type) where
  /-- `CANCEL_NEWEST` met an order of its own after all. -/
  refused : Bool
  remaining : Int
  ctx : MatchContext
  state : MatchState β

namespace MatchState

variable {β : Type} [OrderBookL3 β]

/-- Enough rounds for any sweep of one side. -/
def sweepFuel (state : MatchState β) (side : BookSide) : Nat :=
  (OrderBookL3.restingOrders state.book.l3 side).length + 1

def crossableLevel (state : MatchState β) (side : BookSide) (limit : Int) : Option PriceLevelL3 :=
  (OrderBookL3.getBestLevel state.book.l3 side).filter fun level =>
    !beyondLimit side level.price limit

end MatchState

namespace Fifo

variable {β : Type} [OrderBookL3 β]

def matchLoop (env : Environment) (side : BookSide) (ref : Nat) (orderPrice : Int)
    (requestTime : Nat) (smpMode : SelfMatchPreventionMode) :
    Nat → MatchContext → Int → MatchState β → LoopResult β
  | 0, ctx, orderQty, state => ⟨false, orderQty, ctx, state⟩
  | fuel + 1, ctx, orderQty, state =>
      if orderQty ≤ 0 then ⟨false, orderQty, ctx, state⟩
      else
        match state.crossableLevel side orderPrice with
        | none => ⟨false, orderQty, ctx, state⟩
        | some level =>
            match level.orders with
            | [] => ⟨false, orderQty, ctx, state⟩
            | bookOrder :: _ =>
                let resting := state.book.findOrder bookOrder.orderId
                if smpMode ≠ .none ∧
                    isSelfMatch (state.order ref) (resting.map state.book.heap) = true then
                  match state.handleSelfMatch env (resting.getD 0) requestTime ctx.eventTime
                      ctx.seqNum smpMode with
                  | (false, state) => ⟨true, orderQty, ctx, state⟩
                  | (true, state) =>
                      matchLoop env side ref orderPrice requestTime smpMode fuel ctx orderQty state
                else
                  let tradeQty := min orderQty bookOrder.quantity
                  let orderQty := orderQty - tradeQty
                  match state.fillResting env ctx side ref bookOrder.orderId resting level.price
                      tradeQty orderQty with
                  | (false, ctx, state) => ⟨false, orderQty, ctx, state⟩
                  | (true, ctx, state) =>
                      matchLoop env side ref orderPrice requestTime smpMode fuel ctx orderQty state

def feedLoop (env : Environment) (side : BookSide) (aggressorId : Nat) (price : Int) :
    Nat → MatchContext → Int → MatchState β → LoopResult β
  | 0, ctx, qty, state => ⟨false, qty, ctx, state⟩
  | fuel + 1, ctx, qty, state =>
      if qty ≤ 0 then ⟨false, qty, ctx, state⟩
      else
        match state.crossableLevel side price with
        | none => ⟨false, qty, ctx, state⟩
        | some level =>
            match level.orders with
            | [] => ⟨false, qty, ctx, state⟩
            | bookOrder :: _ =>
                match state.fillRestingFromFeed env ctx side aggressorId bookOrder.orderId level.price
                    (min qty bookOrder.quantity) qty with
                | (false, qty, ctx, state) => ⟨false, qty, ctx, state⟩
                | (true, qty, ctx, state) => feedLoop env side aggressorId price fuel ctx qty state

end Fifo

end SlickSim
