import SlickSim.Engine.ProRata

/-!
# Matching

The two `match` overloads of `MatchingEngine` for the engine a symbol was
assigned: one for a client order, new or amended, and one for an aggressor
replayed from the feed.
-/

set_option autoImplicit false

namespace SlickSim

inductive MatchingEngine where
  | fifo
  | proRata (config : ProRataConfig)
deriving DecidableEq

namespace MatchingEngine

/-- How far into a level the engine reaches. -/
def reach : MatchingEngine → Reach
  | .fifo => .queue
  | .proRata _ => .level

/-- The resting side an aggressor sweeps. -/
def sweptSide (side : Side) : BookSide :=
  if side = .buy then .sell else .buy

variable {β : Type} [OrderBookL3 β]

def matchLoop (engine : MatchingEngine) (env : Environment) (side : BookSide) (ref : Nat)
    (orderPrice : Int) (requestTime : Nat) (smpMode : SelfMatchPreventionMode) (ctx : MatchContext)
    (orderQty : Int) (state : MatchState β) : LoopResult β :=
  match engine with
  | .fifo => Fifo.matchLoop env side ref orderPrice requestTime smpMode (state.sweepFuel side) ctx
      orderQty state
  | .proRata config => ProRata.matchLoop env config side ref orderPrice requestTime smpMode
      (state.sweepFuel side) ctx orderQty state

def feedLoop (engine : MatchingEngine) (env : Environment) (side : BookSide) (aggressorId : Nat)
    (price : Int) (ctx : MatchContext) (qty : Int) (state : MatchState β) : LoopResult β :=
  match engine with
  | .fifo => Fifo.feedLoop env side aggressorId price (state.sweepFuel side) ctx qty state
  | .proRata config =>
      ProRata.feedLoop env config side aggressorId price (state.sweepFuel side) ctx qty state

def matchOrder (engine : MatchingEngine) (env : Environment) (ref : Nat) (orderPrice orderQty : Int)
    (requestTime eventTime seqNum : Nat) (smpMode : SelfMatchPreventionMode) (state : MatchState β) :
    OrdRejectReason × List TradeSummaryInfo × MatchState β :=
  let side := sweptSide (state.order ref).side
  match state.prepareOrder env side engine.reach ref orderPrice orderQty requestTime smpMode with
  | (some done, state) => (done, [], state)
  | (none, state) =>
      let result := engine.matchLoop env side ref orderPrice requestTime smpMode
        (MatchContext.start eventTime seqNum) (state.order ref).leavesQuantity state
      if result.refused then (.smp, result.ctx.summaries, result.state)
      else
        (.none, result.ctx.summaries,
          result.state.cancelUnrestableRemainder env ref result.remaining requestTime)

def matchFeed (engine : MatchingEngine) (env : Environment) (side : Side) (orderId : Nat)
    (price qty : Int) (eventTime seqNum : Nat) (state : MatchState β) :
    Int × List TradeSummaryInfo × MatchState β :=
  let result := engine.feedLoop env (sweptSide side) orderId price
    (MatchContext.start eventTime seqNum) qty state
  (result.remaining, result.ctx.summaries, result.state)

end MatchingEngine

end SlickSim
