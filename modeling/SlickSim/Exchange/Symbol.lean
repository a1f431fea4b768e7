import SlickSim.Engine.Matching

/-!
# Symbols

`Symbol::addOrder`, `modifyOrder` and `cancelOrder`: an order is matched, what
is left of it goes to the book, and what did not rest goes back to the pool.
-/

set_option autoImplicit false

namespace SlickSim

structure SymbolConfig where
  symbol : SymbolName
  matchingEngine : MatchingEngine
  smpMode : SelfMatchPreventionMode
deriving DecidableEq

/-- Sets `F_END_EVENT` on the last cached level update. -/
def closeEvent : List MDLevel → List MDLevel
  | [] => []
  | [last] => [{ last with flags := { last.flags with endEvent := true } }]
  | first :: rest => first :: closeEvent rest

namespace MatchState

variable {β : Type} [OrderBookL3 β]

def addOrder (state : MatchState β) (env : Environment) (config : SymbolConfig)
    (ref requestTime : Nat) : OrdRejectReason × List TradeSummaryInfo × MatchState β :=
  let order := state.order ref
  let (rejectReason, summaries, state) := config.matchingEngine.matchOrder env ref order.price
    order.quantity requestTime order.createdTime 0 config.smpMode state
  let order := state.order ref
  if rejectReason = .none ∧ 0 < order.leavesQuantity ∧ order.restsRemainder = true then
    (rejectReason, summaries, state.onBook fun book => book.addOrder ref order.createdTime 0 true)
  else
    (rejectReason, summaries, state.onBook fun book =>
      { book with mdLevelUpdateCache := closeEvent book.mdLevelUpdateCache }.freeOrder ref)

def touchOrder (state : MatchState β) (env : Environment) (ref : Nat) : MatchState β :=
  let now := state.book.currentTime env
  state.onBook fun book =>
    book.readClock.updateOrder ref fun order => { order with lastUpdateTime := now }

def modifyOrder (state : MatchState β) (env : Environment) (config : SymbolConfig) (ref : Nat)
    (newPrice newQty : Int) (requestTime : Nat) :
    OrdRejectReason × List TradeSummaryInfo × MatchState β :=
  let order := state.order ref
  -- Read before the match writes the amendment onto the order.
  let requeue := decide (newPrice ≠ order.price) || decide (newQty > order.quantity)
  let (rejectReason, summaries, state) := config.matchingEngine.matchOrder env ref newPrice newQty
    requestTime order.lastUpdateTime 0 config.smpMode state
  let state := state.touchOrder env ref
  let state :=
    if rejectReason = .none then
      let state :=
        if requeue then
          state.onBook fun book =>
            let book := book.nextOrderPriority
            (book.updateOrder ref fun order =>
              { order with priority := book.globals.nextPriority }).noteJoin (book.heap ref).id
        else state
      let order := state.order ref
      state.onBook fun book =>
        book.modifyOrder ref newPrice order.quantity order.lastUpdateTime 0 true
    else state
  if (state.order ref).leavesQuantity = 0 then
    (rejectReason, summaries, state.onBook fun book => book.freeOrder ref)
  else (rejectReason, summaries, state)

def cancelOrder (state : MatchState β) (env : Environment) (ref requestTime : Nat) : MatchState β :=
  let state := state.touchOrder env ref
  let order := state.order ref
  let state := state.onBook fun book => book.deleteOrder ref order.lastUpdateTime 0 true
  let state := state.publishOrderCancel env ref requestTime
  state.onBook fun book => book.freeOrder ref

end MatchState

end SlickSim
