import SlickSim.Ledger.Amendments
import SlickSim.Ledger.Performed
import SlickSim.Properties.FillOrKill

/-!
# Cancelling the newest order

Under `CANCEL_NEWEST` an order is turned away before it matches, exactly when its match would
come to an order of its own. It is told so, and nothing else happens.
-/

set_option autoImplicit false

namespace SlickSim

open Sweeping
open OrderBookL3 (restingOrders)
open MatchingEngine (amendedQty)

namespace MatchingEngine

variable {β : Type} [OrderBookL3 β] {ref : Nat} {limit qty leaves : Int} {state : MatchState β}

/-- The matching loop of an order that comes in, as it would run without the check. -/
def uncheckedLoop (engine : MatchingEngine) (env : Environment) (ref : Nat) (limit qty leaves : Int)
    (requestTime eventTime : Nat) (state : MatchState β) : LoopResult β :=
  engine.matchLoop env (sweptSide (state.order ref).side) ref limit requestTime .cancelNewest (.start eventTime 0)
    leaves (state.present env ref limit qty requestTime)

/-- The check of `CANCEL_NEWEST` is exact: it turns an order away when the loop would come to one of its
own, and the loop itself never has to. -/
structure ChecksExactly (engine : MatchingEngine) (env : Environment) (ref : Nat) (limit qty leaves : Int)
    (requestTime eventTime : Nat) (state : MatchState β) : Prop where
  refused : (engine.matchOrder env ref limit qty requestTime eventTime 0 .cancelNewest state).1 = .smp ↔
    (engine.uncheckedLoop env ref limit qty leaves requestTime eventTime state).refused = true
  meets : (engine.uncheckedLoop env ref limit qty leaves requestTime eventTime state).refused = true ↔
    ∃ order, engine.MeetsOwn (state.book.ownOrders .cancelNewest (state.order ref))
      (sweptSide (state.order ref).side) limit (restingOrders state.book.l3 (sweptSide (state.order ref).side)) leaves
      order
  backstop : ∀ prepared, state.prepareOrder env (sweptSide (state.order ref).side) engine.reach ref limit qty
      requestTime .cancelNewest = (none, prepared) →
    (engine.matchLoop env (sweptSide (state.order ref).side) ref limit requestTime .cancelNewest (.start eventTime 0)
      (prepared.order ref).leavesQuantity prepared).refused = false

/-- Without the check, the loop stops where its plan withdraws an order. -/
private theorem uncheckedLoop_refused (engine : MatchingEngine) (env : Environment) (requestTime eventTime : Nat)
    (incoming : Incoming state ref limit qty leaves) :
    (engine.uncheckedLoop env ref limit qty leaves requestTime eventTime state).refused =
      (engine.orderPlan state ref limit leaves .cancelNewest).any Act.isWithdraw := by
  obtain ⟨hand, shown⟩ := incoming_presented env requestTime .cancelNewest incoming
  unfold uncheckedLoop
  rw [matchLoop_performs engine shown.held rfl shown.ready shown.mine shown.leaves.ge, ← orderPlan_present]
  by_cases more : 0 < leaves
  · have total : filledQty (engine.orderPlan state ref limit leaves .cancelNewest) = min leaves _ :=
      engine.filledQty_orderPlan incoming .cancelNewest more.le
    exact MatchState.perform_refused shown.held requestTime rfl shown.ready shown.mine
      (engine.orderPlan_performable shown) (by rw [shown.leaves]; omega)
  · have nothing : engine.orderPlan state ref limit leaves .cancelNewest = [] := sweep_of_nonpos (not_lt.mp more)
    rw [nothing]
    rfl

theorem incoming_checksExactly (engine : MatchingEngine) (env : Environment) (requestTime eventTime : Nat)
    (incoming : Incoming state ref limit qty leaves) :
    engine.ChecksExactly env ref limit qty leaves requestTime eventTime state := by
  obtain ⟨hand, ready⟩ := incoming_sweepable incoming
  have turnsAway := engine.matchOrder_smp env requestTime eventTime .cancelNewest incoming
  have refuses := refuses_iff engine .cancelNewest incoming
  rw [and_iff_right rfl] at refuses
  have loop := uncheckedLoop_refused engine env requestTime eventTime incoming
  refine ⟨by rw [turnsAway, refuses, loop], ?_, ?_⟩
  · rw [loop, List.any_eq_true]
    have positive : ∀ order ∈ restingOrders state.book.l3 (sweptSide (state.order ref).side), 0 < order.quantity :=
      fun order member => ready.inv.agrees.positive (MatchState.entry_of_mem member)
    constructor
    · rintro ⟨act, member, isWithdraw⟩
      cases act with
      | fill order qty => cases isWithdraw
      | withdraw order => exact ⟨order, (withdraw_mem_plan engine positive).mp member⟩
    · rintro ⟨order, meets⟩
      exact ⟨.withdraw order, (withdraw_mem_plan engine positive).mpr meets, rfl⟩
  · intro prepared prepares
    rw [← Bool.not_eq_true]
    intro refused
    have late : engine.Refuses state.book .cancelNewest (state.order ref) limit leaves := by
      refine turnsAway.mp ?_
      unfold matchOrder
      dsimp only
      rw [prepares]
      dsimp only
      rw [if_pos refused]
    rw [prepareOrder_refused engine env requestTime incoming late] at prepares
    cases prepares

end MatchingEngine

namespace Exchange

variable {β : Type} [OrderBookL3 β] {env : Environment} {config : SymbolConfig} {exchange : Exchange β}
  {header : RequestHeader}

private def newOrderMatch (exchange : Exchange β) (env : Environment) (config : SymbolConfig) (header : RequestHeader)
    (msg : AddOrderMessage) : OrdRejectReason × List TradeSummaryInfo × MatchState β :=
  let state := (exchange.acceptOrder env config header msg).matching
  let ref := env.pool exchange.book.live
  config.matchingEngine.matchOrder env ref msg.price msg.qty header.timeStamp (state.order ref).createdTime 0
    config.smpMode state

private def amendmentMatch (exchange : Exchange β) (env : Environment) (config : SymbolConfig) (header : RequestHeader)
    (msg : ModifyOrderMessage) (ref : Nat) : OrdRejectReason × List TradeSummaryInfo × MatchState β :=
  let state := (exchange.markReplace env header ref).matching
  config.matchingEngine.matchOrder env ref msg.newPrice msg.newQty header.timeStamp (state.order ref).lastUpdateTime 0
    config.smpMode state

/-- A new order that its match turns away is told so, and nothing else happens. -/
private theorem newOrder_turnedAway {msg : AddOrderMessage} (inv : exchange.ledger.Represents .none)
    (admitted : exchange.ledger.byOrder (env.uuid exchange.book.globals.uuidDraws) = none)
    (free : ¬ exchange.ClientIdTaken msg.clientOrderId) (listed : header.symbol = config.symbol)
    (refused : (exchange.newOrderMatch env config header msg).1 = .smp) :
    exchange.OnlyReported (exchange.handleNewOrderRequest env config header msg) (env.pool exchange.book.live)
      [(.new, .pendingNew, exchange.book.globals.nextOrderId), (.rejected, .rejected, 0)] := by
  let ref := env.pool exchange.book.live
  let accepted := (exchange.acceptOrder env config header msg).matching
  have isOrder : accepted.order ref = exchange.newOrder env config header msg := acceptOrder_order ..
  have incoming := @incoming_accepted β _ exchange env config inv header msg admitted free
  have matched := config.matchingEngine.matchOrder_refused env header.timeStamp (accepted.order ref).createdTime incoming
    ((config.matchingEngine.matchOrder_smp env _ _ _ incoming).mp refused)
  have price : (accepted.order ref).price = msg.price := by rw [isOrder]; rfl
  have quantity : (accepted.order ref).quantity = msg.qty := by rw [isOrder]; rfl
  rw [← price, ← quantity] at matched
  have added := MatchState.addOrder_eq matched
  rw [if_neg (by rintro ⟨⟨⟩, -⟩)] at added
  have handled := handleNewOrderRequest_matching listed free added
  rw [if_pos (by decide)] at handled
  let kept : OrderBook β :=
    { accepted.book with mdLevelUpdateCache := closeEvent accepted.book.mdLevelUpdateCache }.readClock
  have bookIs : (exchange.handleNewOrderRequest env config header msg).book = (kept.freeOrder ref).clearCaches :=
    congrArg MatchState.book handled
  refine onlyReported_new bookIs rfl rfl (congrArg MatchState.responses handled) ?_
  rw [handleNewOrderRequest_eq listed free]
  dsimp only
  rw [added]
  dsimp only
  rw [if_pos (by decide), flushMarketDataCaches_tradeHistory]
  exact @acceptOrder_tradeHistory β exchange env config header msg

/-- An amendment that its match turns away leaves its order with the terms, fills, rank and tag that it had.
It is told so, and nothing else happens. -/
private theorem amendment_turnedAway {msg : ModifyOrderMessage} {ref : Nat} (inv : exchange.ledger.Represents .none)
    (listed : header.symbol = config.symbol)
    (selected : selectOrder exchange.book msg.clientOrderId msg.orderId = some ref)
    (refused : (exchange.amendmentMatch env config header msg ref).1 = .smp) :
    exchange.OnlyReported (exchange.handleModifyOrderRequest env config header msg) ref
        [(.pendingReplace, .pendingReplace, (exchange.matching.order ref).id), (.rejected, .rejected, 0)] ∧
      ∃ lastUpdateTime, (exchange.handleModifyOrderRequest env config header msg).matching.order ref =
        { exchange.matching.order ref with status := .pendingReplace, lastUpdateTime } := by
  let marked := exchange.markReplace env header ref
  have incoming := @incoming_marked β _ exchange ref msg selected inv env header
  have sameQty : amendedQty (marked.matching.order ref) msg.newQty =
      amendedQty (exchange.matching.order ref) msg.newQty := by
    rw [markReplace_self]
    rfl
  have refuses := (config.matchingEngine.matchOrder_smp env header.timeStamp (marked.matching.order ref).lastUpdateTime
    config.smpMode incoming).mp refused
  rw [← sameQty, markReplace_refuses] at refuses
  obtain ⟨handled, printed⟩ := @handleModifyOrderRequest_turnedAway β _ exchange env config header ref msg listed
    selected inv refuses
  have isLedger := @handleModifyOrderRequest_refused β _ exchange env config header ref msg listed selected inv refuses
  obtain ⟨lastUpdateTime, heapIs⟩ := @refusedAmend_heap β _ exchange env header ref msg
  have heap := (congrArg Ledger.heap isLedger).trans heapIs
  refine ⟨⟨?_, ?_, ?_, ?_, ?_, ?_, ?_, printed, ?_⟩, ?_⟩
  · unfold book
    rw [handled]
    dsimp only [MatchState.onBook, MatchState.rejectModifyOrderRequest, MatchState.publishReject, MatchState.publish,
      MatchState.touchOrder, OrderBook.clearCaches, OrderBook.updateOrder, OrderBook.readClock]
    rfl
  · intro other _ different
    exact (congrFun heap other).trans (Function.update_of_ne different _ _)
  · exact congrArg Ledger.owner isLedger
  · exact congrArg Ledger.byClient isLedger
  · exact congrArg Ledger.byOrder isLedger
  · exact congrArg (fun ledger price => (ledger.totals price).getD 0) isLedger
  · exact congrArg Ledger.live isLedger
  · refine ⟨_, (congrArg Ledger.responses isLedger).trans (List.append_assoc ..), ?_⟩
    have sameId : ((exchange.markReplace env header ref).ledger.heap ref).id = (exchange.matching.order ref).id := by
      rw [show (exchange.markReplace env header ref).ledger.heap ref = _ from markReplace_self]
      rfl
    rw [← sameId]
    rfl
  · exact ⟨lastUpdateTime, (congrFun heap ref).trans (Function.update_self ..)⟩

/-- Under `CANCEL_NEWEST` a new order or an amendment is turned away exactly when its match would come to an
order of its own. It is then told so, and nothing else happens. -/
theorem cancelNewest_exact (inv : exchange.ledger.Represents .none) (newest : config.smpMode = .cancelNewest)
    (listed : header.symbol = config.symbol) :
    (∀ msg : AddOrderMessage, exchange.ledger.byOrder (env.uuid exchange.book.globals.uuidDraws) = none →
      ¬ exchange.ClientIdTaken msg.clientOrderId →
      let accepted := (exchange.acceptOrder env config header msg).matching
      let ref := env.pool exchange.book.live
      config.matchingEngine.ChecksExactly env ref msg.price msg.qty msg.qty header.timeStamp
        (accepted.order ref).createdTime accepted ∧
      ((config.matchingEngine.uncheckedLoop env ref msg.price msg.qty msg.qty header.timeStamp
          (accepted.order ref).createdTime accepted).refused = true →
        exchange.OnlyReported (exchange.handleNewOrderRequest env config header msg) ref
          [(.new, .pendingNew, exchange.book.globals.nextOrderId), (.rejected, .rejected, 0)])) ∧
    ∀ (msg : ModifyOrderMessage) (ref : Nat),
      selectOrder exchange.book msg.clientOrderId msg.orderId = some ref →
      let marked := (exchange.markReplace env header ref).matching
      config.matchingEngine.ChecksExactly env ref msg.newPrice msg.newQty
        (amendedQty (exchange.matching.order ref) msg.newQty) header.timeStamp (marked.order ref).lastUpdateTime marked ∧
      ((config.matchingEngine.uncheckedLoop env ref msg.newPrice msg.newQty
          (amendedQty (exchange.matching.order ref) msg.newQty) header.timeStamp (marked.order ref).lastUpdateTime
          marked).refused = true →
        exchange.OnlyReported (exchange.handleModifyOrderRequest env config header msg) ref
            [(.pendingReplace, .pendingReplace, (exchange.matching.order ref).id), (.rejected, .rejected, 0)] ∧
          ∃ lastUpdateTime, (exchange.handleModifyOrderRequest env config header msg).matching.order ref =
            { exchange.matching.order ref with status := .pendingReplace, lastUpdateTime }) := by
  refine ⟨fun msg admitted free => ?_, fun msg ref selected => ?_⟩
  · have exact := config.matchingEngine.incoming_checksExactly env header.timeStamp
      (((exchange.acceptOrder env config header msg).matching.order (env.pool exchange.book.live)).createdTime)
      (@incoming_accepted β _ exchange env config inv header msg admitted free)
    refine ⟨exact, fun refused => newOrder_turnedAway inv admitted free listed ?_⟩
    unfold newOrderMatch
    rw [newest]
    exact exact.refused.mpr refused
  · have exact := config.matchingEngine.incoming_checksExactly env header.timeStamp
      (((exchange.markReplace env header ref).matching.order ref).lastUpdateTime)
      (@incoming_marked β _ exchange ref msg selected inv env header)
    refine ⟨exact, fun refused => amendment_turnedAway inv listed selected ?_⟩
    unfold amendmentMatch
    rw [newest]
    exact exact.refused.mpr refused

/-- A user with an offer of its own behind another's, and a bid below both: an order for more than the first
offer is turned away, and so is an amendment of the bid to as much. -/
theorem cancelNewest_exact_behind :
    let env : Environment := .counted fun _ => default
    let config : SymbolConfig := .reference .cancelNewest
    let user := Environment.countedName 9
    let limit (draw : Nat) (userId : Name) (side : Side) (price qty : Int) : Input := .newOrder Input.header
      { userId, clientOrderId := Environment.countedName draw, side, type := .limit
        timeInForce := .goodTillCancel, price, qty }
    let exchange := (Exchange.new (fun _ => default) true : Exchange ReferenceBook).run env config
      [limit 1 default .sell 100 4, limit 2 user .sell 101 2, limit 4 user .buy 99 5]
    let msg : AddOrderMessage := { buyMessage .goodTillCancel 101 5 with userId := user }
    let amendment : ModifyOrderMessage :=
      { userId := user, orderId := default, clientOrderId := Environment.countedName 4, newPrice := 101, newQty := 5 }
    let ref := env.pool exchange.book.live
    let bid := (exchange.book.findOrderByClientOrderId (Environment.countedName 4)).getD 0
    exchange.OnlyReported (exchange.handleNewOrderRequest env config Input.header msg) ref
        [(.new, .pendingNew, exchange.book.globals.nextOrderId), (.rejected, .rejected, 0)] ∧
      exchange.OnlyReported (exchange.handleModifyOrderRequest env config Input.header amendment) bid
        [(.pendingReplace, .pendingReplace, (exchange.matching.order bid).id), (.rejected, .rejected, 0)] := by
  intro env config user limit exchange msg amendment ref bid
  have start : Reachable env config (fun _ _ => True) (Exchange.new (fun _ => default) true :
      Exchange ReferenceBook) := .new _ _
  have reachable : Reachable env config (fun _ _ => True) exchange := start.run (by decide +kernel)
  have exact := @cancelNewest_exact _ _ env config exchange Input.header reachable.represents.1 rfl rfl
  refine ⟨(exact.1 msg (by decide +kernel) (by decide +kernel)).2 (by decide +kernel), ?_⟩
  exact ((exact.2 amendment bid (by decide +kernel)).2 (by decide +kernel)).1

end Exchange

end SlickSim
