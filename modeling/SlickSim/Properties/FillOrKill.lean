import SlickSim.Ledger.Performed
import SlickSim.Properties.NewOrderOutcome

/-!
# Fill or kill

A fill-or-kill order that self-match prevention does not turn away is filled whole or leaves
no mark. It is filled exactly when it would be as an order that is immediate or cancelled.
-/

set_option autoImplicit false

namespace SlickSim

open Sweeping
open OrderBookL3 (restingOrders)

namespace MatchingEngine

variable {β : Type} [OrderBookL3 β] {ref : Nat} {limit qty : Int} {smpMode : SelfMatchPreventionMode}
  {state : MatchState β}

private theorem fifoPlan_clear (engine : MatchingEngine) (incoming : Incoming state ref limit qty qty)
    (clear : (engine.orderPlan state ref limit qty smpMode).any Act.isWithdraw = false) :
    (MatchingEngine.fifo.orderPlan state ref limit qty smpMode).any Act.isWithdraw = false := by
  obtain ⟨hand, ready⟩ := incoming_sweepable incoming
  have positive : ∀ order ∈ restingOrders state.book.l3 (sweptSide (state.order ref).side), 0 < order.quantity :=
    fun order member => ready.inv.agrees.positive (MatchState.entry_of_mem member)
  rw [List.any_eq_false] at clear ⊢
  intro act member isWithdraw
  cases act with
  | fill order qty => cases isWithdraw
  | withdraw order =>
      have meets := ((withdraw_mem_plan .fifo positive).mp member).of_fifo engine positive
      exact clear _ ((withdraw_mem_plan engine positive).mpr meets) rfl

/-- The check of a fill-or-kill order answers what its match would fill. -/
theorem cannotFill_iff (engine : MatchingEngine) (incoming : Incoming state ref limit qty qty) (more : 0 < qty)
    (clear : smpMode = .cancelNewest → (engine.orderPlan state ref limit qty smpMode).any Act.isWithdraw = false) :
    CannotFill state.book smpMode (state.order ref) limit qty ↔
      (state.order ref).timeInForce = .fillOrKill ∧ filledQty (engine.orderPlan state ref limit qty smpMode) < qty := by
  obtain ⟨hand, ready⟩ := incoming_sweepable incoming
  have checks : state.book.canFillCompletely (sweptSide (state.order ref).side) (state.order ref) limit qty smpMode =
      (!(decide (smpMode = .cancelNewest) &&
        (MatchingEngine.fifo.orderPlan state ref limit qty smpMode).any Act.isWithdraw) &&
        decide (qty ≤ filledQty (MatchingEngine.fifo.orderPlan state ref limit qty smpMode))) := by
    refine OrderBook.canFillCompletely_plan more
      (fun order member => ready.inv.agrees.positive (MatchState.entry_of_mem member)) fun order member => ?_
    simp [OrderBook.ownOrders]
  have unmet : (decide (smpMode = .cancelNewest) &&
      (MatchingEngine.fifo.orderPlan state ref limit qty smpMode).any Act.isWithdraw) = false := by
    by_cases newest : smpMode = .cancelNewest
    · rw [fifoPlan_clear engine incoming (clear newest), Bool.and_false]
    · rw [decide_eq_false newest, Bool.false_and]
  unfold CannotFill
  rw [checks, unmet, engine.filledQty_orderPlan incoming smpMode more.le,
    MatchingEngine.fifo.filledQty_orderPlan incoming smpMode more.le, Bool.not_false, Bool.true_and,
    decide_eq_false_iff_not, not_le]

private theorem matchOrder_leaves (engine : MatchingEngine) (env : Environment) (requestTime eventTime : Nat)
    (incoming : Incoming state ref limit qty qty) (more : 0 < qty)
    (clear : smpMode = .cancelNewest → (engine.orderPlan state ref limit qty smpMode).any Act.isWithdraw = false)
    (fillable : ¬ CannotFill state.book smpMode (state.order ref) limit qty) :
    ∃ summaries matched,
      engine.matchOrder env ref limit qty requestTime eventTime 0 smpMode state = (.none, summaries, matched) ∧
      (matched.order ref).leavesQuantity = qty - filledQty (engine.orderPlan state ref limit qty smpMode) ∧
      (matched.order ref).timeInForce = (state.order ref).timeInForce := by
  obtain ⟨_, ctx, after, shown, matched, left, -, run⟩ := engine.matchOrder_performs env requestTime eventTime incoming
    clear fillable more
  have book := after.cancelUnrestableRemainder_book env ref
    (qty - filledQty (engine.orderPlan state ref limit qty smpMode)) requestTime
  have sameOrder := congrArg (fun book => book.heap ref) book
  refine ⟨ctx.summaries, _, matched, (congrArg Order.leavesQuantity sameOrder).trans left, ?_⟩
  refine (congrArg Order.timeInForce sameOrder).trans ?_
  refine ((run.sweeps.takenFrom shown.ready.inv).terms ref).timeInForce.trans ?_
  exact MatchState.present_timeInForce

end MatchingEngine

namespace Exchange

variable {β : Type} [OrderBookL3 β] {env : Environment} {config : SymbolConfig} {exchange : Exchange β}
  {header : RequestHeader} {msg : AddOrderMessage}

/-- A new-order request leaves nothing to fill in the slot that it took. -/
def FillsWhole (exchange : Exchange β) (env : Environment) (config : SymbolConfig) (header : RequestHeader)
    (msg : AddOrderMessage) : Prop :=
  ((exchange.handleNewOrderRequest env config header msg).matching.order
    (env.pool exchange.book.live)).leavesQuantity = 0

instance (msg : AddOrderMessage) : Decidable (exchange.FillsWhole env config header msg) :=
  inferInstanceAs (Decidable (_ = _))

/-- A new order was acknowledged and cancelled, and nothing else came of it. -/
def OnlyKilled (before after : Exchange β) (ref : Nat) : Prop :=
  before.OnlyReported after ref
    [(.new, .pendingNew, before.book.globals.nextOrderId), (.new, .new, before.book.globals.nextOrderId),
      (.canceled, .canceled, before.book.globals.nextOrderId)]

section Request

variable (inv : exchange.ledger.Represents .none)
  (admitted : exchange.ledger.byOrder (env.uuid exchange.book.globals.uuidDraws) = none)
  (free : ¬ exchange.ClientIdTaken msg.clientOrderId)

private def newOrderPlan (exchange : Exchange β) (env : Environment) (config : SymbolConfig) (header : RequestHeader)
    (msg : AddOrderMessage) : List (Act BookOrder) :=
  config.matchingEngine.orderPlan (exchange.acceptOrder env config header msg).matching (env.pool exchange.book.live)
    msg.price msg.qty config.smpMode

include inv admitted free in
private theorem newOrder_killed (listed : header.symbol = config.symbol)
    (clear : config.smpMode = .cancelNewest → (exchange.newOrderPlan env config header msg).any Act.isWithdraw = false)
    (cannot : MatchingEngine.CannotFill (exchange.acceptOrder env config header msg).book config.smpMode
      (exchange.newOrder env config header msg) msg.price msg.qty) :
    exchange.OnlyKilled (exchange.handleNewOrderRequest env config header msg) (env.pool exchange.book.live) ∧
      ((exchange.handleNewOrderRequest env config header msg).matching.order
        (env.pool exchange.book.live)).leavesQuantity = msg.qty := by
  let ref := env.pool exchange.book.live
  let accepted := (exchange.acceptOrder env config header msg).matching
  have isOrder : accepted.order ref = exchange.newOrder env config header msg := acceptOrder_order ..
  have acked : accepted.present env ref msg.price msg.qty header.timeStamp =
      accepted.publishOrderAck env ref header.timeStamp := if_pos (by rw [isOrder]; rfl)
  have matched := config.matchingEngine.matchOrder_killed env header.timeStamp (accepted.order ref).createdTime
    (incoming_accepted inv admitted free) clear (by rw [acceptOrder_order]; exact cannot)
  rw [acked] at matched
  have price : (accepted.order ref).price = msg.price := by rw [isOrder]; rfl
  have quantity : (accepted.order ref).quantity = msg.qty := by rw [isOrder]; rfl
  rw [← price, ← quantity] at matched
  have added := MatchState.addOrder_eq matched
  rw [if_neg (by rintro ⟨⟨⟩, -⟩)] at added
  have handled := handleNewOrderRequest_matching listed free added
  rw [if_neg fun refused => refused.2 rfl] at handled
  have printed : (exchange.handleNewOrderRequest env config header msg).tradeHistory = exchange.tradeHistory := by
    rw [handleNewOrderRequest_eq listed free]
    dsimp only
    rw [added]
    dsimp only
    rw [if_neg fun refused => refused.2 rfl, flushMarketDataCaches_tradeHistory]
    exact @acceptOrder_tradeHistory β exchange env config header msg
  have num : (accepted.order ref).id = exchange.book.globals.nextOrderId := by
    rw [isOrder]
    exact exchange.newOrder_id env config header msg
  let ack := (env.slot accepted.responses.length).writeAck (accepted.order ref) header.timeStamp
  let cancel := (env.slot (accepted.responses ++ [ack]).length).writeCancel (accepted.order ref) header.timeStamp
  have responses : (exchange.handleNewOrderRequest env config header msg).matching.responses =
      accepted.responses ++ [ack, cancel] :=
    (congrArg MatchState.responses handled).trans (List.append_assoc accepted.responses [ack] [cancel])
  have only := onlyReported_new (congrArg MatchState.book handled) rfl rfl responses printed
  refine ⟨?_, ?_⟩
  · unfold OnlyKilled
    rw [← num] at only ⊢
    exact only
  · rw [handled]
    show (accepted.order ref).leavesQuantity = _
    rw [isOrder]
    rfl

include inv admitted free in
private theorem newOrder_leaves (listed : header.symbol = config.symbol) (more : 0 < msg.qty)
    (clear : config.smpMode = .cancelNewest → (exchange.newOrderPlan env config header msg).any Act.isWithdraw = false)
    (unrestable : msg.timeInForce = .immediateOrCancel ∨ msg.timeInForce = .fillOrKill)
    (fillable : ¬ MatchingEngine.CannotFill (exchange.acceptOrder env config header msg).book config.smpMode
      (exchange.newOrder env config header msg) msg.price msg.qty) :
    exchange.FillsWhole env config header msg ↔ filledQty (exchange.newOrderPlan env config header msg) = msg.qty := by
  let ref := env.pool exchange.book.live
  let accepted := (exchange.acceptOrder env config header msg).matching
  have isOrder : accepted.order ref = exchange.newOrder env config header msg := acceptOrder_order ..
  obtain ⟨summaries, between, matched, left, timeInForce⟩ := config.matchingEngine.matchOrder_leaves env header.timeStamp
    (accepted.order ref).createdTime (incoming_accepted inv admitted free) more clear
    (by rw [acceptOrder_order]; exact fillable)
  have price : (accepted.order ref).price = msg.price := by rw [isOrder]; rfl
  have quantity : (accepted.order ref).quantity = msg.qty := by rw [isOrder]; rfl
  have asked : (accepted.order ref).timeInForce = msg.timeInForce := by rw [isOrder]; rfl
  have drops : (between.order ref).restsRemainder = false := by
    unfold Order.restsRemainder
    rw [timeInForce.trans asked]
    rcases unrestable with same | same <;> rw [same] <;> exact Bool.and_false _
  rw [← price, ← quantity] at matched
  have added := MatchState.addOrder_eq matched
  rw [if_neg fun rests => Bool.false_ne_true (drops.symm.trans rests.2.2)] at added
  have handled := handleNewOrderRequest_matching listed free added
  rw [if_neg fun refused => refused.1 rfl] at handled
  unfold FillsWhole
  rw [handled]
  show (between.order ref).leavesQuantity = 0 ↔ _
  rw [left]
  unfold newOrderPlan
  omega

include inv in
private theorem newOrderPlan_timeInForce (timeInForce : TimeInForce) :
    exchange.newOrderPlan env config header { msg with timeInForce } =
      exchange.newOrderPlan env config header msg := by
  have planIs : ∀ msg : AddOrderMessage, exchange.newOrderPlan env config header msg =
      config.matchingEngine.plan (MatchingEngine.sweptSide msg.side) msg.price
        (fun id => decide (config.smpMode ≠ .none) &&
          isSelfMatch (exchange.newOrder env config header msg) (exchange.book.resolve id))
        (restingOrders exchange.book.l3 (MatchingEngine.sweptSide msg.side)) msg.qty := by
    intro msg
    unfold newOrderPlan MatchingEngine.orderPlan
    rw [acceptOrder_order, show (exchange.acceptOrder env config header msg).matching.book.l3 = exchange.book.l3 from
      acceptOrder_l3 header msg]
    congr 1
    funext id
    exact congrArg (fun resting => _ && isSelfMatch _ resting) (acceptOrder_resolve inv id)
  rw [planIs, planIs]
  rfl

include inv admitted free in
/-- A new fill-or-kill order that is not turned away is filled whole, or is killed and nothing else comes
of it. It is filled exactly when it would be if it were immediate or cancelled. -/
theorem fillOrKill_allOrNothing (listed : header.symbol = config.symbol) (more : 0 < msg.qty)
    (fillOrKill : msg.timeInForce = .fillOrKill)
    (passes : ¬ config.matchingEngine.Refuses (exchange.acceptOrder env config header msg).book config.smpMode
      (exchange.newOrder env config header msg) msg.price msg.qty) :
    (exchange.FillsWhole env config header msg ∨
      exchange.OnlyKilled (exchange.handleNewOrderRequest env config header msg) (env.pool exchange.book.live)) ∧
    (exchange.FillsWhole env config header msg ↔
      exchange.FillsWhole env config header { msg with timeInForce := .immediateOrCancel }) := by
  have isOrder := @acceptOrder_order β _ exchange env config header msg
  have incoming := @incoming_accepted β _ exchange env config inv header msg admitted free
  have clear : config.smpMode = .cancelNewest →
      (exchange.newOrderPlan env config header msg).any Act.isWithdraw = false := by
    intro newest
    rw [← Bool.not_eq_true]
    intro met
    refine passes ?_
    rw [← isOrder]
    exact (MatchingEngine.refuses_iff config.matchingEngine config.smpMode incoming).mpr ⟨newest, met⟩
  have covers := config.matchingEngine.cannotFill_iff incoming more clear
  rw [isOrder] at covers
  have immediate : exchange.FillsWhole env config header { msg with timeInForce := .immediateOrCancel } ↔
      filledQty (exchange.newOrderPlan env config header msg) = msg.qty := by
    have samePlan := @newOrderPlan_timeInForce β _ env config exchange header msg inv .immediateOrCancel
    rw [← samePlan]
    exact @newOrder_leaves β _ env config exchange header { msg with timeInForce := .immediateOrCancel } inv admitted
      free listed more (by rw [samePlan]; exact clear) (.inl rfl) (by rintro ⟨⟨⟩, -⟩)
  rw [immediate]
  by_cases cannot : MatchingEngine.CannotFill (exchange.acceptOrder env config header msg).book config.smpMode
    (exchange.newOrder env config header msg) msg.price msg.qty
  · obtain ⟨killed, left⟩ := newOrder_killed inv admitted free listed clear cannot
    have less : filledQty (exchange.newOrderPlan env config header msg) < msg.qty := (covers.mp cannot).2
    refine ⟨.inr killed, iff_of_false ?_ less.ne⟩
    unfold FillsWhole
    omega
  · rw [newOrder_leaves inv admitted free listed more clear (.inr fillOrKill) cannot]
    have atLeast : ¬ filledQty (exchange.newOrderPlan env config header msg) < msg.qty :=
      fun less => cannot (covers.mpr ⟨fillOrKill, less⟩)
    have total : filledQty (exchange.newOrderPlan env config header msg) = min msg.qty _ :=
      config.matchingEngine.filledQty_orderPlan incoming config.smpMode more.le
    have whole : filledQty (exchange.newOrderPlan env config header msg) = msg.qty := by omega
    exact ⟨.inl whole, Iff.rfl⟩

end Request

/-- A fill-or-kill order of a user with an offer of its own in front, for all that others offer and for one more. -/
theorem fillOrKill_allOrNothing_own :
    let env : Environment := .counted fun _ => default
    let config : SymbolConfig := .reference .cancelResting
    let user := Environment.countedName 9
    let offer (draw : Nat) (userId : Name) (price qty : Int) : Input := .newOrder Input.header
      { userId, clientOrderId := Environment.countedName draw, side := .sell, type := .limit
        timeInForce := .goodTillCancel, price, qty }
    let exchange := (Exchange.new (fun _ => default) true : Exchange ReferenceBook).run env config
      [offer 1 user 100 2, offer 2 default 101 4]
    let msg (qty : Int) : AddOrderMessage := { buyMessage .fillOrKill 101 qty with userId := user }
    exchange.FillsWhole env config Input.header (msg 4) ∧
      exchange.FillsWhole env config Input.header { msg 4 with timeInForce := .immediateOrCancel } ∧
      exchange.OnlyKilled (exchange.handleNewOrderRequest env config Input.header (msg 5))
        (env.pool exchange.book.live) := by
  intro env config user offer exchange msg
  have start : Reachable env config (fun _ _ => True) (Exchange.new (fun _ => default) true :
      Exchange ReferenceBook) := .new _ _
  have reachable : Reachable env config (fun _ _ => True) exchange := start.run (by decide +kernel)
  have inv := reachable.represents.1
  have filled : exchange.FillsWhole env config Input.header (msg 4) := by decide +kernel
  have covered := @fillOrKill_allOrNothing _ _ env config exchange Input.header (msg 4) inv (by decide +kernel)
    (by decide +kernel) rfl (by decide) rfl (by rintro ⟨⟨⟩, -⟩)
  have tooMuch := @fillOrKill_allOrNothing _ _ env config exchange Input.header (msg 5) inv (by decide +kernel)
    (by decide +kernel) rfl (by decide) rfl (by rintro ⟨⟨⟩, -⟩)
  exact ⟨filled, covered.2.mp filled, tooMuch.1.resolve_left (by decide +kernel)⟩

end Exchange

end SlickSim
