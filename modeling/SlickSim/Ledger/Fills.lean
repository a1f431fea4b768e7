import SlickSim.Engine.Matching
import SlickSim.Ledger.Frame
import SlickSim.Ledger.Operations

/-!
# Fills and self-match cancels are sweeps

What the shared building blocks of the engines do to the ledger and to the
queue they take from.
-/

set_option autoImplicit false

namespace SlickSim

open KeyedList
open OrderBookL3 (Regresses afterExecution restingOrders)

def takeFromQueue (resting : BookOrder) (qty : Int) (orders : List BookOrder) : List BookOrder :=
  if qty = resting.quantity then eraseKey BookOrder.orderId resting.orderId orders
  else setKey BookOrder.orderId resting.orderId
    (fun _ => { resting with quantity := resting.quantity - qty }) orders

/-- Nothing but what rests under one id, and the order of ours behind it, changes. -/
structure Ledger.ChangesOnly (id : Nat) (before after : Ledger) : Prop where
  entry : ∀ other, other ≠ id → after.entry other = before.entry other
  heap : ∀ ref, before.owner id ≠ some ref → after.heap ref = before.heap ref

namespace Ledger.ChangesOnly

variable {ledger : Ledger} {env : Environment} {ref timestamp : Nat} {resting : BookOrder}

theorem setPhantom {id : Nat} {next : Option BookOrder}
    (keyed : ∀ order, ledger.entry id = some order → order.orderId = id)
    (keyedNext : ∀ order, next = some order → order.orderId = id)
    (phantom : ledger.owner id = none) :
    ledger.ChangesOnly id (ledger.setEntry id next timestamp) := by
  rw [setEntry_phantom keyed keyedNext phantom]
  exact ⟨fun _ different => Function.update_of_ne different .., fun _ _ => rfl⟩

theorem changeOwn {id : Nat} {next : Option BookOrder} {order : Order} {after : Ledger}
    (ours : ledger.owner id = some ref)
    (entries : after.entry = Function.update ledger.entry id next)
    (heaps : after.heap = Function.update ledger.heap ref order) :
    ledger.ChangesOnly id after := by
  constructor
  · intro other different
    rw [entries, Function.update_of_ne different]
  · intro other apart
    rw [heaps, Function.update_of_ne]
    rintro rfl
    exact apart ours

theorem fillPartly {qty : Int} (ours : ledger.owner resting.orderId = some ref) :
    ledger.ChangesOnly resting.orderId (ledger.fillPartly env ref resting qty timestamp) :=
  changeOwn ours rfl rfl

theorem fillFully (ours : ledger.owner resting.orderId = some ref) :
    ledger.ChangesOnly resting.orderId (ledger.fillFully env ref resting timestamp) :=
  changeOwn ours rfl rfl

theorem cancelOrder {requestTime : Nat} (ours : ledger.owner (ledger.heap ref).id = some ref) :
    ledger.ChangesOnly (ledger.heap ref).id (ledger.cancelOrder env ref timestamp requestTime) :=
  changeOwn ours rfl rfl

end Ledger.ChangesOnly

/-- One order of the swept side gave up a quantity, by a fill or a cancellation. -/
structure MatchState.Takes {β : Type} [OrderBookL3 β] (env : Environment) (hand : Hand)
    (side : BookSide) (seqNum : Nat) (resting : BookOrder) (qty : Int) (before after : MatchState β) :
    Prop where
  sweeps : Sweeps env hand side before.ledger after.ledger
  current : ¬ Regresses after.book.l3 seqNum
  queue : restingOrders after.book.l3 side =
    takeFromQueue resting qty (restingOrders before.book.l3 side)
  entry : ∀ other, other ≠ resting.orderId → after.ledger.entry other = before.ledger.entry other

namespace OrderBook

variable {β : Type} [OrderBookL3 β] {book : OrderBook β} {seqNum : Nat} {resting : BookOrder}

theorem executeOrder_l3 (id : Nat) (qty : Int) (timestamp : Nat) (isLast : Bool)
    (current : ¬ Regresses book.l3 seqNum) :
    (book.executeOrder id qty timestamp seqNum isLast).2.l3 =
      (OrderBookL3.executeOrder book.l3 id qty timestamp seqNum isLast).book := by
  unfold executeOrder
  rw [show (if 0 < seqNum ∧ seqNum < OrderBookL3.lastSeqNum book.l3 then _ else _) = _ from
    if_neg current]
  cases book.findOrder id with
  | none => exact absorb_l3 _ _
  | some ref =>
      dsimp only
      split <;> exact absorb_l3 _ _

theorem deleteOrder_l3 (ref timestamp : Nat) (isLast : Bool) :
    (book.deleteOrder ref timestamp seqNum isLast).l3 =
      (OrderBookL3.deleteOrder book.l3 (book.heap ref).id timestamp seqNum isLast).book := by
  unfold deleteOrder
  dsimp only
  split <;> exact absorb_l3 _ _

theorem executeOrder_queue {qty : Int} (timestamp : Nat) (isLast : Bool)
    (current : ¬ Regresses book.l3 seqNum) (rests : OrderBookL3.findOrder book.l3 resting.orderId =
      some resting) (positive : 0 < qty) (within : qty ≤ resting.quantity) :
    restingOrders (book.executeOrder resting.orderId qty timestamp seqNum isLast).2.l3 resting.side =
      takeFromQueue resting qty (restingOrders book.l3 resting.side) := by
  have member := OrderBookL3.mem_allOrders.mp (OrderBookL3.findOrder_eq_some.mp rests).1
  obtain ⟨-, -, -, effect⟩ := OrderBookL3.executeOrder_accepted book.l3 resting qty timestamp seqNum
    isLast current member positive within
  rw [executeOrder_l3 _ _ _ _ current, takeFromQueue]
  split at effect <;> rename_i full
  · rw [if_pos full]
    exact effect.1
  · rw [if_neg full]
    exact effect.1

end OrderBook

namespace MatchState

variable {β : Type} [OrderBookL3 β] {env : Environment} {hand : Hand} {side : BookSide}
  {state : MatchState β} {seqNum : Nat} {resting : BookOrder} {qty : Int}

@[simp] theorem publish_ledger (write : OrderResponse → OrderResponse) :
    (state.publish env write).ledger = state.ledger.publish env write := rfl

@[simp] theorem updateOrder_ledger (ref : Nat) (change : Order → Order) :
    (state.onBook fun book => book.updateOrder ref change).ledger =
      state.ledger.updateOrder ref change := rfl

@[simp] theorem freeOrder_ledger (ref : Nat) :
    (state.onBook fun book => book.freeOrder ref).ledger = state.ledger.freeOrder ref := rfl

omit [OrderBookL3 β] in
theorem reportRestingFill_l3 (resting : Option Nat) :
    (state.reportRestingFill env resting).book.l3 = state.book.l3 := by
  unfold reportRestingFill
  cases resting with
  | none => rfl
  | some ref =>
      dsimp only
      split
      · show (OrderBook.dropOrder _ ref).l3 = state.book.l3
        unfold OrderBook.dropOrder
        dsimp only
        split <;> rfl
      · rfl

theorem reportRestingFill_partly {ref : Nat} (left : (state.order ref).leavesQuantity ≠ 0) :
    (state.reportRestingFill env (some ref)).ledger =
      state.ledger.publish env fun slot => slot.writeExecution (state.ledger.heap ref) false := by
  unfold reportRestingFill
  dsimp only
  rw [if_neg (show ¬ ((state.publishOrderExecution env ref false).order ref).leavesQuantity = 0
    from left)]
  rfl

theorem reportRestingFill_fully {ref : Nat} (left : (state.order ref).leavesQuantity = 0)
    (unregistered : state.book.findOrder (state.order ref).id = none) :
    (state.reportRestingFill env (some ref)).ledger =
      (state.ledger.publish env fun slot =>
        slot.writeExecution (state.ledger.heap ref) false).freeOrder ref := by
  unfold reportRestingFill
  dsimp only
  rw [if_pos (show ((state.publishOrderExecution env ref false).order ref).leavesQuantity = 0
    from left)]
  have dropped : (state.publishOrderExecution env ref false).book.dropOrder ref =
      (state.publishOrderExecution env ref false).book.freeOrder ref := by
    unfold OrderBook.dropOrder
    rw [show (state.publishOrderExecution env ref false).book.findOrder
      ((state.publishOrderExecution env ref false).book.heap ref).id = none from unregistered]
  show OrderBook.ledger (OrderBook.dropOrder _ ref) _ = _
  rw [dropped]
  rfl

section Hit

variable (inv : state.ledger.Represents hand) (current : ¬ Regresses state.book.l3 seqNum)
  (rests : state.ledger.entry resting.orderId = some resting) (swept : resting.side = side)
  (apart : ∀ ref, state.ledger.owner resting.orderId = some ref → hand.resting ≠ some ref)
  (positive : 0 < qty) (within : qty ≤ resting.quantity) (timestamp : Nat) (isLast : Bool)

include inv current rests swept apart positive within

variable (env) in
/-- The book takes every fill within a resting order, and with the report of the
fill it is one effect of a sweep. -/
theorem executeOrder_sweep :
    ∃ book, state.book.executeOrder resting.orderId qty timestamp seqNum isLast = (true, book) ∧
      Sweep env hand side state.ledger
        ({ state with book }.reportRestingFill env (state.book.findOrder resting.orderId)).ledger ∧
      state.ledger.ChangesOnly resting.orderId
        ({ state with book }.reportRestingFill env (state.book.findOrder resting.orderId)).ledger ∧
      ¬ Regresses book.l3 seqNum := by
  cases executed : state.book.executeOrder resting.orderId qty timestamp seqNum isLast with
  | mk accepted book =>
  let after : MatchState β := { state with book }
  cases ours : state.ledger.owner resting.orderId with
  | none =>
      obtain ⟨taken, ledgerIs, still⟩ := OrderBook.executeOrder_phantom isLast timestamp current rests
        ours positive within
      rw [executed] at taken ledgerIs still
      obtain rfl : accepted = true := taken
      refine ⟨book, rfl, ?_⟩
      rw [show state.book.findOrder resting.orderId = none from ours]
      show Sweep env hand side state.ledger after.ledger ∧
        state.ledger.ChangesOnly resting.orderId after.ledger ∧ _
      rw [show after.ledger = _ from ledgerIs]
      refine ⟨.hitPhantom rests swept ours positive within, .setPhantom ?_ ?_ ours, still⟩
      · exact fun _ found => inv.indexed.entry_id found
      · intro order left
        rw [(Ledger.afterExecution_eq_some left).2]
  | some ref =>
      obtain ⟨isEntry, sameId, leavesPositive, whole⟩ := inv.resting_eq rests ours (apart ref ours)
      have leaves : (state.book.heap ref).leavesQuantity = resting.quantity := by
        rw [isEntry]
        rfl
      rw [show state.book.findOrder resting.orderId = some ref from ours]
      by_cases full : qty = resting.quantity
      · subst full
        have filled : 0 ≤ (state.ledger.heap ref).cumQuantity :=
          (inv.agrees.at_ ref).filled_nonneg (.inl (inv.indexed.registered ours))
        obtain ⟨taken, ledgerIs, still⟩ := OrderBook.executeOrder_fully isLast timestamp current rests
          ours positive leaves (show (state.ledger.heap ref).quantity ≠ 0 by omega)
        rw [executed] at taken ledgerIs still
        obtain rfl : accepted = true := taken
        refine ⟨book, rfl, ?_⟩
        have heapIs : after.order ref =
            (state.book.heap ref).execute (state.book.heap ref).price resting.quantity timestamp :=
          (congrArg (fun ledger => ledger.heap ref) ledgerIs).trans (Function.update_self ..)
        have left : (after.order ref).leavesQuantity = 0 := by
          rw [heapIs, Order.execute_leaves]
          omega
        have unregistered : after.book.findOrder (after.order ref).id = none := by
          have gone := congrArg (fun ledger => ledger.owner (after.order ref).id) ledgerIs
          refine gone.trans ?_
          have : after.order ref = _ := congrArg (fun ledger => ledger.heap ref) ledgerIs
          rw [this]
          exact Function.update_self ..
        have reported : (after.reportRestingFill env (some ref)).ledger = _ :=
          reportRestingFill_fully left unregistered
        rw [reported, show after.ledger = _ from ledgerIs]
        exact ⟨.hitFully rests swept ours (apart ref ours), .fillFully ours, still⟩
      · obtain ⟨taken, ledgerIs, still⟩ := OrderBook.executeOrder_partly isLast timestamp current
          rests ours positive (by omega) leaves
        rw [executed] at taken ledgerIs still
        obtain rfl : accepted = true := taken
        refine ⟨book, rfl, ?_⟩
        have heapIs : after.order ref =
            (state.book.heap ref).execute (state.book.heap ref).price qty timestamp :=
          (congrArg (fun ledger => ledger.heap ref) ledgerIs).trans (Function.update_self ..)
        have left : (after.order ref).leavesQuantity ≠ 0 := by
          rw [heapIs, Order.execute_leaves]
          omega
        have reported : (after.reportRestingFill env (some ref)).ledger = _ :=
          reportRestingFill_partly left
        rw [reported, show after.ledger = _ from ledgerIs]
        exact ⟨.hitPartly rests swept ours (apart ref ours) positive (by omega), .fillPartly ours,
          still⟩

end Hit

theorem cancelOrder_takes {ref requestTime timestamp : Nat} {isLast : Bool}
    (inv : state.ledger.Represents hand) (current : ¬ Regresses state.book.l3 seqNum)
    (rests : state.ledger.entry resting.orderId = some resting) (swept : resting.side = side)
    (ours : state.ledger.owner resting.orderId = some ref) (apart : hand.resting ≠ some ref)
    {after : MatchState β}
    (isAfter : after = ((state.onBook fun book => book.deleteOrder ref timestamp seqNum
      isLast).publishOrderCancel env ref requestTime).onBook fun book => book.freeOrder ref) :
    Takes env hand side seqNum resting resting.quantity state after ∧
      after.ledger = state.ledger.cancelOrder env ref timestamp requestTime := by
  obtain ⟨isEntry, sameId, leavesPositive, whole⟩ := inv.resting_eq rests ours apart
  have registered := inv.indexed.registered ours
  have filled : 0 ≤ (state.ledger.heap ref).cumQuantity :=
    (inv.agrees.at_ ref).filled_nonneg (.inl registered)
  obtain ⟨ledgerIs, still⟩ := OrderBook.deleteOrder_ledger timestamp isLast current registered
    (sameId ▸ rests) sameId (show (state.ledger.heap ref).quantity ≠ 0 by omega)
  have cancelled : after.ledger = state.ledger.cancelOrder env ref timestamp requestTime := by
    rw [isAfter, freeOrder_ledger, publishOrderCancel, publish_ledger]
    have heapIs := congrArg (fun ledger => ledger.heap ref) ledgerIs
    have deleted : (state.onBook fun book => book.deleteOrder ref timestamp seqNum isLast).ledger = _ :=
      ledgerIs
    rw [show (state.onBook fun book => book.deleteOrder ref timestamp seqNum isLast).order ref = _
      from heapIs, deleted]
    rfl
  have member := OrderBookL3.mem_allOrders.mp (OrderBookL3.findOrder_eq_some.mp rests).1
  obtain ⟨-, -, queue, -, -⟩ := OrderBookL3.deleteOrder_accepted state.book.l3 resting timestamp seqNum
    isLast current member
  have l3Is : after.book.l3 =
      (OrderBookL3.deleteOrder state.book.l3 resting.orderId timestamp seqNum isLast).book := by
    rw [isAfter, show resting.orderId = (state.book.heap ref).id from sameId]
    exact OrderBook.deleteOrder_l3 ref timestamp isLast
  refine ⟨⟨?_, ?_, ?_, ?_⟩, cancelled⟩
  · rw [cancelled]
    exact .single (.cancelOwn rests swept ours apart)
  · rw [isAfter]
    exact still
  · rw [l3Is, takeFromQueue, if_pos rfl, ← swept]
    exact queue
  · intro other different
    rw [cancelled]
    rw [sameId] at different
    exact (Ledger.ChangesOnly.cancelOrder registered).entry other different

/-! ## Fills -/

variable (state side) in
/-- `recordTrade` draws at most a trade number. -/
theorem recordTrade_spec (ctx : MatchContext) (aggressorId bookOrderId : Nat)
    (price tradeQty phantomQty : Int) :
    ∃ globals, state.ledger.globals.Le globals ∧
      (state.recordTrade ctx side aggressorId bookOrderId price tradeQty phantomQty).2.ledger =
        { state.ledger with globals } ∧
      (state.recordTrade ctx side aggressorId bookOrderId price tradeQty phantomQty).2.book.l3 =
        state.book.l3 ∧
      (state.recordTrade ctx side aggressorId bookOrderId price tradeQty phantomQty).1.seqNum =
        ctx.seqNum := by
  unfold recordTrade
  split
  · exact ⟨state.book.nextTradeId.globals, ⟨le_rfl, le_rfl, Nat.le_succ _, le_rfl, le_rfl⟩, rfl, rfl,
      rfl⟩
  · exact ⟨state.book.globals, ⟨le_rfl, le_rfl, le_rfl, le_rfl, le_rfl⟩, rfl, rfl, rfl⟩

section Fill

variable (inv : state.ledger.Represents hand) {ctx : MatchContext}
  (current : ¬ Regresses state.book.l3 ctx.seqNum)
  (rests : state.ledger.entry resting.orderId = some resting) (swept : resting.side = side)
  (apart : ∀ ref, state.ledger.owner resting.orderId = some ref → hand.resting ≠ some ref)
  (positive : 0 < qty) (within : qty ≤ resting.quantity) (price : Int)

include inv current rests swept apart positive within

variable (env) in
private theorem executeOrder_takes (timestamp : Nat) (isLast : Bool) :
    ∃ book, state.book.executeOrder resting.orderId qty timestamp ctx.seqNum isLast = (true, book) ∧
      ∀ aggressorId phantomQty,
      let reported := { state with book }.reportRestingFill env
        (state.book.findOrder resting.orderId)
      let recorded := reported.recordTrade ctx side aggressorId resting.orderId price qty phantomQty
      Takes env hand side ctx.seqNum resting qty state recorded.2 ∧
        recorded.1.seqNum = ctx.seqNum ∧
        ∀ ref, state.ledger.owner resting.orderId ≠ some ref →
          recorded.2.order ref = state.order ref := by
  obtain ⟨book, executed, sweep, changes, still⟩ := executeOrder_sweep env inv current rests
    swept apart positive within timestamp isLast
  refine ⟨book, executed, ?_⟩
  intro aggressorId phantomQty reported recorded
  obtain ⟨globals, later, ledgerIs, l3Is, seqIs⟩ := recordTrade_spec side reported ctx
    aggressorId resting.orderId price qty phantomQty
  have bookIs : recorded.2.book.l3 =
      (state.book.executeOrder resting.orderId qty timestamp ctx.seqNum isLast).2.l3 := by
    rw [l3Is, reportRestingFill_l3, executed]
  refine ⟨⟨?_, ?_, ?_, ?_⟩, seqIs, ?_⟩
  · refine .tail (.single sweep) ?_
    rw [ledgerIs]
    exact .tick later
  · rw [bookIs, executed]
    exact still
  · rw [bookIs, ← swept]
    exact OrderBook.executeOrder_queue timestamp isLast current rests positive within
  · intro other different
    rw [ledgerIs]
    exact changes.entry other different
  · intro ref notOwner
    have : recorded.2.ledger.heap ref = state.ledger.heap ref := by
      rw [ledgerIs]
      exact changes.heap ref notOwner
    exact this

variable (env) in
theorem fillRestingFromFeed_takes (aggressorId : Nat) (remaining : Int) :
    ∃ ctx' state', state.fillRestingFromFeed env ctx side aggressorId resting.orderId price qty
        remaining = (true, remaining - qty, ctx', state') ∧
      ctx'.seqNum = ctx.seqNum ∧ Takes env hand side ctx.seqNum resting qty state state' := by
  obtain ⟨book, executed, spec⟩ := executeOrder_takes env inv current rests swept apart positive
    within price ctx.eventTime (decide (remaining - qty = 0))
  obtain ⟨takes, seqIs, -⟩ := spec aggressorId
    (if (state.book.findOrder resting.orderId).isSome then 0 else qty)
  refine ⟨_, _, ?_, seqIs, takes⟩
  unfold fillRestingFromFeed
  dsimp only
  rw [executed]
  rfl

variable (env) in
theorem fillResting_takes {ref : Nat} (held : hand.aggressor = some ref)
    (enough : qty ≤ (state.order ref).leavesQuantity) (remaining : Int) :
    ∃ ctx' state', state.fillResting env ctx side ref resting.orderId
        (state.book.findOrder resting.orderId) price qty remaining = (true, ctx', state') ∧
      ctx'.seqNum = ctx.seqNum ∧ Takes env hand side ctx.seqNum resting qty state state' ∧
      (state'.order ref).leavesQuantity = (state.order ref).leavesQuantity - qty ∧
      (state'.order ref).cumQuantity = (state.order ref).cumQuantity + qty := by
  let booked := state.onBook fun book => book.updateOrder ref fun order =>
    order.execute price qty ctx.eventTime
  have self : booked.order ref = (state.order ref).execute price qty ctx.eventTime :=
    Function.update_self ..
  let filled := booked.publishOrderExecution env ref true
  have sweep : Sweep env hand side state.ledger filled.ledger := by
    have aggressed : filled.ledger = (state.ledger.updateOrder ref fun order =>
        order.execute price qty ctx.eventTime).publish env fun slot =>
          slot.writeExecution ((state.ledger.heap ref).execute price qty ctx.eventTime) true := by
      show (booked.ledger.publish env fun slot => slot.writeExecution (booked.order ref) true) = _
      rw [self]
      rfl
    rw [aggressed]
    exact .aggress held positive enough
  have notOwner : filled.ledger.owner resting.orderId ≠ some ref := by
    intro ours
    have sameId := inv.indexed.owner_id ours
    cases hand <;> cases held
    · have unregistered := inv.indexed.fresh_unregistered rfl
      rw [sameId] at unregistered
      exact absurd (unregistered.symm.trans ours) (by rintro ⟨⟩)
    · exact apart ref ours rfl
  have filledRests : filled.ledger.entry resting.orderId = some resting := rests
  have filledApart : ∀ ref, filled.ledger.owner resting.orderId = some ref → hand.resting ≠ some ref :=
    apart
  obtain ⟨book, executed, spec⟩ := executeOrder_takes env (sweep.represents inv) current filledRests
    swept filledApart positive within price ctx.eventTime (decide (remaining = 0))
  obtain ⟨takes, seqIs, kept⟩ := spec
    (({ filled with book }.reportRestingFill env (state.book.findOrder resting.orderId)).order ref).id
    (if (state.book.findOrder resting.orderId).isSome then 0 else qty)
  have executedOrder := (kept ref notOwner).trans self
  refine ⟨_, _, ?_, seqIs, ⟨.head sweep takes.sweeps, takes.current, takes.queue, takes.entry⟩, ?_, ?_⟩
  · unfold fillResting
    dsimp only
    rw [show filled.book.executeOrder _ _ _ _ _ = _ from executed]
    rfl
  · rw [executedOrder, Order.execute_leaves]
  · rw [executedOrder, Order.execute_cum]

end Fill


end MatchState

end SlickSim
