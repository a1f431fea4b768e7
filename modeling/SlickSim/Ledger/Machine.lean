import Mathlib.Logic.Relation
import SlickSim.OrderBook.L3Properties
import SlickSim.Ledger.Ledger

/-!
# The ledger machine

What requests and feed events can do to a ledger, one observable effect at a
time. While a request is worked on it has one order in hand: a new order that
is not in the book yet, or a resting order being amended whose L3 entry lags
behind it. Between requests the hand is empty.

A `Permit` restricts what is asked of the machine. Results that hold for every
request use the one that allows everything.
-/

set_option autoImplicit false

namespace SlickSim

open OrderBookL3 (afterExecution)

/-- The order a request is working on, and how far it has got. -/
inductive Hand where
  | none
  /-- Reported as pending, not acknowledged. -/
  | pending (ref : Nat)
  /-- Turned away and back in the pool, not told yet. -/
  | refused (ref : Nat)
  /-- Acknowledged, matching. -/
  | working (ref : Nat)
  /-- Cancelled before it could rest. -/
  | done (ref : Nat)
  /-- Reported as about to be replaced. -/
  | amending (ref : Nat)
  /-- Replaced, matching. -/
  | amended (ref : Nat)
  /-- Replaced by a quantity it had filled before. -/
  | emptied (ref : Nat)
  /-- Replaced, then reported as cancelled. -/
  | closing (ref : Nat)
  /-- Reported as about to be cancelled. -/
  | cancelling (ref : Nat)
deriving DecidableEq, Repr

namespace Hand

/-- The order in hand that is not in the book. -/
def fresh : Hand → Option Nat
  | pending ref | working ref | done ref => some ref
  | _ => Option.none

/-- The order in hand that still rests as it was. -/
def resting : Hand → Option Nat
  | amending ref | amended ref | emptied ref | closing ref | cancelling ref => some ref
  | _ => Option.none

/-- The order in hand whose L3 entry lags behind it. -/
def lagging : Hand → Option Nat
  | amended ref | emptied ref | closing ref => some ref
  | _ => Option.none

/-- The hand after an amendment of an order whose new quantity is filled or not. -/
def replaced (ref : Nat) (filled : Bool) : Hand :=
  if filled then emptied ref else amended ref

@[simp] theorem replaced_fresh (ref : Nat) (filled : Bool) : (replaced ref filled).fresh = Option.none := by
  cases filled <;> rfl

@[simp] theorem replaced_resting (ref : Nat) (filled : Bool) : (replaced ref filled).resting = some ref := by
  cases filled <;> rfl

@[simp] theorem replaced_lagging (ref : Nat) (filled : Bool) : (replaced ref filled).lagging = some ref := by
  cases filled <;> rfl

/-- The order that may trade as an aggressor. -/
def aggressor : Hand → Option Nat
  | working ref | amended ref => some ref
  | _ => Option.none

end Hand

/-- The counters only move forward. -/
structure Globals.Le (before after : Globals) : Prop where
  nextPriority : before.nextPriority ≤ after.nextPriority
  nextOrderId : before.nextOrderId ≤ after.nextOrderId
  nextTradeId : before.nextTradeId ≤ after.nextTradeId
  uuidDraws : before.uuidDraws ≤ after.uuidDraws
  clockReads : before.clockReads ≤ after.clockReads

structure Permit where
  accept : Ledger → Order → Prop
  reject : Ledger → Name → Prop
  refuse : Ledger → Nat → Prop
  startAmend : Ledger → Nat → Prop
  abortAmend : Ledger → Nat → Prop
  replace : Ledger → Nat → Int → Int → Prop
  amendRests : Ledger → Nat → Prop
  cancel : Ledger → Nat → Prop
  move : BookOrder → BookOrder → Prop
  join : Ledger → BookOrder → Prop
  arrive : Ledger → BookOrder → Prop

def Permit.all : Permit where
  accept := fun _ _ => True
  reject := fun _ _ => True
  refuse := fun _ _ => True
  startAmend := fun _ _ => True
  abortAmend := fun _ _ => True
  replace := fun _ _ _ _ => True
  amendRests := fun _ _ => True
  cancel := fun _ _ => True
  move := fun _ _ => True
  join := fun _ _ => True
  arrive := fun _ _ => True

namespace Order

/-- What an amendment writes onto the order. -/
def replace (newPrice newQty : Int) (order : Order) : Order :=
  { order with
    quantity := newQty
    price := newPrice
    leavesQuantity := if order.cumQuantity ≥ newQty then 0 else newQty - order.cumQuantity }

def withPriority (priority : Nat) (order : Order) : Order :=
  { order with priority }

/-- What a request leaves on an order besides the terms it changes. -/
def touch (status : OrderStatus) (lastUpdateTime requestTag : Nat) (order : Order) : Order :=
  { order with status, lastUpdateTime, requestTag }

def withoutLeaves (order : Order) : Order :=
  { order with leavesQuantity := 0 }

end Order

namespace Ledger

/-- Removes a resting order of ours, reports it cancelled and frees it. -/
def cancelOrder (ledger : Ledger) (env : Environment) (ref timestamp requestTime : Nat) : Ledger :=
  let removed := (ledger.placeEntry (ledger.heap ref).id none timestamp).updateOrder ref
    Order.withoutLeaves
  ((removed.unregisterOrder ref).publish env fun slot =>
    slot.writeCancel (removed.heap ref) requestTime).freeOrder ref

/-- Executes part of a resting order of ours. -/
def fillPartly (ledger : Ledger) (env : Environment) (ref : Nat) (resting : BookOrder) (qty : Int)
    (timestamp : Nat) : Ledger :=
  let filled := (ledger.updateOrder ref fun order => order.execute order.price qty timestamp).placeEntry
    resting.orderId (some { resting with quantity := resting.quantity - qty }) timestamp
  filled.publish env fun slot => slot.writeExecution (filled.heap ref) false

/-- Executes all of a resting order of ours, which leaves the book. -/
def fillFully (ledger : Ledger) (env : Environment) (ref : Nat) (resting : BookOrder)
    (timestamp : Nat) : Ledger :=
  let filled := (ledger.updateOrder ref fun order =>
    order.execute order.price resting.quantity timestamp).placeEntry resting.orderId none timestamp
  ((filled.unregisterOrder ref).publish env fun slot =>
    slot.writeExecution (filled.heap ref) false).freeOrder ref

end Ledger

inductive Sweep (env : Environment) (hand : Hand) (side : BookSide) : Ledger → Ledger → Prop
  | tick {ledger : Ledger} {globals : Globals} (later : ledger.globals.Le globals) :
      Sweep env hand side ledger { ledger with globals }
  | hitPhantom {ledger : Ledger} {resting : BookOrder} {qty : Int} {timestamp : Nat}
      (rests : ledger.entry resting.orderId = some resting) (swept : resting.side = side)
      (phantom : ledger.owner resting.orderId = none) (positive : 0 < qty)
      (within : qty ≤ resting.quantity) :
      Sweep env hand side ledger
        (ledger.setEntry resting.orderId (afterExecution resting qty) timestamp)
  | hitPartly {ledger : Ledger} {resting : BookOrder} {ref : Nat} {qty : Int} {timestamp : Nat}
      (rests : ledger.entry resting.orderId = some resting) (swept : resting.side = side)
      (ours : ledger.owner resting.orderId = some ref) (apart : hand.resting ≠ some ref)
      (positive : 0 < qty) (within : qty < resting.quantity) :
      Sweep env hand side ledger (ledger.fillPartly env ref resting qty timestamp)
  | hitFully {ledger : Ledger} {resting : BookOrder} {ref timestamp : Nat}
      (rests : ledger.entry resting.orderId = some resting) (swept : resting.side = side)
      (ours : ledger.owner resting.orderId = some ref) (apart : hand.resting ≠ some ref) :
      Sweep env hand side ledger (ledger.fillFully env ref resting timestamp)
  | cancelOwn {ledger : Ledger} {ref timestamp requestTime : Nat} {resting : BookOrder}
      (rests : ledger.entry resting.orderId = some resting) (swept : resting.side = side)
      (ours : ledger.owner resting.orderId = some ref) (apart : hand.resting ≠ some ref) :
      Sweep env hand side ledger (ledger.cancelOrder env ref timestamp requestTime)
  | aggress {ledger : Ledger} {ref timestamp : Nat} {price qty : Int}
      (held : hand.aggressor = some ref) (positive : 0 < qty)
      (within : qty ≤ (ledger.heap ref).leavesQuantity) :
      Sweep env hand side ledger
        ((ledger.updateOrder ref fun order => order.execute price qty timestamp).publish env
          fun slot => slot.writeExecution ((ledger.heap ref).execute price qty timestamp) true)

/-- One effect of a request or a feed event. -/
inductive Micro (env : Environment) (permit : Permit) : Hand × Ledger → Hand × Ledger → Prop
  | sweep {hand : Hand} {before after : Ledger} {side : BookSide}
      (swept : Sweep env hand side before after) : Micro env permit (hand, before) (hand, after)
  | reject {ledger : Ledger} {header : RequestHeader}
      {userId clientOrderId orderId : Name} {price qty : Int} {reason : OrdRejectReason}
      {timestamp : Nat} (permitted : permit.reject ledger orderId) :
      Micro env permit (.none, ledger) (.none, ledger.publish env fun slot =>
        slot.writeReject header userId clientOrderId orderId price qty reason timestamp)
  | touch {hand : Hand} {ledger : Ledger} {ref : Nat} {status : OrderStatus}
      {lastUpdateTime requestTag : Nat} :
      Micro env permit (hand, ledger)
        (hand, ledger.updateOrder ref (Order.touch status lastUpdateTime requestTag))
  -- New orders.
  | accept {ledger : Ledger} {ref requestTime : Nat} {order : Order} {globals : Globals}
      (unused : ref ∉ ledger.live) (numbered : order.id = ledger.globals.nextOrderId)
      (later : ledger.globals.Le globals) (drawn : ledger.globals.nextOrderId < globals.nextOrderId)
      (clientFree : order.clientOrderId.isEmpty = false →
        ledger.byClient order.clientOrderId = none)
      (named : order.orderId.isEmpty = false) (orderFree : ledger.byOrder order.orderId = none)
      (whole : order.leavesQuantity = order.quantity) (unfilled : order.cumQuantity = 0)
      (unpriced : order.avgFillPrice = 0) (permitted : permit.accept ledger order) :
      Micro env permit (.none, ledger) (.pending ref,
        { ledger with
          heap := Function.update ledger.heap ref order
          live := ref :: ledger.live
          globals }.publish env fun slot => slot.writeNewPending order requestTime)
  | ack {ledger : Ledger} {ref requestTime : Nat} :
      Micro env permit (.pending ref, ledger) (.working ref,
        ledger.publish env fun slot => slot.writeAck (ledger.heap ref) requestTime)
  | refuse {ledger : Ledger} {ref : Nat} (permitted : permit.refuse ledger ref) :
      Micro env permit (.pending ref, ledger) (.refused ref, ledger.freeOrder ref)
  | rejectRefused {ledger : Ledger} {ref timestamp : Nat} {header : RequestHeader} {userId : Name}
      {price qty : Int} (permitted : permit.reject ledger default) :
      Micro env permit (.refused ref, ledger) (.none, ledger.publish env fun slot =>
        slot.writeReject header userId (ledger.heap ref).clientOrderId default price qty .smp timestamp)
  | cancelHand {ledger : Ledger} {ref requestTime : Nat}
      (unrestable : (ledger.heap ref).restsRemainder = false ∨
        (ledger.heap ref).leavesQuantity = 0)
      (unfinished : 0 < (ledger.heap ref).leavesQuantity ∨ (ledger.heap ref).cumQuantity = 0) :
      Micro env permit (.working ref, ledger) (.done ref,
        ledger.publish env fun slot => slot.writeCancel (ledger.heap ref) requestTime)
  | dropDone {ledger : Ledger} {ref : Nat} :
      Micro env permit (.done ref, ledger) (.none, ledger.freeOrder ref)
  | dropFilled {ledger : Ledger} {ref : Nat} (filled : (ledger.heap ref).leavesQuantity ≤ 0)
      (traded : (ledger.heap ref).leavesQuantity = 0 → 0 < (ledger.heap ref).cumQuantity) :
      Micro env permit (.working ref, ledger) (.none, ledger.freeOrder ref)
  | rest {ledger : Ledger} {ref timestamp : Nat} {globals : Globals}
      (later : ledger.globals.Le globals)
      (drawn : ledger.globals.nextPriority < globals.nextPriority)
      (left : 0 < (ledger.heap ref).leavesQuantity)
      (restable : (ledger.heap ref).restsRemainder = true)
      (clear : ledger.Beyond (toBookSide (ledger.heap ref).side).opposite (ledger.heap ref).price)
      {ranked : Ledger}
      (isRanked : ranked = { ledger with globals }.updateOrder ref
        (Order.withPriority globals.nextPriority))
      (permitted : permit.join ledger (ranked.entryOf ref)) :
      Micro env permit (.working ref, ledger) (.none,
        (ranked.registerOrder ref).placeEntry (ledger.heap ref).id (some (ranked.entryOf ref))
          timestamp)
  -- Amendments.
  | startAmend {ledger : Ledger} {ref requestTime now requestTag : Nat}
      (registered : ledger.Registered ref) (permitted : permit.startAmend ledger ref)
      {marked : Ledger}
      (isMarked : marked = ledger.updateOrder ref (Order.touch .pendingReplace now requestTag)) :
      Micro env permit (.none, ledger) (.amending ref,
        marked.publish env fun slot => slot.writeReplacePending (marked.heap ref) requestTime)
  | abortAmend {ledger : Ledger} {ref : Nat} (permitted : permit.abortAmend ledger ref) :
      Micro env permit (.amending ref, ledger) (.none, ledger)
  | replace {ledger : Ledger} {ref requestTime : Nat} {newPrice newQty : Int}
      (permitted : permit.replace ledger ref newPrice newQty)
      {replaced : Ledger}
      (isReplaced : replaced = ledger.updateOrder ref (Order.replace newPrice newQty)) :
      Micro env permit (.amending ref, ledger)
        (.replaced ref (decide (newQty ≤ (ledger.heap ref).cumQuantity)),
        replaced.publish env fun slot =>
          slot.writeModify (replaced.heap ref) newPrice newQty requestTime)
  | cancelAmended {ledger : Ledger} {hand : Hand} {ref requestTime : Nat}
      (unrestable : hand = .emptied ref ∨ hand = .amended ref ∧
        0 < (ledger.heap ref).leavesQuantity ∧ (ledger.heap ref).price = nullPrice) :
      Micro env permit (hand, ledger) (.closing ref,
        ledger.publish env fun slot => slot.writeCancel (ledger.heap ref) requestTime)
  | amendRests {ledger : Ledger} {hand : Hand} {ref timestamp : Nat} {globals : Globals}
      {priority : Nat} {joined : List Nat} (held : hand = .amended ref ∨ hand = .closing ref)
      (later : ledger.globals.Le globals)
      (left : 0 < (ledger.heap ref).leavesQuantity)
      (clear : ledger.Beyond (toBookSide (ledger.heap ref).side).opposite (ledger.heap ref).price)
      {ranked : Ledger}
      (isRanked : ranked = { ledger with globals, joins := ledger.joins ++ joined }.updateOrder ref
        (Order.withPriority priority))
      (place : priority = (ledger.heap ref).priority ∧ joined = [] ∧
          (∀ resting, ledger.entry (ledger.heap ref).id = some resting →
            resting.price = (ledger.heap ref).price ∧
            (ledger.heap ref).leavesQuantity ≤ resting.quantity) ∨
        ledger.globals.nextPriority < globals.nextPriority ∧ priority = globals.nextPriority ∧
          joined = [(ledger.heap ref).id] ∧ permit.join ledger (ranked.entryOf ref))
      (permitted : permit.amendRests ledger ref) :
      Micro env permit (hand, ledger) (.none,
        ranked.placeEntry (ledger.heap ref).id (some (ranked.entryOf ref)) timestamp)
  | amendGone {ledger : Ledger} {hand : Hand} {ref timestamp : Nat} {globals : Globals}
      {priority : Nat} {joined : List Nat} (held : hand = .amended ref ∨ hand = .closing ref)
      (later : ledger.globals.Le globals)
      (filled : (ledger.heap ref).leavesQuantity = 0)
      (mine : ∀ id ∈ joined, id = (ledger.heap ref).id)
      {ranked : Ledger}
      (isRanked : ranked = { ledger with globals, joins := ledger.joins ++ joined }.updateOrder ref
        (Order.withPriority priority)) :
      Micro env permit (hand, ledger) (.none,
        ((ranked.placeEntry (ledger.heap ref).id none timestamp).unregisterOrder ref).freeOrder ref)
  -- Cancels.
  | startCancel {ledger : Ledger} {ref requestTime requestTag : Nat}
      (registered : ledger.Registered ref) (permitted : permit.cancel ledger ref)
      {marked : Ledger}
      (isMarked : marked = ledger.updateOrder ref
        (Order.touch .pendingCancel (ledger.heap ref).lastUpdateTime requestTag)) :
      Micro env permit (.none, ledger) (.cancelling ref,
        marked.publish env fun slot => slot.writeCancelPending (marked.heap ref) requestTime)
  | finishCancel {ledger : Ledger} {ref timestamp requestTime : Nat} :
      Micro env permit (.cancelling ref, ledger)
        (.none, ledger.cancelOrder env ref timestamp requestTime)
  -- Phantom orders.
  | addPhantom {ledger : Ledger} {order : BookOrder} {timestamp : Nat}
      (absent : ledger.entry order.orderId = none) (foreign : ¬ ledger.Owned order.orderId)
      (numbered : order.orderId < ledger.globals.nextOrderId) (positive : 0 < order.quantity)
      (clear : ledger.Beyond order.side.opposite order.price ∨
        ∃ id resting, ledger.entry id = some resting ∧ resting.side = order.side ∧
          resting.price = order.price)
      (permitted : permit.arrive ledger order) :
      Micro env permit (.none, ledger) (.none,
        ledger.setEntry order.orderId (some order) timestamp)
  -- A priority of 0 is read as the time of the change.
  | resizePhantom {ledger : Ledger} {order : BookOrder} {qty : Int} {priority timestamp : Nat}
      (rests : ledger.entry order.orderId = some order)
      (phantom : ledger.owner order.orderId = none) (positive : 0 < qty)
      (within : qty ≤ order.quantity) (ranked : 0 < order.priority → priority = order.priority) :
      Micro env permit (.none, ledger) (.none,
        ledger.setEntry order.orderId (some { order with quantity := qty, priority }) timestamp)
  | movePhantom {ledger : Ledger} {order next : BookOrder} {timestamp : Nat}
      (rests : ledger.entry order.orderId = some order)
      (phantom : ledger.owner order.orderId = none) (positive : 0 < next.quantity)
      (sameId : next.orderId = order.orderId) (sameSide : next.side = order.side)
      (permitted : permit.move order next) :
      Micro env permit (.none, ledger) (.none,
        ledger.setEntry order.orderId (some next) timestamp)
  | dropPhantom {ledger : Ledger} {order : BookOrder} {timestamp : Nat}
      (rests : ledger.entry order.orderId = some order)
      (phantom : ledger.owner order.orderId = none) :
      Micro env permit (.none, ledger) (.none, ledger.setEntry order.orderId none timestamp)
  | clearMD {ledger : Ledger} {trail : List OrderUpdate}
      (retold : Ledger.Retells trail fun id =>
        if (ledger.owner id).isSome then ledger.entry id else none) :
      Micro env permit (.none, ledger) (.none,
        { ledger with
          entry := fun id => if (ledger.owner id).isSome then ledger.entry id else none
          totals := fun _ => none
          trail })

abbrev Micros (env : Environment) (permit : Permit) : Hand × Ledger → Hand × Ledger → Prop :=
  Relation.ReflTransGen (Micro env permit)

end SlickSim
