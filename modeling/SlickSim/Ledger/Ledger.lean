import SlickSim.Engine.MatchCommon
import SlickSim.OrderBook.Subscriber

/-!
# Ledgers

A ledger is a book seen through its lookups: which order rests under an id,
which pooled order each map answers with, what each price's phantom total is.
It has no levels and no queues. The operations of `OrderBook` have their
counterparts here, and `OrderBook.ledger` carries one to the other.
-/

set_option autoImplicit false

namespace SlickSim

structure Ledger where
  entry : Nat → Option BookOrder
  owner : Nat → Option Nat
  byClient : Name → Option Nat
  byOrder : Name → Option Nat
  totals : Int → Option Int
  heap : Nat → Order
  live : List Nat
  doubleFreed : Bool
  joins : List Nat
  declined : Bool
  trail : List OrderUpdate
  globals : Globals
  responses : List OrderResponse

/-- `emplace` on a map seen as a function. -/
def emplaceAt {κ : Type} [DecidableEq κ] (map : κ → Option Nat) (key : κ) (value : Nat) :
    κ → Option Nat :=
  match map key with
  | some _ => map
  | none => Function.update map key (some value)

/-- `putMDLevelQty` on totals seen as a function. -/
def putTotals (totals : Int → Option Int) (price quantity change : Int) : Int → Option Int :=
  match totals price with
  | some total => Function.update totals price (some (total + change))
  | none => if quantity ≠ 0 then Function.update totals price (some quantity) else totals

/-- `moveMDLevelQty` on totals seen as a function. -/
def moveTotals (totals : Int → Option Int) (update : OrderUpdate) : Int → Option Int :=
  if update.price ≠ update.oldPrice then
    let totals :=
      match totals update.oldPrice with
      | some total => Function.update totals update.oldPrice (some (total - update.oldQty))
      | none => totals
    putTotals totals update.price update.quantity update.quantity
  else putTotals totals update.price update.quantity (update.quantity - update.oldQty)

/-- What the observers are told when the order of one id is exchanged. -/
def exchangeUpdates (before after : Option BookOrder) (timestamp : Nat) : List OrderUpdate :=
  match before, after with
  | none, none => []
  | none, some next => [next.added timestamp]
  | some order, none => [order.removed timestamp]
  | some order, some next => if next = order then [] else [order.changed next timestamp]

/-- The rows of an exchange fit a subscriber that has the orders from before it. -/
theorem replayOrders_exchange {entry : Nat → Option BookOrder} {id timestamp : Nat}
    {next : Option BookOrder}
    (resting : ∀ order, entry id = some order → order.orderId = id ∧ 0 < order.quantity)
    (placed : ∀ order, next = some order → order.orderId = id ∧ 0 < order.quantity ∧
      ∀ old, entry id = some old → order.side = old.side) :
    replayOrders ((exchangeUpdates (entry id) next timestamp).map OrderBook.cacheOrderUpdate) entry =
      some (Function.update entry id next) := by
  cases before : entry id with
  | none =>
      cases next with
      | none =>
          rw [Function.update_eq_self_iff.mpr before.symm]
          rfl
      | some order =>
          obtain ⟨rfl, positive, -⟩ := placed order rfl
          have nonzero : order.quantity ≠ 0 := by omega
          unfold exchangeUpdates
          simp [MDOrder.apply, OrderBook.cacheOrderUpdate, BookOrder.added, nonzero, before]
  | some old =>
      obtain ⟨rfl, oldPositive⟩ := resting old before
      cases next with
      | none =>
          unfold exchangeUpdates
          simp [MDOrder.apply, OrderBook.cacheOrderUpdate, BookOrder.removed, before]
      | some order =>
          obtain ⟨sameId, positive, sameSide⟩ := placed order rfl
          have sameSide := sameSide old before
          have nonzero : order.quantity ≠ 0 := by omega
          have oldNonzero : old.quantity ≠ 0 := by omega
          unfold exchangeUpdates
          dsimp only
          split <;> rename_i same
          · rw [same, Function.update_eq_self_iff.mpr before.symm]
            rfl
          · simp [MDOrder.apply, OrderBook.cacheOrderUpdate, BookOrder.changed, before, nonzero,
              oldNonzero, ← sameSide]
            rw [← sameId]

/-- An order as the L3 book lists it. -/
def Order.bookEntry (order : Order) : BookOrder :=
  { orderId := order.id, side := toBookSide order.side, price := order.price
    quantity := order.leavesQuantity, priority := order.priority }

namespace Ledger

/-- A simulator order in the lookup maps. -/
def Registered (ledger : Ledger) (ref : Nat) : Prop :=
  ledger.owner (ledger.heap ref).id = some ref

instance (ledger : Ledger) (ref : Nat) : Decidable (ledger.Registered ref) :=
  inferInstanceAs (Decidable (_ = _))

/-- An id some order of a client was given. Every such order was reported. -/
def Owned (ledger : Ledger) (id : Nat) : Prop :=
  id ≠ 0 ∧ ∃ response ∈ ledger.responses, response.orderNum = id

/-- The L3 entry that agrees with a pooled order. -/
def entryOf (ledger : Ledger) (ref : Nat) : BookOrder :=
  (ledger.heap ref).bookEntry

/-- Nothing resting on a side is within an aggressor's limit. -/
def Beyond (ledger : Ledger) (side : BookSide) (limit : Int) : Prop :=
  ∀ id resting, ledger.entry id = some resting → resting.side = side →
    beyondLimit side resting.price limit = true

/-- A subscriber that was told the trail has these orders. -/
def Retells (trail : List OrderUpdate) (entry : Nat → Option BookOrder) : Prop :=
  replayOrders (trail.map OrderBook.cacheOrderUpdate) (fun _ => none) = some entry

theorem Retells.append {trail told : List OrderUpdate} {entry next : Nat → Option BookOrder}
    (retells : Retells trail entry)
    (replayed : replayOrders (told.map OrderBook.cacheOrderUpdate) entry = some next) :
    Retells (trail ++ told) next := by
  unfold Retells
  rw [List.map_append, replayOrders_append retells]
  exact replayed

def updateOrder (ledger : Ledger) (ref : Nat) (change : Order → Order) : Ledger :=
  { ledger with heap := Function.update ledger.heap ref (change (ledger.heap ref)) }

def publish (ledger : Ledger) (env : Environment) (write : OrderResponse → OrderResponse) : Ledger :=
  { ledger with responses := ledger.responses ++ [write (env.slot ledger.responses.length)] }

def freeOrder (ledger : Ledger) (ref : Nat) : Ledger :=
  { ledger with
    live := ledger.live.erase ref
    doubleFreed := ledger.doubleFreed || decide (ref ∉ ledger.live) }

def registerOrder (ledger : Ledger) (ref : Nat) : Ledger :=
  let order := ledger.heap ref
  { ledger with
    owner := emplaceAt ledger.owner order.id ref
    byClient :=
      if order.clientOrderId.isEmpty then ledger.byClient
      else emplaceAt ledger.byClient order.clientOrderId ref
    byOrder :=
      if order.orderId.isEmpty then ledger.byOrder
      else emplaceAt ledger.byOrder order.orderId ref }

def unregisterOrder (ledger : Ledger) (ref : Nat) : Ledger :=
  let order := ledger.heap ref
  { ledger with
    owner := Function.update ledger.owner order.id none
    byClient :=
      if order.clientOrderId.isEmpty then ledger.byClient
      else Function.update ledger.byClient order.clientOrderId none
    byOrder :=
      if order.orderId.isEmpty then ledger.byOrder
      else Function.update ledger.byOrder order.orderId none }

def onOrderUpdate (ledger : Ledger) (update : OrderUpdate) : Ledger :=
  match ledger.owner update.orderId with
  | none => { ledger with totals := moveTotals ledger.totals update }
  | some ref =>
      if update.quantity = 0 ∧ (ledger.heap ref).quantity ≠ update.quantity then
        ledger.updateOrder ref fun order => { order with leavesQuantity := 0 }
      else ledger

/-- Exchanges what rests under an id, where the observers change nothing. -/
def placeEntry (ledger : Ledger) (id : Nat) (next : Option BookOrder) (timestamp : Nat) : Ledger :=
  { ledger with
    entry := Function.update ledger.entry id next
    joins := ledger.joins ++ joinedIds (exchangeUpdates (ledger.entry id) next timestamp)
    trail := ledger.trail ++ exchangeUpdates (ledger.entry id) next timestamp }

def setEntry (ledger : Ledger) (id : Nat) (next : Option BookOrder) (timestamp : Nat) : Ledger :=
  (exchangeUpdates (ledger.entry id) next timestamp).foldl onOrderUpdate
    (ledger.placeEntry id next timestamp)

end Ledger

/-- A book with the responses published about it, seen through its lookups. -/
def OrderBook.ledger {β : Type} [OrderBookL3 β] (book : OrderBook β) (responses : List OrderResponse) :
    Ledger where
  entry := OrderBookL3.findOrder book.l3
  owner := fun id => book.orders.lookup id
  byClient := fun name => book.ordersByClientOrderId.lookup name
  byOrder := fun name => book.ordersByOrderId.lookup name
  totals := fun price => book.feedMdLevelQuantity.lookup price
  heap := book.heap
  live := book.live
  doubleFreed := book.doubleFreed
  joins := book.joins
  declined := book.declined
  trail := book.orderTrail
  globals := book.globals
  responses := responses

def MatchState.ledger {β : Type} [OrderBookL3 β] (state : MatchState β) : Ledger :=
  state.book.ledger state.responses

end SlickSim
