import Mathlib.Data.List.AList
import SlickSim.Common.Messages

/-!
# The orders reported to a gateway

`OrderStore` folds the execution reports of the response stream into one order per
order id. The product type and the notional double of an entry are left out.
-/

set_option autoImplicit false

namespace SlickSim

structure OrderStore where
  byOrderId : AList (fun _ : Name => Order)
  /-- The order ids of each user, in the order they were first seen. -/
  idsByUser : AList (fun _ : Name => List Name)

namespace OrderStore

def new : OrderStore := { byOrderId := ∅, idsByUser := ∅ }

/-- What first sight of an order fixes. -/
def identify (response : OrderResponse) (order : Order) : Order :=
  { order with
    orderId := response.orderId
    symbol := response.symbol
    userId := response.userId
    clientOrderId := response.clientOrderId
    createdTime := response.creationTime }

/-- What every report overwrites. -/
def describe (response : OrderResponse) (order : Order) : Order :=
  { order with
    side := response.side
    type := response.orderType
    timeInForce := response.timeInForce
    status := response.orderStatus
    postOnly := response.postOnly
    price := response.price
    quantity := response.qty
    leavesQuantity := response.leavesQty
    cumQuantity := response.cumQty
    avgFillPrice := response.avgFillPrice
    lastUpdateTime := response.timestamp
    pendingCancel := decide (response.orderStatus = .pendingCancel) }

def countFill (response : OrderResponse) (order : Order) : Order :=
  if response.execType = .trade then
    { order with
      lastFillPrice := response.lastFillPrice
      lastFillQty := response.lastQty
      lastFillTime := some response.timestamp
      numFills := order.numFills + 1 }
  else order

def keepMessage (response : OrderResponse) (order : Order) : Order :=
  match response.orderStatus with
  | .rejected => { order with rejectMessage := response.errorMessage }
  | .canceled => { order with cancelMessage := response.errorMessage }
  | _ => order

def apply (store : OrderStore) (response : OrderResponse) : OrderStore :=
  if response.orderId.isEmpty then store
  else
    let fold := fun order => keepMessage response (countFill response (describe response order))
    match store.byOrderId.lookup response.orderId with
    | some order => { store with byOrderId := store.byOrderId.insert response.orderId (fold order) }
    | none =>
        { byOrderId := store.byOrderId.insert response.orderId (fold (identify response default))
          idsByUser := store.idsByUser.insert response.userId
            ((store.idsByUser.lookup response.userId).getD [] ++ [response.orderId]) }

def find (store : OrderStore) (orderId : Name) : Option Order :=
  store.byOrderId.lookup orderId

def ordersOf (store : OrderStore) (userId : Name) : List Order :=
  ((store.idsByUser.lookup userId).getD []).reverse.filterMap store.find

/-- `orders_of`, by the text of a user id: what does not fit a response is nobody's. -/
def ordersOfUser (store : OrderStore) (userId : List UInt8) : List Order :=
  if (Name.copyWireField userId).bytes = userId then store.ordersOf (Name.copyWireField userId) else []

def replay (responses : List OrderResponse) : OrderStore :=
  responses.foldl apply new

end OrderStore

def fillsUnder (responses : List OrderResponse) (orderId : Name) : List OrderResponse :=
  responses.filter fun response => decide (response.execType = .trade ∧ response.orderId = orderId)

namespace OrderStore

variable (store : OrderStore) (response : OrderResponse)

@[simp] theorem keepMessage_numFills (order : Order) :
    (keepMessage response order).numFills = order.numFills := by
  unfold keepMessage
  split <;> rfl

theorem apply_find_self (named : response.orderId.isEmpty = false) :
    (store.apply response).find response.orderId =
      some (keepMessage response (countFill response (describe response
        ((store.find response.orderId).getD (identify response default))))) := by
  unfold apply find
  rw [if_neg (by rw [named]; rintro ⟨⟩)]
  cases store.byOrderId.lookup response.orderId <;> exact AList.lookup_insert _

theorem apply_find_other {orderId : Name} (other : response.orderId ≠ orderId) :
    (store.apply response).find orderId = store.find orderId := by
  unfold apply find
  split
  · rfl
  · cases store.byOrderId.lookup response.orderId <;> exact AList.lookup_insert_ne (Ne.symm other)

theorem apply_find_numFills {orderId : Name} (named : orderId.isEmpty = false) :
    ((store.apply response).find orderId).elim 0 Order.numFills =
      (store.find orderId).elim 0 Order.numFills + (fillsUnder [response] orderId).length := by
  by_cases same : response.orderId = orderId
  · subst same
    have known : ((store.find response.orderId).getD (identify response default)).numFills =
        (store.find response.orderId).elim 0 Order.numFills := by
      cases store.find response.orderId <;> rfl
    rw [apply_find_self store response named]
    show (keepMessage response (countFill response _)).numFills = _
    rw [keepMessage_numFills, ← known]
    unfold countFill fillsUnder
    by_cases trade : response.execType = .trade
    · rw [if_pos trade, List.filter_cons_of_pos (by simp [trade])]
      rfl
    · rw [if_neg trade, List.filter_cons_of_neg (by simp [trade])]
      rfl
  · rw [apply_find_other store response same]
    unfold fillsUnder
    rw [List.filter_cons_of_neg (by simp [same])]
    rfl

theorem replay_numFills (responses : List OrderResponse) {orderId : Name} (named : orderId.isEmpty = false) :
    ((replay responses).find orderId).elim 0 Order.numFills = (fillsUnder responses orderId).length := by
  unfold replay
  induction responses using List.reverseRecOn with
  | nil => rfl
  | append_singleton earlier report ih =>
      rw [List.foldl_append, List.foldl_cons, List.foldl_nil, apply_find_numFills _ _ named, ih,
        ← List.length_append]
      unfold fillsUnder
      rw [← List.filter_append]

end OrderStore

end SlickSim
