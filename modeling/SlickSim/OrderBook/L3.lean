import SlickSim.Lib.KeyedList
import SlickSim.Common.Messages

/-!
# The external L3 book

`slick::orderbook::OrderBookL3` is not part of the repository. It is a type of
books with the operations the simulator calls and, as fields of the same class,
what the simulator relies on: how each mutation changes the resting orders,
which mutations are discarded, and what the observers are told.

`restingOrders` lists a side in the order `getLevelsL3` walks it: levels best
first, each level by ascending priority. Nothing is assumed about orders that
tie on price and priority.
-/

set_option autoImplicit false

namespace SlickSim

inductive BookSide where
  | buy
  | sell
deriving DecidableEq, Repr, Inhabited

def BookSide.opposite : BookSide → BookSide
  | .buy => .sell
  | .sell => .buy

@[simp] theorem BookSide.opposite_opposite (side : BookSide) : side.opposite.opposite = side := by
  cases side <;> rfl

theorem BookSide.opposite_ne (side : BookSide) : side.opposite ≠ side := by
  cases side <;> decide

theorem BookSide.eq_opposite_of_ne {left right : BookSide} (different : left ≠ right) :
    left = right.opposite := by
  cases left <;> cases right <;> first | rfl | exact absurd rfl different

/-- `to_book_side`. The gateways send only `BUY` and `SELL`. -/
def toBookSide : Side → BookSide
  | .buy => .buy
  | _ => .sell

def ofBookSide : BookSide → Side
  | .buy => .buy
  | .sell => .sell

@[simp] theorem toBookSide_ofBookSide (side : BookSide) : toBookSide (ofBookSide side) = side := by
  cases side <;> rfl

/-- `utils::isPriceBetter`: higher bids and lower asks are better. -/
def isPriceBetter (side : BookSide) (left right : Int) : Bool :=
  match side with
  | .buy => decide (left > right)
  | .sell => decide (left < right)

/-- `utils::isPriceBetterOrEqual`. -/
def isPriceBetterOrEqual (side : BookSide) (left right : Int) : Bool :=
  match side with
  | .buy => decide (left ≥ right)
  | .sell => decide (left ≤ right)

structure BookOrder where
  orderId : Nat
  side : BookSide
  price : Int
  quantity : Int
  priority : Nat
deriving DecidableEq, Repr

/-- Queue order: a better price first, then the lower priority number. -/
def BookOrder.ranksBefore (side : BookSide) (left right : BookOrder) : Prop :=
  isPriceBetter side left.price right.price = true ∨
    (left.price = right.price ∧ left.priority ≤ right.priority)

instance (side : BookSide) (left right : BookOrder) : Decidable (left.ranksBefore side right) :=
  inferInstanceAs (Decidable (_ ∨ _))

structure OrderUpdate where
  orderId : Nat
  side : BookSide
  price : Int
  quantity : Int
  oldPrice : Int
  oldQty : Int
  priority : Nat
  timestamp : Nat
deriving DecidableEq, Repr

structure PriceLevelUpdate where
  side : BookSide
  price : Int
  quantity : Int
  numOrders : Nat
  levelIndex : Nat
  timestamp : Nat
  seqNum : Nat
  lastInBatch : Bool
deriving DecidableEq, Repr

structure L3Result (β : Type) where
  book : β
  accepted : Bool
  orderUpdates : List OrderUpdate
  levelUpdates : List PriceLevelUpdate

def BookOrder.qtyAt (order : BookOrder) (price : Int) : Int :=
  if order.price = price then order.quantity else 0

def levelQty (orders : List BookOrder) (price : Int) : Int :=
  (orders.map fun order => order.qtyAt price).sum

/-- The quantity of a level that was told last, if any was. -/
def toldQty (updates : List PriceLevelUpdate) (side : BookSide) (price : Int) : Option Int :=
  (updates.filter fun update => update.side = side ∧ update.price = price).getLast?.map
    PriceLevelUpdate.quantity

/-- A mutation of one order tells the levels the order was or is at, each as it leaves
them, and no other level changes. -/
structure L3Result.TellsLevels {β : Type} (restingOrders : β → BookSide → List BookOrder) (before : β)
    (orderId : Nat) (result : L3Result β) : Prop where
  affected : ∀ update ∈ result.levelUpdates, ∃ order,
    (order ∈ restingOrders before update.side ∨ order ∈ restingOrders result.book update.side) ∧
      order.orderId = orderId ∧ order.price = update.price
  told : ∀ side price, (toldQty result.levelUpdates side price).getD
    (levelQty (restingOrders before side) price) = levelQty (restingOrders result.book side) price

def L3Result.discarded {β : Type} (book : β) : L3Result β :=
  ⟨book, false, [], []⟩

/-- The update of an order entering the book: there is no previous state. -/
def BookOrder.added (order : BookOrder) (timestamp : Nat) : OrderUpdate :=
  { orderId := order.orderId, side := order.side, price := order.price, quantity := order.quantity
    oldPrice := 0, oldQty := 0, priority := order.priority, timestamp }

/-- The update of an order leaving the book. -/
def BookOrder.removed (order : BookOrder) (timestamp : Nat) : OrderUpdate :=
  { orderId := order.orderId, side := order.side, price := order.price, quantity := 0
    oldPrice := order.price, oldQty := order.quantity, priority := order.priority, timestamp }

/-- The update of an order that stays under a new price, quantity or priority. -/
def BookOrder.changed (order next : BookOrder) (timestamp : Nat) : OrderUpdate :=
  { orderId := order.orderId, side := order.side, price := next.price, quantity := next.quantity
    oldPrice := order.price, oldQty := order.quantity, priority := next.priority, timestamp }

/-- The update puts its order into a level: the order is new there, or its quantity
was raised. -/
def OrderUpdate.joins (update : OrderUpdate) : Bool :=
  decide (update.oldQty < update.quantity) ||
    decide (update.quantity ≠ 0) && decide (update.price ≠ update.oldPrice)

/-- The orders that joined a level, in the order they did. -/
def joinedIds (updates : List OrderUpdate) : List Nat :=
  (updates.filter OrderUpdate.joins).map OrderUpdate.orderId

/-- A priority argument of 0 means the timestamp. -/
def effectivePriority (priority : Nat) (timestamp : Nat) : Nat :=
  if priority = 0 then timestamp else priority

open KeyedList in
class OrderBookL3 (β : Type) where
  empty : β
  restingOrders : β → BookSide → List BookOrder
  lastSeqNum : β → Nat
  /-- The index `getLevel` returns for a price, whether or not the level exists. -/
  levelIndex : β → BookSide → Int → Nat
  addOrder (book : β) (orderId : Nat) (side : BookSide) (price : Int) (quantity : Int)
    (timestamp : Nat) (priority seqNum : Nat) (isLastInBatch : Bool) : L3Result β
  modifyOrder (book : β) (orderId : Nat) (newPrice : Int) (newQuantity : Int)
    (timestamp : Nat) (priority seqNum : Nat) (isLastInBatch : Bool) : L3Result β
  deleteOrder (book : β) (orderId : Nat) (timestamp : Nat) (seqNum : Nat)
    (isLastInBatch : Bool) : L3Result β
  executeOrder (book : β) (orderId : Nat) (executedQuantity : Int) (timestamp : Nat)
    (seqNum : Nat) (isLastInBatch : Bool) : L3Result β
  clear : β → β
  -- Every book.
  side_of_mem {book : β} {side : BookSide} {order : BookOrder} :
    order ∈ restingOrders book side → order.side = side
  ranked (book : β) (side : BookSide) :
    (restingOrders book side).Pairwise (BookOrder.ranksBefore side)
  distinct (book : β) :
    ((restingOrders book .buy ++ restingOrders book .sell).map BookOrder.orderId).Nodup
  empty_restingOrders (side : BookSide) : restingOrders empty side = []
  clear_restingOrders (book : β) (side : BookSide) : restingOrders (clear book) side = []
  clear_lastSeqNum (book : β) : lastSeqNum (clear book) = lastSeqNum book
  -- A regressing sequence is discarded, and so is an id that is already there, or is not.
  addOrder_discarded (book : β) (orderId : Nat) (side : BookSide) (price : Int) (quantity : Int)
    (timestamp : Nat) (priority seqNum : Nat) (isLastInBatch : Bool) :
    (0 < seqNum ∧ seqNum < lastSeqNum book ∨
      ∃ order ∈ restingOrders book .buy ++ restingOrders book .sell, order.orderId = orderId) →
    addOrder book orderId side price quantity timestamp priority seqNum isLastInBatch =
      .discarded book
  modifyOrder_discarded (book : β) (orderId : Nat) (newPrice : Int) (newQuantity : Int)
    (timestamp : Nat) (priority seqNum : Nat) (isLastInBatch : Bool) :
    (0 < seqNum ∧ seqNum < lastSeqNum book ∨
      ∀ order ∈ restingOrders book .buy ++ restingOrders book .sell, order.orderId ≠ orderId) →
    modifyOrder book orderId newPrice newQuantity timestamp priority seqNum isLastInBatch =
      .discarded book
  deleteOrder_discarded (book : β) (orderId : Nat) (timestamp : Nat) (seqNum : Nat)
    (isLastInBatch : Bool) :
    (0 < seqNum ∧ seqNum < lastSeqNum book ∨
      ∀ order ∈ restingOrders book .buy ++ restingOrders book .sell, order.orderId ≠ orderId) →
    deleteOrder book orderId timestamp seqNum isLastInBatch = .discarded book
  executeOrder_discarded (book : β) (orderId : Nat) (executedQuantity : Int) (timestamp : Nat)
    (seqNum : Nat) (isLastInBatch : Bool) :
    (0 < seqNum ∧ seqNum < lastSeqNum book ∨
      ∀ order ∈ restingOrders book .buy ++ restingOrders book .sell, order.orderId ≠ orderId) →
    executeOrder book orderId executedQuantity timestamp seqNum isLastInBatch = .discarded book
  -- Accepted mutations.
  addOrder_accepted (book : β) (order : BookOrder) (timestamp : Nat) (priority seqNum : Nat)
    (isLastInBatch : Bool) :
    ¬ (0 < seqNum ∧ seqNum < lastSeqNum book) →
    (∀ other ∈ restingOrders book .buy ++ restingOrders book .sell,
      other.orderId ≠ order.orderId) →
    0 < order.quantity → order.priority = effectivePriority priority timestamp →
    let result := addOrder book order.orderId order.side order.price order.quantity timestamp
      priority seqNum isLastInBatch
    result.accepted = true ∧ lastSeqNum result.book = max (lastSeqNum book) seqNum ∧
      Inserts order (restingOrders book order.side) (restingOrders result.book order.side) ∧
      restingOrders result.book order.side.opposite = restingOrders book order.side.opposite ∧
      result.orderUpdates = [order.added timestamp]
  modifyOrder_zero (book : β) (orderId : Nat) (newPrice : Int) (timestamp : Nat)
    (priority seqNum : Nat) (isLastInBatch : Bool) :
    modifyOrder book orderId newPrice 0 timestamp priority seqNum isLastInBatch =
      deleteOrder book orderId timestamp seqNum isLastInBatch
  modifyOrder_accepted (book : β) (order next : BookOrder) (timestamp : Nat)
    (priority seqNum : Nat) (isLastInBatch : Bool) :
    ¬ (0 < seqNum ∧ seqNum < lastSeqNum book) → order ∈ restingOrders book order.side →
    0 < next.quantity → next.orderId = order.orderId → next.side = order.side →
    next.priority = effectivePriority priority timestamp →
    let result := modifyOrder book order.orderId next.price next.quantity timestamp priority seqNum
      isLastInBatch
    lastSeqNum result.book = max (lastSeqNum book) seqNum ∧
      (if order.price = next.price ∧ order.priority = next.priority then
        restingOrders result.book order.side =
          setKey BookOrder.orderId order.orderId (fun _ => next) (restingOrders book order.side)
      else
        Inserts next (eraseKey BookOrder.orderId order.orderId (restingOrders book order.side))
          (restingOrders result.book order.side)) ∧
      restingOrders result.book order.side.opposite = restingOrders book order.side.opposite ∧
      result.orderUpdates = if next = order then [] else [order.changed next timestamp]
  deleteOrder_accepted (book : β) (order : BookOrder) (timestamp : Nat) (seqNum : Nat)
    (isLastInBatch : Bool) :
    ¬ (0 < seqNum ∧ seqNum < lastSeqNum book) → order ∈ restingOrders book order.side →
    let result := deleteOrder book order.orderId timestamp seqNum isLastInBatch
    result.accepted = true ∧ lastSeqNum result.book = max (lastSeqNum book) seqNum ∧
      restingOrders result.book order.side =
        eraseKey BookOrder.orderId order.orderId (restingOrders book order.side) ∧
      restingOrders result.book order.side.opposite = restingOrders book order.side.opposite ∧
      result.orderUpdates = [order.removed timestamp]
  executeOrder_accepted (book : β) (order : BookOrder) (executedQuantity : Int)
    (timestamp : Nat) (seqNum : Nat) (isLastInBatch : Bool) :
    ¬ (0 < seqNum ∧ seqNum < lastSeqNum book) → order ∈ restingOrders book order.side →
    0 < executedQuantity → executedQuantity ≤ order.quantity →
    let result := executeOrder book order.orderId executedQuantity timestamp seqNum isLastInBatch
    let next := { order with quantity := order.quantity - executedQuantity }
    result.accepted = true ∧ lastSeqNum result.book = max (lastSeqNum book) seqNum ∧
      restingOrders result.book order.side.opposite = restingOrders book order.side.opposite ∧
      if executedQuantity = order.quantity then
        restingOrders result.book order.side =
            eraseKey BookOrder.orderId order.orderId (restingOrders book order.side) ∧
          result.orderUpdates = [order.removed timestamp]
      else
        restingOrders result.book order.side =
            setKey BookOrder.orderId order.orderId (fun _ => next) (restingOrders book order.side) ∧
          result.orderUpdates = [order.changed next timestamp]
  -- What the observers are told about levels, whatever the mutation was.
  addOrder_tells (book : β) (orderId : Nat) (side : BookSide) (price : Int) (quantity : Int)
    (timestamp : Nat) (priority seqNum : Nat) (isLastInBatch : Bool) :
    (addOrder book orderId side price quantity timestamp priority seqNum isLastInBatch).TellsLevels
      restingOrders book orderId
  modifyOrder_tells (book : β) (orderId : Nat) (newPrice : Int) (newQuantity : Int)
    (timestamp : Nat) (priority seqNum : Nat) (isLastInBatch : Bool) :
    (modifyOrder book orderId newPrice newQuantity timestamp priority seqNum isLastInBatch).TellsLevels
      restingOrders book orderId
  deleteOrder_tells (book : β) (orderId : Nat) (timestamp : Nat) (seqNum : Nat) (isLastInBatch : Bool) :
    (deleteOrder book orderId timestamp seqNum isLastInBatch).TellsLevels restingOrders book orderId
  executeOrder_tells (book : β) (orderId : Nat) (executedQuantity : Int) (timestamp : Nat)
    (seqNum : Nat) (isLastInBatch : Bool) :
    (executeOrder book orderId executedQuantity timestamp seqNum isLastInBatch).TellsLevels
      restingOrders book orderId

structure PriceLevelL3 where
  price : Int
  orders : List BookOrder
deriving DecidableEq, Repr

def PriceLevelL3.totalQuantity (level : PriceLevelL3) : Int :=
  (level.orders.map BookOrder.quantity).sum

/-- Cuts a side into levels where the price changes. -/
def priceLevels : List BookOrder → List PriceLevelL3
  | [] => []
  | order :: rest =>
      match priceLevels rest with
      | [] => [⟨order.price, [order]⟩]
      | level :: levels =>
          if level.price = order.price then ⟨order.price, order :: level.orders⟩ :: levels
          else ⟨order.price, [order]⟩ :: level :: levels

namespace OrderBookL3

variable {β : Type} [OrderBookL3 β]

def allOrders (book : β) : List BookOrder :=
  restingOrders book .buy ++ restingOrders book .sell

def getLevelsL3 (book : β) (side : BookSide) : List PriceLevelL3 :=
  priceLevels (restingOrders book side)

def getBestLevel (book : β) (side : BookSide) : Option PriceLevelL3 :=
  (getLevelsL3 book side).head?

def getLevel (book : β) (side : BookSide) (price : Int) : Option PriceLevelL3 :=
  (getLevelsL3 book side).find? fun level => level.price = price

/-- `OrderBookL3::findOrder`, which answers for every resting order. -/
def findOrder (book : β) (orderId : Nat) : Option BookOrder :=
  (allOrders book).find? fun order => order.orderId = orderId

/-- A mutation stamped so is discarded. -/
def Regresses (book : β) (seqNum : Nat) : Prop :=
  0 < seqNum ∧ seqNum < lastSeqNum book

instance (book : β) (seqNum : Nat) : Decidable (Regresses book seqNum) :=
  inferInstanceAs (Decidable (_ ∧ _))

end OrderBookL3

end SlickSim
