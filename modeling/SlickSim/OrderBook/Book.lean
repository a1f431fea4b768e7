import Mathlib.Data.List.AList
import SlickSim.OrderBook.L3

/-!
# The simulator's order book

`OrderBook` sits on an L3 book and adds the three lookup maps of the simulator's
own orders, the phantom totals kept from observer callbacks, and the order pool.
Pooled orders are named by their slot in the pool, and `heap` is what every slot
holds, a freed one included. The two update caches belong to the symbol; they
stand here because the same callbacks fill them.

The counters every book of the process draws from are in `Globals`.
-/

set_option autoImplicit false

namespace SlickSim

structure Environment where
  uuid : Nat → Name
  clock : Nat → Nat
  /-- What the slot of the n-th response held before it was reserved. -/
  slot : Nat → OrderResponse
  /-- `ObjectPool::allocate`, given the objects that are out. -/
  pool : List Nat → Nat
  uuid_length : ∀ draw, (uuid draw).bytes.length = 36
  pool_fresh : ∀ live, pool live ∉ live

structure Globals where
  nextPriority : Nat
  nextOrderId : Nat
  nextTradeId : Nat
  uuidDraws : Nat
  clockReads : Nat
deriving DecidableEq, Repr

def Globals.initial : Globals :=
  { nextPriority := 0, nextOrderId := 1, nextTradeId := 1, uuidDraws := 0, clockReads := 0 }

structure OrderBook (β : Type) where
  l3 : β
  orders : AList (fun _ : Nat => Nat)
  ordersByClientOrderId : AList (fun _ : Name => Nat)
  ordersByOrderId : AList (fun _ : Name => Nat)
  feedMdLevelQuantity : AList (fun _ : Int => Int)
  heap : Nat → Order
  live : List Nat
  doubleFreed : Bool
  lastUpdateTime : Nat
  lastSeqNum : Nat
  mdLevelUpdateCache : List MDLevel
  mdOrderUpdateCache : List MDOrder
  /-- The orders that joined a price level, in the order they did. The source keeps
  no such record; it is the history queue positions are compared with. -/
  joins : List Nat
  /-- Whether the L3 book has declined a mutation. The source keeps no record of it:
  the mutation is lost. -/
  declined : Bool
  /-- What the observers were told since the book was last cleared. The source keeps
  neither record; what is published is compared with them. -/
  orderTrail : List OrderUpdate
  levelTrail : List PriceLevelUpdate
  globals : Globals

/-- `unordered_map::emplace`, which leaves an entry that is there. -/
def emplace {κ : Type} [DecidableEq κ] {ν : Type} (map : AList (fun _ : κ => ν)) (key : κ) (value : ν) :
    AList (fun _ : κ => ν) :=
  match map.lookup key with
  | some _ => map
  | none => map.insert key value

namespace OrderBook

variable {β : Type}

def findOrder (book : OrderBook β) (id : Nat) : Option Nat :=
  book.orders.lookup id

def findOrderByClientOrderId (book : OrderBook β) (clientOrderId : Name) : Option Nat :=
  book.ordersByClientOrderId.lookup clientOrderId

def findOrderByOrderId (book : OrderBook β) (orderId : Name) : Option Nat :=
  book.ordersByOrderId.lookup orderId

/-- The quantity of a price excluding the simulator's orders. -/
def getMDLevelQty (book : OrderBook β) (price : Int) : Int :=
  (book.feedMdLevelQuantity.lookup price).getD 0

def updateOrder (book : OrderBook β) (ref : Nat) (change : Order → Order) : OrderBook β :=
  { book with heap := Function.update book.heap ref (change (book.heap ref)) }

/-- Steps the priority sequence; the priority drawn is the new value. -/
def nextOrderPriority (book : OrderBook β) : OrderBook β :=
  { book with globals := { book.globals with nextPriority := book.globals.nextPriority + 1 } }

/-- Steps `utils::nextOrderId`; the id drawn is the value before. -/
def nextOrderId (book : OrderBook β) : OrderBook β :=
  { book with globals := { book.globals with nextOrderId := book.globals.nextOrderId + 1 } }

/-- Steps `MatchingEngine::nextTradeId`; the id drawn is the value before. -/
def nextTradeId (book : OrderBook β) : OrderBook β :=
  { book with globals := { book.globals with nextTradeId := book.globals.nextTradeId + 1 } }

def readClock (book : OrderBook β) : OrderBook β :=
  { book with globals := { book.globals with clockReads := book.globals.clockReads + 1 } }

/-- The time the next read of the clock returns. -/
def currentTime (book : OrderBook β) (env : Environment) : Nat :=
  env.clock book.globals.clockReads

def noteJoin (book : OrderBook β) (id : Nat) : OrderBook β :=
  { book with joins := book.joins ++ [id] }

def noteDeclined (book : OrderBook β) (declines : Prop) [Decidable declines] : OrderBook β :=
  { book with declined := decide declines || book.declined }

def setLastUpdate (book : OrderBook β) (timestamp seqNum : Nat) : OrderBook β :=
  { book with lastUpdateTime := timestamp, lastSeqNum := seqNum }

def clearCaches (book : OrderBook β) : OrderBook β :=
  { book with mdLevelUpdateCache := [], mdOrderUpdateCache := [] }

/-! ## Pool -/

def freeOrder (book : OrderBook β) (ref : Nat) : OrderBook β :=
  { book with
    live := book.live.erase ref
    doubleFreed := book.doubleFreed || decide (ref ∉ book.live) }

/-- The slot keeps what it held, apart from what a fresh order must have reset. -/
def allocateOrder (book : OrderBook β) (env : Environment) : Nat × OrderBook β :=
  let ref := env.pool book.live
  let now := book.currentTime env
  let order := { book.heap ref with
    orderId := env.uuid book.globals.uuidDraws
    id := book.globals.nextOrderId
    requestTag := 0
    createdTime := now
    lastUpdateTime := now }
  (ref,
    { book with
      heap := Function.update book.heap ref (order.resetFillAccounting 0)
      live := ref :: book.live
      globals := { book.globals with
        nextOrderId := book.globals.nextOrderId + 1
        uuidDraws := book.globals.uuidDraws + 1
        clockReads := book.globals.clockReads + 1 } })

/-! ## Observers -/

/-- Changes the total of a price, or starts it at the quantity of the update. -/
def putMDLevelQty (totals : AList (fun _ : Int => Int)) (price quantity change : Int) :
    AList (fun _ : Int => Int) :=
  match totals.lookup price with
  | some total => totals.insert price (total + change)
  | none => if quantity ≠ 0 then totals.insert price quantity else totals

/-- `OrderBook::onOrderUpdate` on a phantom order: the totals of its prices move. -/
def moveMDLevelQty (totals : AList (fun _ : Int => Int)) (update : OrderUpdate) :
    AList (fun _ : Int => Int) :=
  if update.price ≠ update.oldPrice then
    let totals :=
      match totals.lookup update.oldPrice with
      | some total => totals.insert update.oldPrice (total - update.oldQty)
      | none => totals
    putMDLevelQty totals update.price update.quantity update.quantity
  else putMDLevelQty totals update.price update.quantity (update.quantity - update.oldQty)

def onOrderUpdate (book : OrderBook β) (update : OrderUpdate) : OrderBook β :=
  match book.findOrder update.orderId with
  | none => { book with feedMdLevelQuantity := moveMDLevelQty book.feedMdLevelQuantity update }
  | some ref =>
      if update.quantity = 0 ∧ (book.heap ref).quantity ≠ update.quantity then
        book.updateOrder ref fun order => { order with leavesQuantity := 0 }
      else book

/-- `Symbol::onPriceLevelUpdate`. -/
def cacheLevelUpdate (moment : Nat) (update : PriceLevelUpdate) : MDLevel :=
  { eventTime := update.timestamp, seqNum := update.seqNum, price := update.price
    qty := update.quantity, numOrders := update.numOrders, levelIndex := update.levelIndex
    updateAction := .new, flags := { endEvent := update.lastInBatch }
    side := ofBookSide update.side, moment }

def cacheLevelUpdates (told : Nat) : List PriceLevelUpdate → List MDLevel
  | [] => []
  | update :: rest => cacheLevelUpdate (told + 1) update :: cacheLevelUpdates (told + 1) rest

/-- `Symbol::onOrderUpdate`. -/
def cacheOrderUpdate (update : OrderUpdate) : MDOrder :=
  { orderId := update.orderId, eventTime := update.timestamp, priority := update.priority
    price := update.price, qty := update.quantity, side := ofBookSide update.side
    updateAction :=
      if update.quantity = 0 then .delete
      else if update.oldQty = 0 ∧ update.oldPrice = 0 then .new
      else .change }

def absorb (book : OrderBook β) (result : L3Result β) : OrderBook β :=
  let cached := { book with
    l3 := result.book
    mdLevelUpdateCache := book.mdLevelUpdateCache ++
      cacheLevelUpdates book.levelTrail.length result.levelUpdates
    mdOrderUpdateCache := book.mdOrderUpdateCache ++ result.orderUpdates.map cacheOrderUpdate
    joins := book.joins ++ joinedIds result.orderUpdates
    orderTrail := book.orderTrail ++ result.orderUpdates
    levelTrail := book.levelTrail ++ result.levelUpdates }
  result.orderUpdates.foldl onOrderUpdate cached

/-! ## Mutators -/

def registerOrder (book : OrderBook β) (ref : Nat) : OrderBook β :=
  let order := book.heap ref
  { book with
    orders := emplace book.orders order.id ref
    ordersByClientOrderId :=
      if order.clientOrderId.isEmpty then book.ordersByClientOrderId
      else emplace book.ordersByClientOrderId order.clientOrderId ref
    ordersByOrderId :=
      if order.orderId.isEmpty then book.ordersByOrderId
      else emplace book.ordersByOrderId order.orderId ref }

def unregisterOrder (book : OrderBook β) (ref : Nat) : OrderBook β :=
  let order := book.heap ref
  { book with
    orders := book.orders.erase order.id
    ordersByClientOrderId :=
      if order.clientOrderId.isEmpty then book.ordersByClientOrderId
      else book.ordersByClientOrderId.erase order.clientOrderId
    ordersByOrderId :=
      if order.orderId.isEmpty then book.ordersByOrderId
      else book.ordersByOrderId.erase order.orderId }

def dropOrder (book : OrderBook β) (ref : Nat) : OrderBook β :=
  let book :=
    match book.findOrder (book.heap ref).id with
    | some _ => book.unregisterOrder ref
    | none => book
  book.freeOrder ref

variable [OrderBookL3 β]

/-- The quantity at a price of one side that is not the simulator's own. -/
def phantomQtyAt (book : OrderBook β) (side : BookSide) (price : Int) : Int :=
  ((OrderBookL3.restingOrders book.l3 side).map fun order =>
    if order.price = price ∧ (book.findOrder order.orderId).isNone then order.quantity else 0).sum

def addOrder (book : OrderBook β) (ref timestamp seqNum : Nat) (isLastInBatch : Bool) : OrderBook β :=
  let book := book.nextOrderPriority
  let book := book.updateOrder ref fun order => { order with priority := book.globals.nextPriority }
  let book := book.registerOrder ref
  let order := book.heap ref
  let book := book.noteDeclined ((OrderBookL3.findOrder book.l3 order.id).isSome ∨
    OrderBookL3.Regresses book.l3 seqNum)
  book.absorb (OrderBookL3.addOrder book.l3 order.id (toBookSide order.side) order.price
    order.leavesQuantity timestamp order.priority seqNum isLastInBatch)

def addL3Order (book : OrderBook β) (orderId : Nat) (side : BookSide) (price qty : Int)
    (timestamp priority seqNum : Nat) (isLastInBatch : Bool) : OrderBook β :=
  let book := book.noteDeclined (OrderBookL3.Regresses book.l3 seqNum)
  book.absorb
    (OrderBookL3.addOrder book.l3 orderId side price qty timestamp priority seqNum isLastInBatch)

def addBookOrder (book : OrderBook β) (orderId : Nat) (side : BookSide) (price qty : Int)
    (timestamp seqNum : Nat) (isLastInBatch : Bool) : OrderBook β :=
  let book := book.nextOrderPriority
  let book := book.noteDeclined (OrderBookL3.findOrder book.l3 orderId).isSome
  book.addL3Order orderId side price qty timestamp book.globals.nextPriority seqNum isLastInBatch

def deleteL3Order (book : OrderBook β) (orderId timestamp seqNum : Nat) (isLastInBatch : Bool) :
    OrderBook β :=
  let book := book.noteDeclined (OrderBookL3.Regresses book.l3 seqNum)
  book.absorb (OrderBookL3.deleteOrder book.l3 orderId timestamp seqNum isLastInBatch)

def modifyL3Order (book : OrderBook β) (orderId : Nat) (newPrice newQty : Int)
    (timestamp priority seqNum : Nat) (isLastInBatch : Bool) : OrderBook β :=
  let book := book.noteDeclined (OrderBookL3.findOrder book.l3 orderId = none ∨
    OrderBookL3.Regresses book.l3 seqNum)
  book.absorb (OrderBookL3.modifyOrder book.l3 orderId newPrice newQty timestamp priority seqNum
    isLastInBatch)

def deleteOrder (book : OrderBook β) (ref timestamp seqNum : Nat) (isLastInBatch : Bool) :
    OrderBook β :=
  let book := book.deleteL3Order (book.heap ref).id timestamp seqNum isLastInBatch
  match book.findOrder (book.heap ref).id with
  | some _ => book.unregisterOrder ref
  | none => book

def modifyOrder (book : OrderBook β) (ref : Nat) (newPrice newQty : Int) (timestamp seqNum : Nat)
    (isLastInBatch : Bool) : OrderBook β :=
  let requeue (book : OrderBook β) : OrderBook β :=
    let book := book.nextOrderPriority
    book.updateOrder ref fun order =>
      { order with price := newPrice, priority := book.globals.nextPriority }
  let found := book.findOrder (book.heap ref).id
  let book :=
    match found with
    | none => if newQty ≠ 0 then (requeue book).registerOrder ref else requeue book
    | some _ => if newPrice ≠ (book.heap ref).price then requeue book else book
  let registered := found.isSome || decide (newQty ≠ 0)
  let book := book.updateOrder ref fun order => { order with quantity := newQty }
  let order := book.heap ref
  let book := book.modifyL3Order order.id newPrice order.leavesQuantity timestamp order.priority
    seqNum isLastInBatch
  if (book.heap ref).leavesQuantity = 0 ∧ registered = true then book.unregisterOrder ref else book

/-- Clears the phantom orders, then enters the simulator's orders again. -/
def clearMDOrders (book : OrderBook β) : OrderBook β :=
  let simOrders := book.orders.entries.filterMap fun entry =>
    let order := book.heap entry.2
    if 0 < order.leavesQuantity then some (entry.1, order) else none
  let cleared := { book with
    l3 := OrderBookL3.clear book.l3, feedMdLevelQuantity := ∅, orderTrail := [], levelTrail := [] }
  let rebuilt := simOrders.foldl (fun book entry => book.addL3Order entry.1 (toBookSide entry.2.side)
    entry.2.price entry.2.leavesQuantity entry.2.lastUpdateTime entry.2.priority 0 false) cleared
  -- An order that is entered again has not joined anew.
  { rebuilt with joins := book.joins }

/-- Books the fill onto our own order before the L3 book takes it, because the
observer zeroes the leaves on a full execution. Returns whether the book took it. -/
def executeOrder (book : OrderBook β) (orderId : Nat) (executedQuantity : Int)
    (timestamp seqNum : Nat) (isLastInBatch : Bool) : Bool × OrderBook β :=
  if 0 < seqNum ∧ seqNum < OrderBookL3.lastSeqNum book.l3 then (false, book.noteDeclined True)
  else
    let found := book.findOrder orderId
    let book :=
      match found with
      | some ref => book.updateOrder ref fun order =>
          order.execute order.price executedQuantity timestamp
      | none => book
    let result := OrderBookL3.executeOrder book.l3 orderId executedQuantity timestamp seqNum
      isLastInBatch
    let book := (book.noteDeclined (result.accepted = false)).absorb result
    let book :=
      match found with
      | some ref => if (book.heap ref).leavesQuantity = 0 then book.unregisterOrder ref else book
      | none => book
    (result.accepted, book)

def new (pool : Nat → Order) : OrderBook β :=
  { l3 := OrderBookL3.empty, orders := ∅, ordersByClientOrderId := ∅, ordersByOrderId := ∅
    feedMdLevelQuantity := ∅, heap := pool, live := [], doubleFreed := false, lastUpdateTime := 0
    lastSeqNum := 0, mdLevelUpdateCache := [], mdOrderUpdateCache := [], joins := []
    declined := false, orderTrail := [], levelTrail := [], globals := Globals.initial }

end OrderBook

end SlickSim
