import SlickSim.OrderBook.L3

/-!
# What a subscriber rebuilds

A subscriber of the order-by-order data holds the orders it was told of, and one
of the level data holds a quantity for each level. Order rows may not fit what
the subscriber holds, and then there is nothing to rebuild.
-/

set_option autoImplicit false

namespace SlickSim

/-- `NEW` needs an id that is free, `CHANGE` and `DELETE` one that is there. -/
def MDOrder.apply (row : MDOrder) (orders : Nat → Option BookOrder) : Option (Nat → Option BookOrder) :=
  match row.updateAction, orders row.orderId with
  | .new, none => some (Function.update orders row.orderId (some
      { orderId := row.orderId, side := toBookSide row.side, price := row.price, quantity := row.qty
        priority := row.priority }))
  | .change, some order => some (Function.update orders row.orderId (some
      { order with price := row.price, quantity := row.qty, priority := row.priority }))
  | .delete, some _ => some (Function.update orders row.orderId none)
  | _, _ => none

/-- The rows of the order frames in turn. -/
def replayOrders (rows : List MDOrder) (orders : Nat → Option BookOrder) :
    Option (Nat → Option BookOrder) :=
  rows.foldlM (fun orders row => row.apply orders) orders

@[simp] theorem replayOrders_nil (orders : Nat → Option BookOrder) : replayOrders [] orders = some orders :=
  rfl

@[simp] theorem replayOrders_singleton (row : MDOrder) (orders : Nat → Option BookOrder) :
    replayOrders [row] orders = row.apply orders := by
  simp [replayOrders]

theorem replayOrders_append {first later : List MDOrder} {orders between : Nat → Option BookOrder}
    (replayed : replayOrders first orders = some between) :
    replayOrders (first ++ later) orders = replayOrders later between := by
  unfold replayOrders at replayed ⊢
  rw [List.foldlM_append, replayed]
  rfl

/-- A row of a level frame. A quantity of 0 deletes the level. -/
def MDLevel.apply (levels : BookSide → Int → Option Int) (row : MDLevel) : BookSide → Int → Option Int :=
  fun side price =>
    if side = toBookSide row.side ∧ price = row.price then if row.qty = 0 then none else some row.qty
    else levels side price

def replayLevels (rows : List MDLevel) (levels : BookSide → Int → Option Int) :
    BookSide → Int → Option Int :=
  rows.foldl MDLevel.apply levels

end SlickSim
