import SlickSim.OrderBook.Reference
import SlickSim.Ledger.Reachable

/-!
# The book is represented by its maps and its pool

In every reachable state the lookup maps, the pool and the L3 book tell of the
same orders, whatever requests and feed events came in what order.
-/

set_option autoImplicit false

namespace SlickSim

open OrderBookL3 (allOrders findOrder)

namespace Exchange

variable {β : Type} [OrderBookL3 β] {env : Environment} {config : SymbolConfig}
  {exchange : Exchange β} {allowed : Exchange β → Input → Prop}

structure Represented (exchange : Exchange β) : Prop where
  /-- The keys of `orders_` are the ids of clients' orders that rest in the L3 book. -/
  keys : ∀ id, (exchange.book.orders.lookup id).isSome = true ↔
    exchange.Reported id ∧ ∃ order ∈ allOrders exchange.book.l3, order.orderId = id
  byClient : ∀ name ref, exchange.book.ordersByClientOrderId.lookup name = some ref ↔
    name.isEmpty = false ∧ (∃ id, exchange.book.orders.lookup id = some ref) ∧
      (exchange.book.heap ref).clientOrderId = name
  byOrder : ∀ name ref, exchange.book.ordersByOrderId.lookup name = some ref ↔
    name.isEmpty = false ∧ (∃ id, exchange.book.orders.lookup id = some ref) ∧
      (exchange.book.heap ref).orderId = name
  data : ∀ id ref, exchange.book.orders.lookup id = some ref →
    (exchange.book.heap ref).id = id ∧
    ∃ entry, findOrder exchange.book.l3 id = some entry ∧
      toBookSide (exchange.book.heap ref).side = entry.side ∧
      (exchange.book.heap ref).price = entry.price ∧
      (exchange.book.heap ref).leavesQuantity = entry.quantity ∧
      (exchange.book.heap ref).priority = entry.priority ∧
      0 < (exchange.book.heap ref).leavesQuantity ∧
      (exchange.book.heap ref).quantity =
        (exchange.book.heap ref).leavesQuantity + (exchange.book.heap ref).cumQuantity
  /-- The orders out of the pool are the values of `orders_`, each out once. -/
  pool : ∀ ref, ref ∈ exchange.book.live ↔ ∃ id, exchange.book.orders.lookup id = some ref
  outOnce : exchange.book.live.Nodup
  freedOnce : exchange.book.doubleFreed = false

/-- An order is in the maps if some id leads to it. -/
private theorem registered_iff {ledger : Ledger} {ref : Nat} (inv : ledger.Represents .none) :
    ledger.Registered ref ↔ ∃ id, ledger.owner id = some ref := by
  constructor
  · exact fun inside => ⟨_, inside⟩
  · rintro ⟨id, ours⟩
    exact inv.indexed.registered ours

theorem represented_of_represents (inv : exchange.ledger.Represents .none) : exchange.Represented where
  keys := by
    intro id
    constructor
    · intro ours
      obtain ⟨ref, ours⟩ := Option.isSome_iff_exists.mp ours
      have inside : exchange.ledger.Registered ref := inv.indexed.registered ours
      have sameId : (exchange.ledger.heap ref).id = id := inv.indexed.owner_id ours
      obtain ⟨rests, -⟩ := (inv.agrees.at_ ref).rests inside (by rintro ⟨⟩)
      obtain ⟨member, -⟩ := OrderBookL3.findOrder_eq_some.mp rests
      refine ⟨?_, _, member, sameId⟩
      have owned := inv.indexed.registered_owned inside
      rw [sameId] at owned
      exact owned
    · rintro ⟨owned, order, member, rfl⟩
      have rests : exchange.ledger.entry order.orderId = some order :=
        OrderBookL3.findOrder_eq_some.mpr ⟨member, rfl⟩
      obtain ⟨ref, ours⟩ := inv.indexed.entry_owned rests owned
      exact Option.isSome_iff_exists.mpr ⟨ref, ours⟩
  byClient := by
    intro name ref
    have names := @Ledger.Indexed.byClient_iff _ _ inv.indexed name ref
    rw [registered_iff inv] at names
    exact names
  byOrder := by
    intro name ref
    have names := @Ledger.Indexed.byOrder_iff _ _ inv.indexed name ref
    rw [registered_iff inv] at names
    exact names
  data := by
    intro id ref ours
    obtain rfl : (exchange.ledger.heap ref).id = id := inv.indexed.owner_id ours
    obtain ⟨rests, left, whole⟩ :=
      (inv.agrees.at_ ref).rests (inv.indexed.registered ours) (by rintro ⟨⟩)
    exact ⟨rfl, _, rests, rfl, rfl, rfl, rfl, left, whole⟩
  pool := by
    intro ref
    have out := @Ledger.Indexed.live_iff _ _ inv.indexed ref
    rw [registered_iff inv] at out
    refine out.trans ⟨?_, .inl⟩
    rintro (inside | held)
    · exact inside
    · cases held
  outOnce := inv.indexed.live_nodup
  freedOnce := inv.indexed.freedOnce

/-- Whatever reaches a symbol, its book stays represented by its maps and its pool. -/
theorem represented_of_reachable (reachable : Reachable env config allowed exchange) :
    exchange.Represented :=
  represented_of_represents reachable.represents.1

/-- A bid is partly filled by an offer, then amended to a smaller quantity. -/
theorem represented_partlyFilled :
    ((Exchange.new (fun _ => default) true : Exchange ReferenceBook).run (.counted fun _ => default)
      (.reference .cancelResting) [.limit 1 .buy 100 10, .limit 2 .sell 100 4, .reprice 1 100 8]).Represented :=
  have start : Reachable (.counted fun _ => default) (.reference .cancelResting) (fun _ _ => True)
      (Exchange.new (fun _ => default) true : Exchange ReferenceBook) := .new _ _
  represented_of_reachable (start.run (by decide +kernel))

end Exchange

end SlickSim
