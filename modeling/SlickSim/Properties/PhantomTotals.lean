import SlickSim.OrderBook.Reference
import SlickSim.Ledger.Reachable

/-!
# Phantom totals are exact

The totals are kept from the observers' calls, which tell phantom orders from the
simulator's own by looking the id up while the call is made. In every reachable
state they are nevertheless what the L3 book holds.
-/

set_option autoImplicit false

namespace SlickSim.Exchange

variable {β : Type} [OrderBookL3 β] {env : Environment} {config : SymbolConfig}
  {exchange : Exchange β} {allowed : Exchange β → Input → Prop}

/-- Whatever reaches a symbol, the total of a price is the quantity of the orders that
rest there and are not the simulator's own. -/
theorem getMDLevelQty_of_reachable (reachable : Reachable env config allowed exchange) (price : Int) :
    exchange.book.getMDLevelQty price =
        ((exchange.book.phantomOrders price).map BookOrder.quantity).sum ∧
      0 ≤ exchange.book.getMDLevelQty price := by
  obtain ⟨inv, totalled⟩ := reachable.represents
  exact ⟨OrderBook.getMDLevelQty_eq inv totalled price, totalled.nonneg inv price⟩

/-- A client bid joins a level the venue shows, and an offer takes part of both. -/
theorem getMDLevelQty_sharedLevel :
    let exchange := (Exchange.new (fun _ => default) true : Exchange ReferenceBook).run
      (.counted fun _ => default) (.reference .cancelResting)
      [.level2Snapshot 1 [{ side := .buy, price := 100, newQuantity := 5, eventTime := 1
                            newQuantity_nonneg := by decide }],
        .limit 1 .buy 100 4, .limit 2 .sell 100 3]
    exchange.book.getMDLevelQty 100 = ((exchange.book.phantomOrders 100).map BookOrder.quantity).sum ∧
      0 ≤ exchange.book.getMDLevelQty 100 := by
  have start : Reachable (.counted fun _ => default) (.reference .cancelResting) (fun _ _ => True)
      (Exchange.new (fun _ => default) true : Exchange ReferenceBook) := .new _ _
  exact getMDLevelQty_of_reachable (start.run (by decide +kernel)) 100

end SlickSim.Exchange
