import SlickSim.Ledger.Preservation
import SlickSim.Ledger.Refinement

/-!
# Book operations on a represented ledger

One lemma for each mutator of `OrderBook`: what it does to the ledger of the
book, and that the stamp it was given is still current afterwards. The observer
that clears the leaves of a removed order shows up here once.
-/

set_option autoImplicit false

namespace SlickSim

open OrderBookL3 (Regresses afterExecution)

namespace Ledger

variable {ledger : Ledger} {ref id timestamp : Nat} {resting next : BookOrder}

theorem updateOrder_same {change : Order → Order} (same : change (ledger.heap ref) = ledger.heap ref) :
    ledger.updateOrder ref change = ledger := by
  unfold updateOrder
  rw [same, Function.update_eq_self]

theorem withoutLeaves_of_drained {order : Order} (drained : order.leavesQuantity = 0) :
    order.withoutLeaves = order := by
  unfold Order.withoutLeaves
  rw [← drained]

theorem setEntry_removed (ours : ledger.owner id = some ref) (rests : ledger.entry id = some resting)
    (keyed : resting.orderId = id) (sized : (ledger.heap ref).quantity ≠ 0) :
    ledger.setEntry id none timestamp =
      (ledger.placeEntry id none timestamp).updateOrder ref Order.withoutLeaves := by
  unfold setEntry
  rw [rests]
  show onOrderUpdate _ (resting.removed timestamp) = _
  have found : (ledger.placeEntry id none timestamp).owner (resting.removed timestamp).orderId =
      some ref := by
    show ledger.owner resting.orderId = some ref
    rw [keyed, ours]
  unfold onOrderUpdate
  rw [found]
  exact if_pos ⟨rfl, sized⟩

theorem setEntry_kept (ours : ledger.owner id = some ref) (positive : 0 < next.quantity)
    (keyed : next.orderId = id) (keyedBefore : ∀ order, ledger.entry id = some order → order.orderId = id) :
    ledger.setEntry id (some next) timestamp = ledger.placeEntry id (some next) timestamp := by
  have quiet : ∀ update : OrderUpdate, update.orderId = id → update.quantity = next.quantity →
      (ledger.placeEntry id (some next) timestamp).onOrderUpdate update =
        ledger.placeEntry id (some next) timestamp := by
    intro update same quantity
    unfold onOrderUpdate
    rw [same, show (ledger.placeEntry id (some next) timestamp).owner id = some ref from ours]
    apply if_neg
    omega
  unfold setEntry
  cases before : ledger.entry id with
  | none => exact quiet (next.added timestamp) keyed rfl
  | some order =>
      unfold exchangeUpdates
      dsimp only
      split
      · rfl
      · exact quiet (order.changed next timestamp) (keyedBefore order before) rfl

/-- An order with no leaves leaves the book: there is nothing for the observer to clear. -/
theorem setEntry_drained (ours : ledger.owner id = some ref)
    (keyed : ∀ order, ledger.entry id = some order → order.orderId = id)
    (drained : (ledger.heap ref).leavesQuantity = 0) :
    ledger.setEntry id none timestamp = ledger.placeEntry id none timestamp := by
  unfold setEntry
  cases rests : ledger.entry id with
  | none => rfl
  | some resting =>
      show onOrderUpdate _ (resting.removed timestamp) = _
      have found : (ledger.placeEntry id none timestamp).owner (resting.removed timestamp).orderId =
          some ref := by
        show ledger.owner resting.orderId = some ref
        rw [keyed resting rests, ours]
      unfold onOrderUpdate
      rw [found]
      dsimp only
      split
      · exact updateOrder_same (withoutLeaves_of_drained drained)
      · rfl

theorem setEntry_absent (absent : ledger.entry id = none) :
    ledger.setEntry id none timestamp = ledger := by
  unfold setEntry placeEntry
  rw [absent]
  simp [exchangeUpdates, joinedIds, ← absent]

end Ledger

namespace OrderBook

variable {β : Type} [OrderBookL3 β] {book : OrderBook β} {responses : List OrderResponse}
  {id ref timestamp priority seqNum : Nat} {isLast : Bool} {resting : BookOrder}

theorem absorb_current {result : L3Result β} {next : Option BookOrder}
    (current : ¬ Regresses book.l3 seqNum)
    (exchanged : result.Exchanges book.l3 id next timestamp seqNum) :
    ¬ Regresses (book.absorb result).l3 seqNum := by
  rw [absorb_l3]
  have bound := exchanged.sequence
  unfold Regresses at current ⊢
  omega

/-! ## The inherited mutators -/

private theorem found_of_entry (rests : (book.ledger responses).entry id = some resting) :
    OrderBookL3.findOrder book.l3 id ≠ none := by
  intro lost
  cases lost.symm.trans rests

theorem deleteL3Order_ledger (responses : List OrderResponse) (id timestamp : Nat) (isLast : Bool)
    (current : ¬ Regresses book.l3 seqNum) :
    (book.deleteL3Order id timestamp seqNum isLast).ledger responses =
        (book.ledger responses).setEntry id none timestamp ∧
      ¬ Regresses (book.deleteL3Order id timestamp seqNum isLast).l3 seqNum := by
  have exchanged : (OrderBookL3.deleteOrder book.l3 id timestamp seqNum isLast).Exchanges book.l3 id
      none timestamp seqNum := OrderBookL3.deleteOrder_exchanges current
  unfold deleteL3Order
  dsimp only
  rw [noteDeclined_of_not current]
  exact ⟨absorb_ledger responses exchanged, absorb_current current exchanged⟩

theorem addL3Order_ledger (responses : List OrderResponse) (order : BookOrder) (isLast : Bool)
    (current : ¬ Regresses book.l3 seqNum) (absent : (book.ledger responses).entry order.orderId = none)
    (positive : 0 < order.quantity) (ranked : order.priority = effectivePriority priority timestamp) :
    (book.addL3Order order.orderId order.side order.price order.quantity timestamp priority seqNum
          isLast).ledger responses =
        (book.ledger responses).setEntry order.orderId (some order) timestamp ∧
      ¬ Regresses (book.addL3Order order.orderId order.side order.price order.quantity timestamp
        priority seqNum isLast).l3 seqNum := by
  have exchanged : (OrderBookL3.addOrder book.l3 order.orderId order.side order.price order.quantity
      timestamp priority seqNum isLast).Exchanges book.l3 order.orderId (some order) timestamp
      seqNum := OrderBookL3.addOrder_exchanges current absent positive ranked
  unfold addL3Order
  dsimp only
  rw [noteDeclined_of_not current]
  exact ⟨absorb_ledger responses exchanged, absorb_current current exchanged⟩

/-- Under a free id, `addBookOrder` only draws the priority. -/
theorem addBookOrder_eq {side : BookSide} {price qty : Int}
    (absent : (book.ledger responses).entry id = none) :
    book.addBookOrder id side price qty timestamp seqNum isLast =
      book.nextOrderPriority.addL3Order id side price qty timestamp (book.globals.nextPriority + 1)
        seqNum isLast := by
  unfold addBookOrder
  dsimp only
  rw [noteDeclined_of_not]
  · rfl
  · exact Option.not_isSome_iff_eq_none.mpr absent

theorem addL3Order_taken {side : BookSide} {price qty : Int} (current : ¬ Regresses book.l3 seqNum)
    (taken : (book.ledger responses).entry id = some resting) :
    (book.addL3Order id side price qty timestamp priority seqNum isLast).ledger responses =
      book.ledger responses := by
  unfold addL3Order
  dsimp only
  rw [noteDeclined_of_not current,
    OrderBookL3.addOrder_taken (show OrderBookL3.findOrder book.l3 id = some resting from taken)]
  exact absorb_discarded

theorem modifyL3Order_ledger (responses : List OrderResponse) (order next : BookOrder) (isLast : Bool)
    (current : ¬ Regresses book.l3 seqNum)
    (rests : (book.ledger responses).entry order.orderId = some order) (positive : 0 < next.quantity)
    (sameId : next.orderId = order.orderId) (sameSide : next.side = order.side)
    (ranked : next.priority = effectivePriority priority timestamp) :
    (book.modifyL3Order order.orderId next.price next.quantity timestamp priority seqNum
          isLast).ledger responses =
        (book.ledger responses).setEntry order.orderId (some next) timestamp ∧
      ¬ Regresses (book.modifyL3Order order.orderId next.price next.quantity timestamp priority
        seqNum isLast).l3 seqNum := by
  have exchanged : (OrderBookL3.modifyOrder book.l3 order.orderId next.price next.quantity timestamp
      priority seqNum isLast).Exchanges book.l3 order.orderId (some next) timestamp seqNum :=
    OrderBookL3.modifyOrder_exchanges current rests positive sameId sameSide ranked
  unfold modifyL3Order
  dsimp only
  rw [noteDeclined_of_not (not_or.mpr ⟨found_of_entry rests, current⟩)]
  exact ⟨absorb_ledger responses exchanged, absorb_current current exchanged⟩

/-- A quantity of 0 takes the order out. -/
theorem modifyL3Order_zero (responses : List OrderResponse) (price : Int)
    (timestamp priority : Nat) (isLast : Bool) (current : ¬ Regresses book.l3 seqNum)
    (rests : (book.ledger responses).entry id = some resting) :
    (book.modifyL3Order id price 0 timestamp priority seqNum isLast).ledger responses =
        (book.ledger responses).setEntry id none timestamp ∧
      ¬ Regresses (book.modifyL3Order id price 0 timestamp priority seqNum isLast).l3 seqNum := by
  have deleted := deleteL3Order_ledger responses id timestamp isLast current
  unfold deleteL3Order at deleted
  unfold modifyL3Order
  dsimp only at deleted ⊢
  rw [noteDeclined_of_not current] at deleted
  rw [noteDeclined_of_not (not_or.mpr ⟨found_of_entry rests, current⟩), OrderBookL3.modifyOrder_zero]
  exact deleted

/-! ## Our own orders -/

theorem deleteOrder_ledger (timestamp : Nat) (isLast : Bool) (current : ¬ Regresses book.l3 seqNum)
    (registered : (book.ledger responses).Registered ref)
    (rests : (book.ledger responses).entry (book.heap ref).id = some resting)
    (keyed : resting.orderId = (book.heap ref).id) (sized : (book.heap ref).quantity ≠ 0) :
    (book.deleteOrder ref timestamp seqNum isLast).ledger responses =
        (((book.ledger responses).placeEntry (book.heap ref).id none timestamp).updateOrder ref
          Order.withoutLeaves).unregisterOrder ref ∧
      ¬ Regresses (book.deleteOrder ref timestamp seqNum isLast).l3 seqNum := by
  obtain ⟨deleted, still⟩ :=
    deleteL3Order_ledger responses (book.heap ref).id timestamp isLast current
  have ours : (book.ledger responses).owner (book.heap ref).id = some ref := registered
  rw [Ledger.setEntry_removed ours rests keyed sized] at deleted
  have heapIs : (book.deleteL3Order (book.heap ref).id timestamp seqNum isLast).heap ref =
      (book.heap ref).withoutLeaves := by
    have := congrArg (fun ledger => ledger.heap ref) deleted
    exact this.trans (Ledger.updateOrder_heap_self _)
  have found : (book.deleteL3Order (book.heap ref).id timestamp seqNum isLast).findOrder
      (book.heap ref).id = some ref := by
    have := congrArg (fun ledger => ledger.owner (book.heap ref).id) deleted
    exact this.trans registered
  unfold deleteOrder
  dsimp only
  rw [heapIs, show (book.heap ref).withoutLeaves.id = (book.heap ref).id from rfl, found]
  dsimp only
  rw [unregisterOrder_ledger, deleted]
  exact ⟨rfl, still⟩

section Execute

variable {qty : Int}

theorem executeOrder_phantom (isLast : Bool) (timestamp : Nat) (current : ¬ Regresses book.l3 seqNum)
    (rests : (book.ledger responses).entry resting.orderId = some resting)
    (phantom : (book.ledger responses).owner resting.orderId = none) (positive : 0 < qty)
    (within : qty ≤ resting.quantity) :
    (book.executeOrder resting.orderId qty timestamp seqNum isLast).1 = true ∧
      (book.executeOrder resting.orderId qty timestamp seqNum isLast).2.ledger responses =
        (book.ledger responses).setEntry resting.orderId (afterExecution resting qty) timestamp ∧
      ¬ Regresses (book.executeOrder resting.orderId qty timestamp seqNum isLast).2.l3 seqNum := by
  have exchanges : _ ∧ (OrderBookL3.executeOrder book.l3 resting.orderId qty timestamp seqNum
      isLast).Exchanges book.l3 resting.orderId (afterExecution resting qty) timestamp seqNum :=
    OrderBookL3.executeOrder_exchanges current rests positive within
  obtain ⟨accepted, exchanged⟩ := exchanges
  have absent : book.findOrder resting.orderId = none := phantom
  have executed : book.executeOrder resting.orderId qty timestamp seqNum isLast =
      let result := OrderBookL3.executeOrder book.l3 resting.orderId qty timestamp seqNum isLast
      (result.accepted, book.absorb result) := by
    unfold executeOrder
    rw [absent]
    refine (if_neg current).trans ?_
    dsimp only
    rw [noteDeclined_of_not (ne_false_of_eq_true accepted)]
  rw [executed]
  exact ⟨accepted, absorb_ledger responses exchanged, absorb_current current exchanged⟩

private theorem executeOrder_own (isLast : Bool) (timestamp : Nat)
    (current : ¬ Regresses book.l3 seqNum)
    (rests : (book.ledger responses).entry resting.orderId = some resting)
    (ours : (book.ledger responses).owner resting.orderId = some ref) (positive : 0 < qty)
    (within : qty ≤ resting.quantity) {filled : Ledger}
    (isFilled : filled = ((book.ledger responses).updateOrder ref fun order =>
      order.execute order.price qty timestamp).setEntry resting.orderId (afterExecution resting qty)
        timestamp) :
    (book.executeOrder resting.orderId qty timestamp seqNum isLast).1 = true ∧
      (book.executeOrder resting.orderId qty timestamp seqNum isLast).2.ledger responses =
        (if (filled.heap ref).leavesQuantity = 0 then filled.unregisterOrder ref else filled) ∧
      ¬ Regresses (book.executeOrder resting.orderId qty timestamp seqNum isLast).2.l3 seqNum := by
  let booked := book.updateOrder ref fun order => order.execute order.price qty timestamp
  have exchanges : _ ∧ (OrderBookL3.executeOrder booked.l3 resting.orderId qty timestamp seqNum
      isLast).Exchanges booked.l3 resting.orderId (afterExecution resting qty) timestamp seqNum :=
    OrderBookL3.executeOrder_exchanges current rests positive within
  obtain ⟨accepted, exchanged⟩ := exchanges
  let absorbed := booked.absorb (OrderBookL3.executeOrder booked.l3 resting.orderId qty timestamp
    seqNum isLast)
  have taken : absorbed.ledger responses = filled := by
    rw [isFilled]
    exact absorb_ledger responses exchanged
  have still : ¬ Regresses absorbed.l3 seqNum := absorb_current current exchanged
  have found : book.findOrder resting.orderId = some ref := ours
  have executed : book.executeOrder resting.orderId qty timestamp seqNum isLast =
      ((OrderBookL3.executeOrder booked.l3 resting.orderId qty timestamp seqNum isLast).accepted,
        if (absorbed.heap ref).leavesQuantity = 0 then absorbed.unregisterOrder ref
        else absorbed) := by
    unfold executeOrder
    rw [found]
    refine (if_neg current).trans ?_
    dsimp only
    rw [@noteDeclined_of_not β booked _ _ (ne_false_of_eq_true accepted)]
  rw [executed, ← taken]
  refine ⟨accepted, ?_, ?_⟩
  · show OrderBook.ledger (if (absorbed.heap ref).leavesQuantity = 0 then _ else _) _ =
      if (absorbed.heap ref).leavesQuantity = 0 then _ else _
    split
    · exact unregisterOrder_ledger ref
    · rfl
  · dsimp only
    split <;> exact still

theorem executeOrder_partly (isLast : Bool) (timestamp : Nat) (current : ¬ Regresses book.l3 seqNum)
    (rests : (book.ledger responses).entry resting.orderId = some resting)
    (ours : (book.ledger responses).owner resting.orderId = some ref) (positive : 0 < qty)
    (within : qty < resting.quantity) (leaves : (book.heap ref).leavesQuantity = resting.quantity) :
    (book.executeOrder resting.orderId qty timestamp seqNum isLast).1 = true ∧
      (book.executeOrder resting.orderId qty timestamp seqNum isLast).2.ledger responses =
        ((book.ledger responses).updateOrder ref fun order =>
          order.execute order.price qty timestamp).placeEntry resting.orderId
            (some { resting with quantity := resting.quantity - qty }) timestamp ∧
      ¬ Regresses (book.executeOrder resting.orderId qty timestamp seqNum isLast).2.l3 seqNum := by
  have left : afterExecution resting qty =
      some { resting with quantity := resting.quantity - qty } := if_neg (by omega)
  let booked := (book.ledger responses).updateOrder ref fun order =>
    order.execute order.price qty timestamp
  have placed : booked.setEntry resting.orderId (afterExecution resting qty) timestamp =
      booked.placeEntry resting.orderId
        (some { resting with quantity := resting.quantity - qty }) timestamp := by
    rw [left]
    refine Ledger.setEntry_kept ours ?_ rfl ?_
    · show 0 < resting.quantity - qty
      omega
    · intro order found
      have : resting = order := Option.some.inj (rests.symm.trans found)
      rw [← this]
  obtain ⟨accepted, taken, still⟩ := executeOrder_own isLast timestamp current rests
    ours positive (by omega) placed.symm
  refine ⟨accepted, ?_, still⟩
  rw [taken]
  apply if_neg
  have self : booked.heap ref = (book.heap ref).execute (book.heap ref).price qty timestamp :=
    Ledger.updateOrder_heap_self _
  show (booked.heap ref).leavesQuantity ≠ 0
  rw [self, Order.execute_leaves]
  omega

theorem executeOrder_fully (isLast : Bool) (timestamp : Nat) (current : ¬ Regresses book.l3 seqNum)
    (rests : (book.ledger responses).entry resting.orderId = some resting)
    (ours : (book.ledger responses).owner resting.orderId = some ref)
    (positive : 0 < resting.quantity) (leaves : (book.heap ref).leavesQuantity = resting.quantity)
    (sized : (book.heap ref).quantity ≠ 0) :
    (book.executeOrder resting.orderId resting.quantity timestamp seqNum isLast).1 = true ∧
      (book.executeOrder resting.orderId resting.quantity timestamp seqNum isLast).2.ledger responses =
        (((book.ledger responses).updateOrder ref fun order =>
          order.execute order.price resting.quantity timestamp).placeEntry resting.orderId none
            timestamp).unregisterOrder ref ∧
      ¬ Regresses
        (book.executeOrder resting.orderId resting.quantity timestamp seqNum isLast).2.l3 seqNum := by
  let booked := (book.ledger responses).updateOrder ref fun order =>
    order.execute order.price resting.quantity timestamp
  have self : booked.heap ref =
      (book.heap ref).execute (book.heap ref).price resting.quantity timestamp :=
    Ledger.updateOrder_heap_self _
  have gone : (booked.heap ref).leavesQuantity = 0 := by
    rw [self, Order.execute_leaves]
    omega
  have cleared : (booked.placeEntry resting.orderId none timestamp).updateOrder ref
      Order.withoutLeaves = booked.placeEntry resting.orderId none timestamp :=
    Ledger.updateOrder_same (Ledger.withoutLeaves_of_drained gone)
  have placed : booked.setEntry resting.orderId (afterExecution resting resting.quantity) timestamp =
      booked.placeEntry resting.orderId none timestamp := by
    rw [show afterExecution resting resting.quantity = none from if_pos rfl]
    rw [show booked.setEntry _ none timestamp = _ from
      Ledger.setEntry_removed ours rests rfl ?_, cleared]
    rw [self]
    exact sized
  obtain ⟨accepted, taken, still⟩ := executeOrder_own isLast timestamp current rests ours positive
    (Int.le_refl _) placed.symm
  refine ⟨accepted, ?_, still⟩
  rw [taken]
  exact if_pos gone

end Execute

/-- A new order enters the maps and the book under the priority drawn for it. -/
theorem addOrder_ledger (isLast : Bool) (current : ¬ Regresses book.l3 seqNum)
    (unregistered : (book.ledger responses).owner (book.heap ref).id = none)
    (absent : (book.ledger responses).entry (book.heap ref).id = none)
    (positive : 0 < (book.heap ref).leavesQuantity) {ranked : Ledger}
    (isRanked : ranked = { book.ledger responses with
      globals := { book.globals with nextPriority := book.globals.nextPriority + 1 } }.updateOrder ref
        (Order.withPriority (book.globals.nextPriority + 1))) :
    (book.addOrder ref timestamp seqNum isLast).ledger responses =
      (ranked.registerOrder ref).placeEntry (book.heap ref).id (some (ranked.entryOf ref))
        timestamp := by
  let drawn := book.nextOrderPriority.updateOrder ref fun order =>
    { order with priority := book.globals.nextPriority + 1 }
  have isDrawn : drawn.ledger responses = ranked := isRanked.symm
  let registered := drawn.registerOrder ref
  have isRegistered : registered.ledger responses = ranked.registerOrder ref := by
    rw [← isDrawn]
    exact registerOrder_ledger ref
  have self : registered.heap ref = (book.heap ref).withPriority (book.globals.nextPriority + 1) :=
    Function.update_self ..
  have entryIs : ranked.entryOf ref = (registered.heap ref).bookEntry := by
    rw [self, isRanked, Ledger.entryOf, Ledger.updateOrder_heap_self]
    rfl
  have sameId : (registered.heap ref).id = (book.heap ref).id := by
    rw [self]
    rfl
  have added : (book.addOrder ref timestamp seqNum isLast).ledger responses =
      (registered.ledger responses).setEntry (registered.heap ref).id
        (some (registered.heap ref).bookEntry) timestamp := by
    have still : ¬ Regresses registered.l3 seqNum := current
    have free : OrderBookL3.findOrder registered.l3 (registered.heap ref).id = none := by
      rw [sameId]
      exact absent
    have entered : (registered.addL3Order (registered.heap ref).id _ _ _ timestamp
        (registered.heap ref).priority seqNum isLast).ledger responses = _ :=
      (addL3Order_ledger responses (registered.heap ref).bookEntry isLast still free
        (by rw [self]; exact positive) (by rw [self]; exact (if_neg (Nat.succ_ne_zero _)).symm)).1
    unfold addL3Order at entered
    dsimp only at entered
    rw [noteDeclined_of_not still] at entered
    show (OrderBook.absorb (registered.noteDeclined
      ((OrderBookL3.findOrder registered.l3 (registered.heap ref).id).isSome ∨
        Regresses registered.l3 seqNum)) _).ledger responses = _
    rw [noteDeclined_of_not (not_or.mpr ⟨Option.not_isSome_iff_eq_none.mpr free, still⟩)]
    exact entered
  have owned : (registered.ledger responses).owner (book.heap ref).id = some ref := by
    have rankedId : (ranked.heap ref).id = (book.heap ref).id := by
      rw [isRanked, Ledger.updateOrder_heap_self]
      rfl
    have free : ranked.owner (ranked.heap ref).id = none := by
      rw [rankedId, isRanked]
      exact unregistered
    rw [isRegistered, Ledger.Indexed.registerOrder_owner free, rankedId]
    exact Function.update_self ..
  rw [added, entryIs, sameId, Ledger.setEntry_kept owned ?_ sameId ?_, isRegistered]
  · show 0 < (registered.heap ref).leavesQuantity
    rw [self]
    exact positive
  · intro order found
    exact absurd (found.symm.trans absent) (by rintro ⟨⟩)

theorem modifyL3Order_l3 (orderId : Nat) (newPrice newQty : Int) (timestamp priority : Nat) (isLast : Bool) :
    (book.modifyL3Order orderId newPrice newQty timestamp priority seqNum isLast).l3 =
      (OrderBookL3.modifyOrder book.l3 orderId newPrice newQty timestamp priority seqNum isLast).book := by
  unfold modifyL3Order
  rw [absorb_l3]
  rfl

section Modify

variable (isLast : Bool) (timestamp : Nat) (current : ¬ Regresses book.l3 seqNum)
  (registered : (book.ledger responses).Registered ref)

include registered in
private theorem modifyOrder_eq :
    book.modifyOrder ref (book.heap ref).price (book.heap ref).quantity timestamp seqNum isLast =
      let moved := book.modifyL3Order (book.heap ref).id (book.heap ref).price
        (book.heap ref).leavesQuantity timestamp (book.heap ref).priority seqNum isLast
      if (moved.heap ref).leavesQuantity = 0 then moved.unregisterOrder ref else moved := by
  have found : book.findOrder (book.heap ref).id = some ref := registered
  have kept : (book.updateOrder ref fun order => { order with quantity := (book.heap ref).quantity }) =
      book := by
    unfold updateOrder
    exact congrArg (fun heap => { book with heap }) (Function.update_eq_self ref book.heap)
  unfold modifyOrder
  simp only [found, ne_eq, not_true_eq_false, if_false, kept, Option.isSome_some, Bool.true_or,
    and_true]

include registered in
theorem modifyOrder_l3 :
    (book.modifyOrder ref (book.heap ref).price (book.heap ref).quantity timestamp seqNum isLast).l3 =
      (OrderBookL3.modifyOrder book.l3 (book.heap ref).id (book.heap ref).price
        (book.heap ref).leavesQuantity timestamp (book.heap ref).priority seqNum isLast).book := by
  rw [modifyOrder_eq isLast timestamp registered, ← modifyL3Order_l3]
  dsimp only
  split <;> rfl

include current registered

theorem modifyOrder_rests
    (rests : (book.ledger responses).entry (book.heap ref).id = some resting)
    (keyed : resting.orderId = (book.heap ref).id)
    (sameSide : resting.side = toBookSide (book.heap ref).side)
    (positive : 0 < (book.heap ref).leavesQuantity) (ranked : 0 < (book.heap ref).priority) :
    (book.modifyOrder ref (book.heap ref).price (book.heap ref).quantity timestamp seqNum
        isLast).ledger responses =
      (book.ledger responses).placeEntry (book.heap ref).id
        (some ((book.ledger responses).entryOf ref)) timestamp := by
  have moved := (modifyL3Order_ledger responses resting (book.heap ref).bookEntry isLast current
    (keyed ▸ rests) positive keyed.symm sameSide.symm
    (show (book.heap ref).priority = effectivePriority (book.heap ref).priority timestamp from
      (if_neg (by omega)).symm)).1
  have ours : (book.ledger responses).owner (book.heap ref).id = some ref := registered
  rw [keyed, Ledger.setEntry_kept ours positive rfl
    (fun order found => by rw [← Option.some.inj (rests.symm.trans found), keyed])] at moved
  rw [modifyOrder_eq isLast timestamp registered]
  dsimp only
  rw [if_neg]
  · exact moved
  · have kept := congrArg (fun ledger => (ledger.heap ref).leavesQuantity) moved
    exact fun drained => Int.ne_of_lt positive (drained.symm.trans kept)

theorem modifyOrder_gone
    (rests : (book.ledger responses).entry (book.heap ref).id = some resting)
    (keyed : resting.orderId = (book.heap ref).id) (drained : (book.heap ref).leavesQuantity = 0) :
    (book.modifyOrder ref (book.heap ref).price (book.heap ref).quantity timestamp seqNum
        isLast).ledger responses =
      ((book.ledger responses).placeEntry (book.heap ref).id none timestamp).unregisterOrder ref := by
  have moved := (modifyL3Order_zero responses (book.heap ref).price timestamp
    (book.heap ref).priority isLast current rests).1
  have ours : (book.ledger responses).owner (book.heap ref).id = some ref := registered
  rw [Ledger.setEntry_drained ours
    (fun order found => by rw [← Option.some.inj (rests.symm.trans found), keyed]) drained] at moved
  rw [modifyOrder_eq isLast timestamp registered, drained]
  dsimp only
  rw [if_pos]
  · rw [unregisterOrder_ledger, moved]
  · have heapIs := congrArg (fun ledger => (ledger.heap ref).leavesQuantity) moved
    exact heapIs.trans drained

end Modify

/-! ## The snapshot rebuild -/

section Rebuild

private theorem addL3Order_again {order : Order} (owned : (book.ledger responses).owner id = some ref)
    (sameId : order.id = id) (absent : (book.ledger responses).entry id = none)
    (positive : 0 < order.leavesQuantity) (ranked : 0 < order.priority) :
    (book.addL3Order id (toBookSide order.side) order.price order.leavesQuantity order.lastUpdateTime
        order.priority 0 false).ledger responses =
      (book.ledger responses).placeEntry id (some order.bookEntry) order.lastUpdateTime := by
  subst sameId
  have added := (addL3Order_ledger responses order.bookEntry false
    (show ¬ Regresses book.l3 0 from fun stale => stale.1.false) absent positive
    (show order.priority = effectivePriority order.priority order.lastUpdateTime from
      (if_neg (by omega)).symm)).1
  rw [show order.bookEntry.orderId = order.id from rfl, Ledger.setEntry_kept owned positive rfl
    (fun other found => by rw [absent] at found; cases found)] at added
  exact added

/-- A row of a new order, which the subscriber does not have yet. -/
private theorem replayOrders_added {order : Order} {entry : Nat → Option BookOrder} {timestamp : Nat}
    (positive : 0 < order.leavesQuantity) (sameId : order.id = id) (absent : entry id = none) :
    replayOrders [cacheOrderUpdate (order.bookEntry.added timestamp)] entry =
      some (Function.update entry id (some order.bookEntry)) := by
  subst sameId
  have replayed := @replayOrders_exchange entry order.id timestamp (some order.bookEntry)
    (by rw [absent]; rintro _ ⟨⟩)
    (by
      rintro _ ⟨⟩
      exact ⟨rfl, positive, by rw [absent]; rintro _ ⟨⟩⟩)
  rw [absent] at replayed
  exact replayed

private def reentered (items : List (Nat × Order)) (entry : Nat → Option BookOrder) :
    Nat → Option BookOrder :=
  items.foldl (fun entry item => Function.update entry item.1 (some item.2.bookEntry)) entry

private theorem reenter_ledger (items : List (Nat × Order))
    (distinct : (items.map Prod.fst).Nodup)
    (owned : ∀ item ∈ items, ((book.ledger responses).owner item.1).isSome = true ∧
      item.2.id = item.1 ∧ 0 < item.2.leavesQuantity ∧ 0 < item.2.priority)
    (absent : ∀ item ∈ items, (book.ledger responses).entry item.1 = none) :
    ∃ joins trail, (items.foldl (fun book entry => book.addL3Order entry.1 (toBookSide entry.2.side)
        entry.2.price entry.2.leavesQuantity entry.2.lastUpdateTime entry.2.priority 0 false)
        book).ledger responses =
      { book.ledger responses with
        entry := reentered items (book.ledger responses).entry, joins, trail } ∧
      (Ledger.Retells book.orderTrail (book.ledger responses).entry →
        Ledger.Retells trail (reentered items (book.ledger responses).entry)) := by
  induction items generalizing book with
  | nil => exact ⟨_, _, rfl, id⟩
  | cons item rest ih =>
      obtain ⟨fresh, distinct⟩ := List.nodup_cons.mp distinct
      obtain ⟨ours, sameId, positive, ranked⟩ := owned item List.mem_cons_self
      obtain ⟨ref, ours⟩ := Option.isSome_iff_exists.mp ours
      have added := addL3Order_again ours sameId (absent item List.mem_cons_self) positive ranked
      let entered := book.addL3Order item.1 (toBookSide item.2.side) item.2.price
        item.2.leavesQuantity item.2.lastUpdateTime item.2.priority 0 false
      have ownerIs : (entered.ledger responses).owner = (book.ledger responses).owner := by
        rw [show entered.ledger responses = _ from added]
        rfl
      have entryIs : (entered.ledger responses).entry =
          Function.update (book.ledger responses).entry item.1 (some item.2.bookEntry) := by
        rw [show entered.ledger responses = _ from added]
        rfl
      have trailIs : entered.orderTrail =
          book.orderTrail ++ [item.2.bookEntry.added item.2.lastUpdateTime] := by
        have told : (entered.ledger responses).trail = _ := congrArg Ledger.trail added
        rw [show (Ledger.placeEntry _ _ _ _).trail = _ ++ exchangeUpdates _ _ _ from rfl,
          absent item List.mem_cons_self] at told
        exact told
      obtain ⟨joins, trail, folded, retells⟩ := @ih entered distinct
        (by
          intro other member
          rw [ownerIs]
          exact owned other (List.mem_cons_of_mem _ member))
        (by
          intro other member
          rw [entryIs, Function.update_of_ne]
          · exact absent other (List.mem_cons_of_mem _ member)
          · intro same
            exact fresh (same ▸ List.mem_map_of_mem member))
      refine ⟨joins, trail, folded.trans ?_, ?_⟩
      · rw [entryIs, show entered.ledger responses = _ from added]
        rfl
      · intro before
        rw [entryIs, trailIs] at retells
        refine retells (Ledger.Retells.append before ?_)
        exact replayOrders_added positive sameId (absent item List.mem_cons_self)

private theorem reentered_of_absent {items : List (Nat × Order)} {entry : Nat → Option BookOrder}
    {id : Nat} (absent : ∀ item ∈ items, item.1 ≠ id) : reentered items entry id = entry id := by
  induction items generalizing entry with
  | nil => rfl
  | cons item rest ih =>
      show reentered rest (Function.update entry item.1 (some item.2.bookEntry)) id = entry id
      rw [ih fun other member => absent other (List.mem_cons_of_mem _ member)]
      exact Function.update_of_ne (absent item List.mem_cons_self).symm _ _

private theorem reentered_of_mem {items : List (Nat × Order)} {entry : Nat → Option BookOrder}
    {item : Nat × Order} (distinct : (items.map Prod.fst).Nodup) (member : item ∈ items) :
    reentered items entry item.1 = some item.2.bookEntry := by
  induction items generalizing entry with
  | nil => cases member
  | cons head rest ih =>
      obtain ⟨fresh, distinct⟩ := List.nodup_cons.mp distinct
      show reentered rest (Function.update entry head.1 (some head.2.bookEntry)) item.1 = _
      rcases List.mem_cons.mp member with rfl | member
      · rw [reentered_of_absent, Function.update_self]
        intro other inside same
        exact fresh (same ▸ List.mem_map_of_mem inside)
      · exact ih distinct member

/-- `clearMDOrders` forgets every order that is not ours, and what it told of them. -/
theorem clearMDOrders_ledger (inv : (book.ledger responses).Represents .none) :
    ∃ trail, book.clearMDOrders.ledger responses =
      { book.ledger responses with
        entry := fun id =>
          if ((book.ledger responses).owner id).isSome then (book.ledger responses).entry id
          else none
        totals := fun _ => none
        trail } ∧
      Ledger.Retells trail fun id =>
        if ((book.ledger responses).owner id).isSome then (book.ledger responses).entry id
        else none := by
  have owned : ∀ {id ref : Nat}, (⟨id, ref⟩ : Sigma fun _ : Nat => Nat) ∈ book.orders.entries ↔
      (book.ledger responses).owner id = some ref := AList.mem_lookup_iff.symm
  have settled : ∀ {id ref : Nat}, (book.ledger responses).owner id = some ref →
      (book.heap ref).id = id ∧ 0 < (book.heap ref).leavesQuantity ∧ 0 < (book.heap ref).priority ∧
        (book.ledger responses).entry id = some (book.heap ref).bookEntry := by
    intro id ref ours
    obtain rfl := inv.indexed.owner_id ours
    have rests := (inv.agrees.at_ ref).rests ours (by rintro ⟨⟩)
    exact ⟨rfl, rests.2.1, ((inv.agrees.at_ ref).ranked ours).1, rests.1⟩
  -- Every order of ours still has leaves, so none of them is filtered out.
  let items := book.orders.entries.map fun entry => (entry.1, book.heap entry.2)
  have collected : (book.orders.entries.filterMap fun entry =>
      if 0 < (book.heap entry.2).leavesQuantity then some (entry.1, book.heap entry.2) else none) =
      items := by
    show _ = book.orders.entries.map fun entry => (entry.1, book.heap entry.2)
    rw [← List.filterMap_eq_map]
    apply List.filterMap_congr
    intro entry member
    exact if_pos (settled (owned.mp member)).2.1
  have distinct : (items.map Prod.fst).Nodup := by
    show (List.map Prod.fst (List.map _ _)).Nodup
    rw [List.map_map]
    exact book.orders.nodupKeys
  let cleared : OrderBook β := { book with
    l3 := OrderBookL3.clear book.l3, feedMdLevelQuantity := ∅, orderTrail := [], levelTrail := [] }
  have emptied : (cleared.ledger responses).entry = fun _ => none := by
    funext id
    apply OrderBookL3.findOrder_eq_none.mpr
    intro order member
    simp [OrderBookL3.allOrders, cleared, OrderBookL3.clear_restingOrders] at member
  obtain ⟨joins, trail, folded, retells⟩ := @reenter_ledger _ _ cleared responses items distinct
    (by
      intro item member
      obtain ⟨entry, inside, rfl⟩ := List.mem_map.mp member
      have ours := owned.mp inside
      obtain ⟨sameId, positive, ranked, -⟩ := settled ours
      exact ⟨Option.isSome_iff_exists.mpr ⟨_, ours⟩, sameId, positive, ranked⟩)
    (fun _ _ => by rw [emptied])
  have entries : reentered items (fun _ => none) = fun id =>
      if ((book.ledger responses).owner id).isSome then (book.ledger responses).entry id else none := by
    funext id
    cases ours : (book.ledger responses).owner id with
    | none =>
        apply reentered_of_absent
        intro item member same
        obtain ⟨entry, inside, rfl⟩ := List.mem_map.mp member
        have := owned.mp inside
        rw [show entry.1 = id from same, ours] at this
        cases this
    | some ref =>
        have member : (id, book.heap ref) ∈ items := List.mem_map.mpr ⟨⟨id, ref⟩, owned.mpr ours, rfl⟩
        rw [reentered_of_mem distinct member]
        exact (settled ours).2.2.2.symm
  rw [emptied, entries] at folded retells
  have rebuilt : book.clearMDOrders.ledger responses = { (items.foldl (fun book entry =>
      book.addL3Order entry.1 (toBookSide entry.2.side) entry.2.price entry.2.leavesQuantity
        entry.2.lastUpdateTime entry.2.priority 0 false) cleared).ledger responses with
          joins := book.joins } := by
    unfold clearMDOrders
    dsimp only
    rw [collected]
    rfl
  refine ⟨trail, ?_, retells rfl⟩
  rw [rebuilt, folded]
  rfl

end Rebuild

end OrderBook

end SlickSim
