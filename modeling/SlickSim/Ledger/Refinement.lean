import SlickSim.OrderBook.L3Properties
import SlickSim.Ledger.Ledger

/-!
# Books refine ledgers

Each operation of `OrderBook` does to the ledger of the book what its
counterpart says. For the L3 mutations this is where the assumptions about the
external book are used: an accepted one exchanges the order of one id and tells
the observers so, a discarded one does nothing.
-/

set_option autoImplicit false

namespace SlickSim

open KeyedList

/-- A mutation exchanged the order resting under one id. -/
structure L3Result.Exchanges {β : Type} [OrderBookL3 β] (result : L3Result β) (book : β) (id : Nat)
    (next : Option BookOrder) (timestamp seqNum : Nat) : Prop where
  found : OrderBookL3.findOrder result.book = Function.update (OrderBookL3.findOrder book) id next
  updates : result.orderUpdates =
    exchangeUpdates (OrderBookL3.findOrder book id) next timestamp
  sequence : OrderBookL3.lastSeqNum result.book ≤ max (OrderBookL3.lastSeqNum book) seqNum

theorem exchangeUpdates_self (order : Option BookOrder) (timestamp : Nat) :
    exchangeUpdates order order timestamp = [] := by
  cases order <;> simp [exchangeUpdates]

namespace OrderBookL3

variable {β : Type} [OrderBookL3 β] {book : β} {timestamp priority seqNum : Nat} {isLast : Bool}

theorem discarded_exchanges (book : β) (id timestamp seqNum : Nat) :
    (L3Result.discarded book).Exchanges book id (findOrder book id) timestamp seqNum where
  found := (Function.update_eq_self id _).symm
  updates := (exchangeUpdates_self _ _).symm
  sequence := le_max_left _ _

theorem addOrder_exchanges {order : BookOrder} (current : ¬ Regresses book seqNum)
    (fresh : findOrder book order.orderId = none) (positive : 0 < order.quantity)
    (ranked : order.priority = effectivePriority priority timestamp) :
    (addOrder book order.orderId order.side order.price order.quantity timestamp priority seqNum
      isLast).Exchanges book order.orderId (some order) timestamp seqNum := by
  have absent := findOrder_eq_none.mp fresh
  obtain ⟨_, sequence, _, _, updates⟩ :=
    addOrder_accepted book order timestamp priority seqNum isLast current absent positive ranked
  refine ⟨?_, ?_, sequence.le⟩
  · exact findOrder_of_replaces (addOrder_replaces current absent positive ranked) (by simp)
  · rw [updates, fresh]
    rfl

theorem addOrder_taken {orderId : Nat} {side : BookSide} {price quantity : Int} {order : BookOrder}
    (taken : findOrder book orderId = some order) :
    addOrder book orderId side price quantity timestamp priority seqNum isLast =
      .discarded book := by
  obtain ⟨rests, same⟩ := findOrder_eq_some.mp taken
  exact addOrder_discarded _ _ _ _ _ _ _ _ _ (.inr ⟨order, rests, same⟩)

theorem deleteOrder_exchanges {orderId : Nat} (current : ¬ Regresses book seqNum) :
    (deleteOrder book orderId timestamp seqNum isLast).Exchanges book orderId none timestamp
      seqNum := by
  cases found : findOrder book orderId with
  | none =>
      rw [deleteOrder_discarded _ _ _ _ _ (.inr (findOrder_eq_none.mp found))]
      have kept := discarded_exchanges book orderId timestamp seqNum
      rwa [found] at kept
  | some order =>
      obtain ⟨rests, rfl⟩ := findOrder_eq_some.mp found
      obtain ⟨_, sequence, _, _, updates⟩ := deleteOrder_accepted book order timestamp seqNum isLast
        current (mem_allOrders.mp rests)
      refine ⟨?_, ?_, sequence.le⟩
      · exact findOrder_of_replaces (deleteOrder_replaces current rests) (by simp)
      · rw [updates, found]
        rfl

theorem modifyOrder_exchanges {order next : BookOrder} (current : ¬ Regresses book seqNum)
    (found : findOrder book order.orderId = some order) (positive : 0 < next.quantity)
    (sameId : next.orderId = order.orderId) (sameSide : next.side = order.side)
    (ranked : next.priority = effectivePriority priority timestamp) :
    (modifyOrder book order.orderId next.price next.quantity timestamp priority seqNum
      isLast).Exchanges book order.orderId (some next) timestamp seqNum := by
  have rests := (findOrder_eq_some.mp found).1
  obtain ⟨sequence, _, _, updates⟩ := modifyOrder_accepted book order next timestamp priority seqNum
    isLast current (mem_allOrders.mp rests) positive sameId sameSide ranked
  refine ⟨?_, ?_, sequence.le⟩
  · apply findOrder_of_replaces
      (modifyOrder_replaces current rests positive sameId sameSide ranked)
    rintro _ ⟨⟩
    exact sameId
  · rw [updates, found]
    rfl

theorem executeOrder_exchanges {order : BookOrder} {executed : Int}
    (current : ¬ Regresses book seqNum) (found : findOrder book order.orderId = some order)
    (positive : 0 < executed) (within : executed ≤ order.quantity) :
    (executeOrder book order.orderId executed timestamp seqNum isLast).accepted = true ∧
      (executeOrder book order.orderId executed timestamp seqNum isLast).Exchanges book
        order.orderId (afterExecution order executed) timestamp seqNum := by
  have rests := (findOrder_eq_some.mp found).1
  obtain ⟨accepted, sequence, _, effect⟩ := executeOrder_accepted book order executed timestamp
    seqNum isLast current (mem_allOrders.mp rests) positive within
  refine ⟨accepted, ?_, ?_, sequence.le⟩
  · apply findOrder_of_replaces (executeOrder_replaces current rests positive within)
    intro next left
    unfold afterExecution at left
    split at left <;> cases left
    rfl
  · rw [found]
    unfold afterExecution
    by_cases full : executed = order.quantity
    · rw [if_pos full] at effect ⊢
      exact effect.2
    · rw [if_neg full] at effect ⊢
      rw [effect.2, exchangeUpdates, if_neg]
      intro same
      have := congrArg BookOrder.quantity same
      simp only at this
      omega

end OrderBookL3

namespace OrderBook

variable {β : Type} [OrderBookL3 β] {book : OrderBook β} {responses : List OrderResponse}

/-! ## Maps -/

theorem lookup_insert_eq {κ ν : Type} [DecidableEq κ] (map : AList (fun _ : κ => ν)) (key : κ)
    (value : ν) :
    (fun k => (map.insert key value).lookup k) =
      Function.update (fun k => map.lookup k) key (some value) := by
  funext k
  by_cases same : k = key
  · subst same
    rw [Function.update_self, AList.lookup_insert]
  · rw [Function.update_of_ne same, AList.lookup_insert_ne same]

theorem lookup_erase_eq {κ ν : Type} [DecidableEq κ] (map : AList (fun _ : κ => ν)) (key : κ) :
    (fun k => (map.erase key).lookup k) = Function.update (fun k => map.lookup k) key none := by
  funext k
  by_cases same : k = key
  · subst same
    rw [Function.update_self, AList.lookup_erase]
  · rw [Function.update_of_ne same, AList.lookup_erase_ne same]

theorem lookup_emplace_eq {κ : Type} [DecidableEq κ] (map : AList (fun _ : κ => Nat)) (key : κ)
    (value : Nat) :
    (fun k => (emplace map key value).lookup k) = emplaceAt (fun k => map.lookup k) key value := by
  unfold emplace emplaceAt
  dsimp only
  cases map.lookup key with
  | none => exact lookup_insert_eq map key value
  | some _ => rfl

theorem lookup_putMDLevelQty_eq (totals : AList (fun _ : Int => Int)) (price quantity change : Int) :
    (fun p => (putMDLevelQty totals price quantity change).lookup p) =
      putTotals (fun p => totals.lookup p) price quantity change := by
  unfold putMDLevelQty putTotals
  dsimp only
  cases totals.lookup price with
  | some total => exact lookup_insert_eq ..
  | none =>
      dsimp only
      split
      · exact lookup_insert_eq ..
      · rfl

theorem lookup_moveMDLevelQty_eq (totals : AList (fun _ : Int => Int)) (update : OrderUpdate) :
    (fun price => (moveMDLevelQty totals update).lookup price) =
      moveTotals (fun price => totals.lookup price) update := by
  unfold moveMDLevelQty moveTotals
  split
  · dsimp only
    rw [lookup_putMDLevelQty_eq]
    congr 1
    cases totals.lookup update.oldPrice with
    | some total => exact lookup_insert_eq ..
    | none => rfl
  · exact lookup_putMDLevelQty_eq ..

/-! ## Heap, maps and pool -/

@[simp] theorem updateOrder_ledger (ref : Nat) (change : Order → Order) :
    (book.updateOrder ref change).ledger responses =
      (book.ledger responses).updateOrder ref change := rfl

@[simp] theorem freeOrder_ledger (ref : Nat) :
    (book.freeOrder ref).ledger responses = (book.ledger responses).freeOrder ref := rfl

@[simp] theorem registerOrder_ledger (ref : Nat) :
    (book.registerOrder ref).ledger responses = (book.ledger responses).registerOrder ref := by
  unfold registerOrder Ledger.registerOrder ledger
  dsimp only
  congr 1
  · exact lookup_emplace_eq ..
  · split
    · rfl
    · exact lookup_emplace_eq ..
  · split
    · rfl
    · exact lookup_emplace_eq ..

@[simp] theorem unregisterOrder_ledger (ref : Nat) :
    (book.unregisterOrder ref).ledger responses = (book.ledger responses).unregisterOrder ref := by
  unfold unregisterOrder Ledger.unregisterOrder ledger
  dsimp only
  congr 1
  · exact lookup_erase_eq ..
  · split
    · rfl
    · exact lookup_erase_eq ..
  · split
    · rfl
    · exact lookup_erase_eq ..

/-! ## Observers -/

theorem onOrderUpdate_ledger (update : OrderUpdate) :
    (book.onOrderUpdate update).ledger responses =
      (book.ledger responses).onOrderUpdate update := by
  unfold onOrderUpdate Ledger.onOrderUpdate findOrder
  have owner : (book.ledger responses).owner update.orderId = book.orders.lookup update.orderId := rfl
  rw [owner]
  cases book.orders.lookup update.orderId with
  | none =>
      unfold ledger
      dsimp only
      rw [lookup_moveMDLevelQty_eq]
  | some ref =>
      dsimp only
      split <;> rename_i zeroed
      · rw [if_pos (show _ ∧ ((book.ledger responses).heap ref).quantity ≠ _ from zeroed)]
        rfl
      · rw [if_neg (show ¬ (_ ∧ ((book.ledger responses).heap ref).quantity ≠ _) from zeroed)]

theorem foldl_onOrderUpdate_ledger (updates : List OrderUpdate) :
    (updates.foldl onOrderUpdate book).ledger responses =
      updates.foldl Ledger.onOrderUpdate (book.ledger responses) := by
  induction updates generalizing book with
  | nil => rfl
  | cons update rest ih =>
      rw [List.foldl_cons, List.foldl_cons, ih, onOrderUpdate_ledger]

omit [OrderBookL3 β] in
theorem onOrderUpdate_l3 (book : OrderBook β) (update : OrderUpdate) :
    (book.onOrderUpdate update).l3 = book.l3 := by
  unfold onOrderUpdate
  split
  · rfl
  · split <;> rfl

omit [OrderBookL3 β] in
theorem foldl_onOrderUpdate_l3 (book : OrderBook β) (updates : List OrderUpdate) :
    (updates.foldl onOrderUpdate book).l3 = book.l3 := by
  induction updates generalizing book with
  | nil => rfl
  | cons update rest ih => rw [List.foldl_cons, ih, onOrderUpdate_l3]

omit [OrderBookL3 β] in
@[simp] theorem absorb_l3 (book : OrderBook β) (result : L3Result β) :
    (book.absorb result).l3 = result.book :=
  foldl_onOrderUpdate_l3 _ _

omit [OrderBookL3 β] in
theorem noteDeclined_of_not {declines : Prop} [Decidable declines] (taken : ¬ declines) :
    book.noteDeclined declines = book := by
  unfold noteDeclined
  rw [decide_eq_false taken, Bool.false_or]

/-- Taking over an exchange is one `setEntry`. -/
theorem absorb_ledger (responses : List OrderResponse) {result : L3Result β} {id timestamp seqNum : Nat} {next : Option BookOrder}
    (exchanged : result.Exchanges book.l3 id next timestamp seqNum) :
    (book.absorb result).ledger responses =
      (book.ledger responses).setEntry id next timestamp := by
  unfold absorb Ledger.setEntry Ledger.placeEntry
  dsimp only
  rw [foldl_onOrderUpdate_ledger, exchanged.updates]
  congr 1
  unfold ledger
  dsimp only
  rw [exchanged.found]

theorem absorb_discarded :
    (book.absorb (.discarded book.l3)).ledger responses = book.ledger responses := by
  have kept := absorb_ledger responses
    (OrderBookL3.discarded_exchanges book.l3 0 0 0)
  rw [kept]
  unfold Ledger.setEntry Ledger.placeEntry
  rw [show (book.ledger responses).entry 0 = OrderBookL3.findOrder book.l3 0 from rfl,
    exchangeUpdates_self]
  unfold ledger
  simp [joinedIds]

end OrderBook

end SlickSim
