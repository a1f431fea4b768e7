import SlickSim.Ledger.Venues

/-!
# Phantom quantity of one level

What a level of one side holds besides the simulator's own orders, and how each
mutation of the book moves it.
-/

set_option autoImplicit false

namespace SlickSim

open KeyedList
open OrderBookL3 (Regresses allOrders restingOrders)

/-! ## Levels of a ranked queue -/

/-- Behind a worse price there is no order of a better one. -/
private theorem price_ne_of_ranksBefore {side : BookSide} {first next later : BookOrder}
    (before : first.ranksBefore side next) (different : next.price ≠ first.price)
    (behind : next = later ∨ next.ranksBefore side later) : later.price ≠ first.price := by
  rcases behind with rfl | behind
  · exact different
  · unfold BookOrder.ranksBefore isPriceBetter at before behind
    cases side <;> simp at before behind <;> omega

theorem orders_eq_filter_of_find {side : BookSide} {orders : List BookOrder} {price : Int}
    {level : PriceLevelL3} (ranked : orders.Pairwise (BookOrder.ranksBefore side))
    (found : (priceLevels orders).find? (fun level => level.price = price) = some level) :
    level.orders = orders.filter fun order => order.price = price := by
  induction orders generalizing level with
  | nil => cases found
  | cons order rest ih =>
      obtain ⟨ahead, restRanked⟩ := List.pairwise_cons.mp ranked
      have below := @ih
      unfold priceLevels at found
      cases cut : priceLevels rest with
      | nil =>
          obtain rfl := priceLevels_eq_nil cut
          rw [cut] at found
          dsimp only at found
          by_cases here : order.price = price
          · rw [List.find?_cons_of_pos (by simpa using here)] at found
            obtain rfl := Option.some.inj found
            simp [here]
          · rw [List.find?_cons_of_neg (by simpa using here)] at found
            cases found
      | cons next others =>
          obtain ⟨behind, isRest, -, filled, prices⟩ := priceLevels_eq_cons cut
          obtain ⟨front, queue, isQueue⟩ := List.exists_cons_of_ne_nil filled
          have frontPrice := prices front (isQueue ▸ List.mem_cons_self)
          rw [cut] at found below
          dsimp only at found
          split at found <;> rename_i samePrice
          · by_cases here : order.price = price
            · rw [List.find?_cons_of_pos (by simpa using here)] at found
              obtain rfl := Option.some.inj found
              have nextOrders := below restRanked
                (List.find?_cons_of_pos (by simpa using samePrice.trans here))
              rw [List.filter_cons_of_pos (by simpa using here), ← nextOrders]
            · rw [List.find?_cons_of_neg (by simpa using here)] at found
              rw [List.filter_cons_of_neg (by simpa using here)]
              apply below restRanked
              rw [List.find?_cons_of_neg (by simpa [samePrice] using here)]
              exact found
          · by_cases here : order.price = price
            · rw [List.find?_cons_of_pos (by simpa using here)] at found
              obtain rfl := Option.some.inj found
              -- The next level has another price, and everything behind it is no better.
              have nothing : rest.filter (fun other => other.price = price) = [] := by
                apply List.filter_eq_nil_iff.mpr
                intro other member
                rw [isRest, isQueue, List.cons_append] at member ahead restRanked
                have different := price_ne_of_ranksBefore (ahead front List.mem_cons_self)
                  (by rw [frontPrice]; exact samePrice)
                  ((List.mem_cons.mp member).imp Eq.symm fun later =>
                    (List.pairwise_cons.mp restRanked).1 other later)
                simpa [← here] using different
              rw [List.filter_cons_of_pos (by simpa using here), nothing]
            · rw [List.find?_cons_of_neg (by simpa using here)] at found
              rw [List.filter_cons_of_neg (by simpa using here)]
              exact below restRanked found

theorem getLevel_orders {β : Type} [OrderBookL3 β] {book : β} {side : BookSide} {price : Int}
    {level : PriceLevelL3} (found : OrderBookL3.getLevel book side price = some level) :
    level.orders = (restingOrders book side).filter fun order => order.price = price :=
  orders_eq_filter_of_find (OrderBookL3.ranked book side) found

/-- Without a level nothing rests at its price. -/
theorem price_ne_of_getLevel_none {β : Type} [OrderBookL3 β] {book : β} {side : BookSide} {price : Int}
    (missing : OrderBookL3.getLevel book side price = none) {order : BookOrder}
    (member : order ∈ restingOrders book side) : order.price ≠ price := by
  have levelled : ∀ orders : List BookOrder, order ∈ orders →
      ∃ level ∈ priceLevels orders, level.price = order.price := by
    intro orders
    induction orders with
    | nil => rintro ⟨⟩
    | cons head rest ih =>
        intro inside
        unfold priceLevels
        cases cut : priceLevels rest with
        | nil =>
            obtain rfl := priceLevels_eq_nil cut
            obtain rfl := List.mem_singleton.mp inside
            exact ⟨_, List.mem_singleton_self _, rfl⟩
        | cons next others =>
            dsimp only
            rcases List.mem_cons.mp inside with rfl | later
            · split <;> exact ⟨_, List.mem_cons_self, rfl⟩
            · obtain ⟨level, isLevel, same⟩ := ih later
              rw [cut] at isLevel
              split <;> rename_i samePrice
              · rcases List.mem_cons.mp isLevel with rfl | further
                · exact ⟨_, List.mem_cons_self, samePrice.symm.trans same⟩
                · exact ⟨level, List.mem_cons_of_mem _ further, same⟩
              · exact ⟨level, List.mem_cons_of_mem _ isLevel, same⟩
  obtain ⟨level, isLevel, same⟩ := levelled _ member
  have different : level.price ≠ price := by simpa using List.find?_eq_none.mp missing level isLevel
  rw [← same]
  exact different

theorem levelQty_eq_filter (orders : List BookOrder) (price : Int) :
    levelQty orders price = ((orders.filter fun order => order.price = price).map BookOrder.quantity).sum := by
  unfold levelQty
  induction orders with
  | nil => rfl
  | cons order rest ih =>
      rw [List.map_cons, List.sum_cons, ih]
      unfold BookOrder.qtyAt
      by_cases here : order.price = price
      · rw [if_pos here, List.filter_cons_of_pos (by simpa using here), List.map_cons, List.sum_cons]
      · rw [if_neg here, List.filter_cons_of_neg (by simpa using here), Int.zero_add]

/-- A level is there when quantity rests at its price, and holds just that. -/
theorem getLevel_totalQuantity {β : Type} [OrderBookL3 β] {book : β} {side : BookSide}
    (positive : ∀ order ∈ restingOrders book side, 0 < order.quantity) (price : Int) :
    (OrderBookL3.getLevel book side price).map PriceLevelL3.totalQuantity =
      if levelQty (restingOrders book side) price = 0 then none
      else some (levelQty (restingOrders book side) price) := by
  rw [levelQty_eq_filter]
  cases found : OrderBookL3.getLevel book side price with
  | none =>
      have nothing : (restingOrders book side).filter (fun order => order.price = price) = [] :=
        List.filter_eq_nil_iff.mpr fun order member => by simpa using price_ne_of_getLevel_none found member
      rw [nothing, if_pos (by rfl)]
      rfl
  | some level =>
      have orders := getLevel_orders found
      obtain ⟨filled, inside, -⟩ := OrderBookL3.getLevel_eq_some found
      have held : 0 < (level.orders.map BookOrder.quantity).sum := by
        refine List.sum_pos _ ?_ (by simpa using filled)
        intro quantity member
        obtain ⟨order, isOrder, rfl⟩ := List.mem_map.mp member
        exact positive order (inside.subset isOrder)
      rw [← orders, if_neg (by omega)]
      rfl

/-! ## What one order adds to a level -/

namespace OrderBook

variable {β : Type} [OrderBookL3 β] {book after : OrderBook β} {side : BookSide} {price : Int}

/-- What an order adds to the phantom quantity of a level, given who is ours. -/
def phantomShare (book : OrderBook β) (side : BookSide) (price : Int) (order : BookOrder) : Int :=
  if order.side = side ∧ order.price = price ∧ (book.findOrder order.orderId).isNone then order.quantity
  else 0

theorem phantomQtyAt_eq_queue (book : OrderBook β) (side : BookSide) (price : Int) :
    book.phantomQtyAt side price =
      ((restingOrders book.l3 side).map (book.phantomShare side price)).sum := by
  unfold phantomQtyAt
  apply congrArg List.sum
  apply List.map_congr_left
  intro order member
  simp [phantomShare, OrderBookL3.side_of_mem member]

/-- A phantom that rests shows in the quantity of its level. -/
theorem phantomQtyAt_pos {hand : Hand} {responses : List OrderResponse} {order : BookOrder}
    (inv : (book.ledger responses).Represents hand) (member : order ∈ restingOrders book.l3 side)
    (foreign : book.findOrder order.orderId = none) : 0 < book.phantomQtyAt side order.price := by
  have positive : ∀ other ∈ restingOrders book.l3 side, 0 < other.quantity := fun other inside =>
    inv.agrees.positive (OrderBookL3.findOrder_of_mem inside)
  have share : book.phantomShare side order.price order = order.quantity := by
    unfold phantomShare
    rw [if_pos ⟨OrderBookL3.side_of_mem member, rfl, by rw [foreign]; rfl⟩]
  have nonneg : ∀ share ∈ (restingOrders book.l3 side).map (book.phantomShare side order.price), 0 ≤ share := by
    intro share isShare
    obtain ⟨other, inside, rfl⟩ := List.mem_map.mp isShare
    have := positive other inside
    unfold phantomShare
    split <;> omega
  have held := List.single_le_sum nonneg _ (List.mem_map_of_mem member)
  rw [phantomQtyAt_eq_queue]
  have := positive order member
  omega

theorem phantomQtyAt_eq_all (book : OrderBook β) (side : BookSide) (price : Int) :
    book.phantomQtyAt side price =
      ((allOrders book.l3).map (book.phantomShare side price)).sum := by
  have elsewhere : ∀ other, other ≠ side →
      ((restingOrders book.l3 other).map (book.phantomShare side price)).sum = 0 := by
    intro other different
    apply List.sum_eq_zero
    intro share member
    obtain ⟨order, inside, rfl⟩ := List.mem_map.mp member
    refine if_neg fun holds => different ?_
    rw [← OrderBookL3.side_of_mem inside]
    exact holds.1
  rw [phantomQtyAt_eq_queue]
  unfold OrderBookL3.allOrders
  rw [List.map_append, List.sum_append]
  cases side with
  | buy => rw [elsewhere .sell (by decide), add_zero]
  | sell => rw [elsewhere .buy (by decide), zero_add]

/-- The totals, which are kept by price, count both sides. -/
theorem getMDLevelQty_eq_sides {responses : List OrderResponse} {hand : Hand}
    (inv : (book.ledger responses).Represents hand) (totalled : (book.ledger responses).Totalled)
    (side : BookSide) (price : Int) :
    book.getMDLevelQty price = book.phantomQtyAt side price + book.phantomQtyAt side.opposite price := by
  rw [getMDLevelQty_eq inv totalled, phantomQtyAt_eq_all, phantomQtyAt_eq_all, ← List.sum_map_add]
  unfold phantomOrders
  generalize allOrders book.l3 = orders
  induction orders with
  | nil => rfl
  | cons order rest ih =>
      rw [List.map_cons, List.sum_cons, ← ih, List.filter_cons]
      have sides : order.side = side ∨ order.side = side.opposite := by
        cases order.side <;> cases side <;> simp [BookSide.opposite]
      have opposite := BookSide.opposite_ne side
      unfold phantomShare
      rcases sides with here | here <;> by_cases priced : order.price = price <;>
        cases book.findOrder order.orderId <;> simp [here, priced, opposite, opposite.symm]

/-- Exchanging one order for another moves the quantity by what each of them adds. -/
theorem phantomQtyAt_of_replaces {id : Nat} {next : Option BookOrder}
    (replaced : Replaces BookOrder.orderId id next (allOrders book.l3) (allOrders after.l3))
    (sameOwner : after.orders = book.orders) :
    after.phantomQtyAt side price = book.phantomQtyAt side price -
        ((OrderBookL3.findOrder book.l3 id).map (book.phantomShare side price)).getD 0 +
      (next.map (book.phantomShare side price)).getD 0 := by
  have sameShare : after.phantomShare side price = book.phantomShare side price := by
    funext order
    unfold phantomShare findOrder
    rw [sameOwner]
  have nextSum : (next.toList.map (book.phantomShare side price)).sum =
      (next.map (book.phantomShare side price)).getD 0 := by
    cases next <;> simp
  rw [phantomQtyAt_eq_all, phantomQtyAt_eq_all, sameShare, replaced.sum_eq, nextSum]
  cases found : OrderBookL3.findOrder book.l3 id with
  | none =>
      rw [eraseKey_of_absent (OrderBookL3.findOrder_eq_none.mp found)]
      simp only [Option.map_none, Option.getD_none]
      omega
  | some order =>
      obtain ⟨member, rfl⟩ := OrderBookL3.findOrder_eq_some.mp found
      rw [sum_eraseKey _ (OrderBookL3.allOrders_distinct book.l3) member]
      simp only [Option.map_some, Option.getD_some]
      omega

omit [OrderBookL3 β] in
theorem onOrderUpdate_orders (book : OrderBook β) (update : OrderUpdate) :
    (book.onOrderUpdate update).orders = book.orders := by
  unfold onOrderUpdate
  split
  · rfl
  · split <;> rfl

omit [OrderBookL3 β] in
@[simp] theorem absorb_orders (book : OrderBook β) (result : L3Result β) :
    (book.absorb result).orders = book.orders := by
  have kept : ∀ (updates : List OrderUpdate) (start : OrderBook β),
      (updates.foldl onOrderUpdate start).orders = start.orders := by
    intro updates
    induction updates with
    | nil => exact fun _ => rfl
    | cons update rest ih => exact fun start => (ih _).trans (start.onOrderUpdate_orders update)
  exact kept _ _

theorem addBookOrder_orders (book : OrderBook β) (orderId : Nat) (side : BookSide) (price qty : Int)
    (timestamp seqNum : Nat) (isLastInBatch : Bool) :
    (book.addBookOrder orderId side price qty timestamp seqNum isLastInBatch).orders = book.orders := by
  unfold addBookOrder addL3Order
  exact absorb_orders ..

section Mutations

variable {seqNum timestamp priority : Nat} {isLast : Bool}

theorem addL3Order_phantomQtyAt {order : BookOrder} (current : ¬ Regresses book.l3 seqNum)
    (absent : OrderBookL3.findOrder book.l3 order.orderId = none)
    (foreign : book.findOrder order.orderId = none) (positive : 0 < order.quantity)
    (ranked : order.priority = effectivePriority priority timestamp) (side : BookSide) (price : Int) :
    (book.addL3Order order.orderId order.side order.price order.quantity timestamp priority seqNum
        isLast).phantomQtyAt side price =
      book.phantomQtyAt side price +
        if order.side = side ∧ order.price = price then order.quantity else 0 := by
  have replaced := @OrderBookL3.addOrder_replaces β _ book.l3 order timestamp priority seqNum isLast current
    (OrderBookL3.findOrder_eq_none.mp absent) positive ranked
  have moved := @phantomQtyAt_of_replaces β _ book (book.addL3Order order.orderId order.side order.price
    order.quantity timestamp priority seqNum isLast) side price order.orderId (some order)
    (by unfold addL3Order; rw [absorb_l3]; exact replaced) (absorb_orders ..)
  rw [moved, absent]
  simp [phantomShare, foreign]

theorem addL3Order_otherSide {id : Nat} {side : BookSide} {price qty : Int} (positive : 0 < qty)
    (other : Int) :
    (book.addL3Order id side price qty timestamp priority seqNum isLast).phantomQtyAt side.opposite other =
      book.phantomQtyAt side.opposite other := by
  have sameQueue : restingOrders (book.addL3Order id side price qty timestamp priority seqNum isLast).l3
      side.opposite = restingOrders book.l3 side.opposite := by
    unfold addL3Order
    rw [absorb_l3]
    show restingOrders (OrderBookL3.addOrder book.l3 id side price qty timestamp priority seqNum
      isLast).book _ = _
    by_cases declined : Regresses book.l3 seqNum ∨ ∃ order ∈ allOrders book.l3, order.orderId = id
    · rw [OrderBookL3.addOrder_discarded _ _ _ _ _ _ _ _ _ declined]
      rfl
    · obtain ⟨current, absent⟩ := not_or.mp declined
      have accepted := OrderBookL3.addOrder_accepted book.l3
        { orderId := id, side, price, quantity := qty, priority := effectivePriority priority timestamp }
        timestamp priority seqNum isLast current (fun order member same => absent ⟨order, member, same⟩)
        positive rfl
      exact accepted.2.2.2.1
  have sameOwner : (book.addL3Order id side price qty timestamp priority seqNum isLast).orders =
      book.orders := absorb_orders ..
  unfold phantomQtyAt findOrder
  rw [sameQueue, sameOwner]

theorem modifyL3Order_phantomQty {order : BookOrder} {qty : Int} (current : ¬ Regresses book.l3 seqNum)
    (rests : OrderBookL3.findOrder book.l3 order.orderId = some order)
    (foreign : book.findOrder order.orderId = none) (nonneg : 0 ≤ qty) (side : BookSide) (price : Int) :
    (book.modifyL3Order order.orderId order.price qty timestamp priority seqNum isLast).phantomQtyAt
        side price =
      book.phantomQtyAt side price -
        if order.side = side ∧ order.price = price then order.quantity - qty else 0 := by
  have member := (OrderBookL3.findOrder_eq_some.mp rests).1
  rcases Int.le_iff_eq_or_lt.mp nonneg with rfl | positive
  · have replaced := @OrderBookL3.deleteOrder_replaces β _ book.l3 order timestamp seqNum isLast current
      member
    have moved := @phantomQtyAt_of_replaces β _ book (book.modifyL3Order order.orderId order.price 0
      timestamp priority seqNum isLast) side price order.orderId none
      (by unfold modifyL3Order; rw [absorb_l3, OrderBookL3.modifyOrder_zero]; exact replaced)
      (absorb_orders ..)
    rw [moved, rests]
    simp [phantomShare, foreign]
  · let next : BookOrder := { order with
      quantity := qty, priority := effectivePriority priority timestamp }
    have replaced := @OrderBookL3.modifyOrder_replaces β _ book.l3 order next timestamp priority seqNum
      isLast current member positive rfl rfl rfl
    have moved := @phantomQtyAt_of_replaces β _ book (book.modifyL3Order order.orderId order.price qty
      timestamp priority seqNum isLast) side price order.orderId (some next)
      (by unfold modifyL3Order; rw [absorb_l3]; exact replaced) (absorb_orders ..)
    rw [moved, rests]
    simp only [Option.map_some, Option.getD_some, phantomShare, next, foreign, Option.isNone_none, and_true]
    split <;> omega

end Mutations

end OrderBook

theorem MatchState.Takes.phantomQtyAt {β : Type} [OrderBookL3 β] {env : Environment} {hand : Hand}
    {side : BookSide} {seqNum : Nat} {resting : BookOrder} {qty : Int} {state after : MatchState β}
    (takes : Takes env hand side seqNum resting qty state after)
    (inv : state.ledger.Represents hand) (member : resting ∈ restingOrders state.book.l3 side)
    (price : Int) :
    after.book.phantomQtyAt side price = state.book.phantomQtyAt side price -
      if resting.price = price ∧ (state.book.findOrder resting.orderId).isNone then qty else 0 := by
  have frame := takes.sweeps.takenFrom inv
  have distinct := OrderBookL3.restingOrders_distinct state.book.l3 side
  have sameShare : ∀ order ∈ restingOrders after.book.l3 side,
      after.book.phantomShare side price order = state.book.phantomShare side price order := by
    intro order inside
    have sameOwner : after.book.findOrder order.orderId = state.book.findOrder order.orderId :=
      frame.owner (by rw [entry_of_mem inside]; rintro ⟨⟩)
    unfold OrderBook.phantomShare
    rw [sameOwner]
  rw [OrderBook.phantomQtyAt_eq_queue, OrderBook.phantomQtyAt_eq_queue, List.map_congr_left sameShare,
    takes.queue]
  have share : ∀ quantity, state.book.phantomShare side price { resting with quantity } =
      if resting.price = price ∧ (state.book.findOrder resting.orderId).isNone then quantity else 0 := by
    intro quantity
    simp [OrderBook.phantomShare, OrderBookL3.side_of_mem member]
  have whole := share resting.quantity
  unfold takeFromQueue
  split <;> rename_i full
  · rw [sum_eraseKey _ distinct member, full, ← whole]
  · rw [((setKey_perm (fun _ => { resting with quantity := resting.quantity - qty }) distinct
      member).map _).sum_eq, List.map_cons, List.sum_cons, sum_eraseKey _ distinct member, share]
    rw [show state.book.phantomShare side price resting = _ from whole]
    split <;> omega

end SlickSim
