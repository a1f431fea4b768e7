import SlickSim.Ledger.Fills

/-!
# Queues and what an aggressor can take from them

Facts about the levels `getLevelsL3` cuts a side into, the quantity within an
aggressor's reach, and the answer of `wouldSelfMatch` as a property of a queue.
-/

set_option autoImplicit false

namespace SlickSim

open KeyedList
open OrderBookL3 (restingOrders)

/-! ## Levels -/

theorem priceLevels_eq_cons {orders : List BookOrder} {level : PriceLevelL3}
    {levels : List PriceLevelL3} (cut : priceLevels orders = level :: levels) :
    ∃ rest, orders = level.orders ++ rest ∧ priceLevels rest = levels ∧ level.orders ≠ [] ∧
      ∀ order ∈ level.orders, order.price = level.price := by
  induction orders generalizing level levels with
  | nil => cases cut
  | cons order orders ih =>
      unfold priceLevels at cut
      cases below : priceLevels orders with
      | nil =>
          rw [below] at cut
          obtain ⟨rfl, rfl⟩ := List.cons.inj cut
          exact ⟨orders, rfl, below, List.cons_ne_nil _ _, by simp⟩
      | cons next others =>
          rw [below] at cut
          dsimp only at cut
          split at cut <;> rename_i samePrice
          · obtain ⟨rfl, rfl⟩ := List.cons.inj cut
            obtain ⟨rest, rfl, restLevels, -, prices⟩ := ih below
            refine ⟨rest, rfl, restLevels, List.cons_ne_nil _ _, ?_⟩
            intro other member
            rcases List.mem_cons.mp member with rfl | member
            · rfl
            · exact (prices other member).trans samePrice
          · obtain ⟨rfl, rfl⟩ := List.cons.inj cut
            exact ⟨orders, rfl, below, List.cons_ne_nil _ _, by simp⟩

theorem priceLevels_eq_nil {orders : List BookOrder} (cut : priceLevels orders = []) :
    orders = [] := by
  cases orders with
  | nil => rfl
  | cons order orders =>
      unfold priceLevels at cut
      split at cut
      · cases cut
      · split at cut <;> cases cut

theorem mem_priceLevels {orders : List BookOrder} {level : PriceLevelL3}
    (member : level ∈ priceLevels orders) :
    level.orders ≠ [] ∧ level.orders.Sublist orders ∧
      ∀ order ∈ level.orders, order.price = level.price := by
  generalize cut : priceLevels orders = levels at member
  induction levels generalizing orders with
  | nil => cases member
  | cons head tail ih =>
      obtain ⟨rest, rfl, restLevels, filled, prices⟩ := priceLevels_eq_cons cut
      rcases List.mem_cons.mp member with rfl | member
      · exact ⟨filled, List.sublist_append_left _ _, prices⟩
      · obtain ⟨filled, inside, prices⟩ := ih restLevels member
        exact ⟨filled, inside.trans (List.sublist_append_right _ _), prices⟩

theorem OrderBookL3.getLevel_eq_some {β : Type} [OrderBookL3 β] {book : β} {side : BookSide}
    {price : Int} {level : PriceLevelL3} (found : OrderBookL3.getLevel book side price = some level) :
    level.orders ≠ [] ∧ level.orders.Sublist (restingOrders book side) ∧
      ∀ order ∈ level.orders, order.price = price := by
  obtain ⟨filled, inside, prices⟩ := mem_priceLevels (List.mem_of_find?_eq_some found)
  have same : level.price = price := by simpa using List.find?_some found
  exact ⟨filled, inside, fun order member => (prices order member).trans same⟩

theorem beyondLimit_of_ranksBefore {side : BookSide} {limit : Int} {first later : BookOrder}
    (before : first.ranksBefore side later) (beyond : beyondLimit side first.price limit = true) :
    beyondLimit side later.price limit = true := by
  unfold beyondLimit isPriceBetterOrEqual at beyond ⊢
  unfold BookOrder.ranksBefore isPriceBetter at before
  cases side <;> simp at beyond before ⊢ <;> omega

namespace MatchState

variable {β : Type} [OrderBookL3 β] {state : MatchState β} {side : BookSide} {limit : Int}

/-- Nothing crossable: the whole side is beyond the limit. -/
theorem beyond_of_crossableLevel_none (none_crosses : state.crossableLevel side limit = none) :
    ∀ order ∈ restingOrders state.book.l3 side, beyondLimit side order.price limit = true := by
  unfold crossableLevel OrderBookL3.getBestLevel OrderBookL3.getLevelsL3 at none_crosses
  cases cut : priceLevels (restingOrders state.book.l3 side) with
  | nil =>
      rw [priceLevels_eq_nil cut]
      intro order member
      cases member
  | cons level levels =>
      have beyond : beyondLimit side level.price limit = true := by
        rw [cut] at none_crosses
        simpa [Option.filter] using none_crosses
      obtain ⟨rest, orders, -, filled, prices⟩ := priceLevels_eq_cons cut
      obtain ⟨front, queue, isQueue⟩ := List.exists_cons_of_ne_nil filled
      have ranked := OrderBookL3.ranked state.book.l3 side
      rw [orders, isQueue] at ranked ⊢
      have frontBeyond : beyondLimit side front.price limit = true := by
        rw [prices front (by rw [isQueue]; exact List.mem_cons_self)]
        exact beyond
      intro order member
      rcases List.mem_cons.mp member with rfl | member
      · exact frontBeyond
      · exact beyondLimit_of_ranksBefore ((List.pairwise_cons.mp ranked).1 order member) frontBeyond

theorem crossableLevel_eq_some {level : PriceLevelL3}
    (crosses : state.crossableLevel side limit = some level) :
    beyondLimit side level.price limit = false ∧
      ∃ rest, restingOrders state.book.l3 side = level.orders ++ rest ∧
        priceLevels (restingOrders state.book.l3 side) = level :: priceLevels rest ∧
        level.orders ≠ [] ∧ ∀ order ∈ level.orders, order.price = level.price := by
  unfold crossableLevel OrderBookL3.getBestLevel OrderBookL3.getLevelsL3 at crosses
  rw [Option.filter_eq_some_iff] at crosses
  obtain ⟨best, within⟩ := crosses
  obtain ⟨levels, cut⟩ := List.head?_eq_some_iff.mp best
  obtain ⟨rest, orders, restLevels, filled, prices⟩ := priceLevels_eq_cons cut
  exact ⟨by simpa using within, rest, orders, by rw [cut, restLevels], filled, prices⟩

theorem entry_of_mem {order : BookOrder} (member : order ∈ restingOrders state.book.l3 side) :
    state.ledger.entry order.orderId = some order :=
  OrderBookL3.findOrder_of_mem member

theorem mem_of_entry {id : Nat} {order : BookOrder} (rests : state.ledger.entry id = some order) :
    order ∈ restingOrders state.book.l3 order.side :=
  OrderBookL3.mem_allOrders.mp (OrderBookL3.findOrder_eq_some.mp rests).1

theorem beyond_of_queue
    (queue : ∀ order ∈ restingOrders state.book.l3 side, beyondLimit side order.price limit = true) :
    state.ledger.Beyond side limit := by
  intro id resting rests swept
  have member := mem_of_entry rests
  rw [swept] at member
  exact queue resting member

end MatchState

/-! ## What is within reach -/

section Reach

variable {side : BookSide} {limit qty : Int} {own : Nat → Bool} {resting : BookOrder}
  {orders : List BookOrder}

/-- What one order offers an aggressor that cannot trade with its own orders. -/
def offeredQty (side : BookSide) (limit : Int) (own : Nat → Bool) (order : BookOrder) : Int :=
  if beyondLimit side order.price limit = true ∨ own order.orderId = true then 0
  else order.quantity

/-- The quantity of a queue an aggressor can trade with. -/
def crossableQty (side : BookSide) (limit : Int) (own : Nat → Bool) (orders : List BookOrder) : Int :=
  (orders.map (offeredQty side limit own)).sum

theorem crossableQty_of_beyond
    (beyond : ∀ order ∈ orders, beyondLimit side order.price limit = true) :
    crossableQty side limit own orders = 0 := by
  unfold crossableQty
  apply List.sum_eq_zero
  intro offered member
  obtain ⟨order, inside, rfl⟩ := List.mem_map.mp member
  exact if_pos (.inl (beyond order inside))

theorem crossableQty_nonneg (positive : ∀ order ∈ orders, 0 < order.quantity) :
    0 ≤ crossableQty side limit own orders := by
  induction orders with
  | nil => exact Int.le_refl 0
  | cons order rest ih =>
      have tail := ih fun other member => positive other (List.mem_cons_of_mem _ member)
      have head := positive order List.mem_cons_self
      unfold crossableQty at tail ⊢
      rw [List.map_cons, List.sum_cons]
      unfold offeredQty at tail ⊢
      split <;> omega

theorem sum_takeFromQueue (weight : BookOrder → Int) {taken : Int} (distinct : (orders.map BookOrder.orderId).Nodup)
    (member : resting ∈ orders) (whole : qty = resting.quantity → weight resting = taken)
    (left : weight { resting with quantity := resting.quantity - qty } = weight resting - taken) :
    ((takeFromQueue resting qty orders).map weight).sum = (orders.map weight).sum - taken := by
  unfold takeFromQueue
  split
  · rename_i full
    rw [sum_eraseKey _ distinct member, whole full]
  · rw [((setKey_perm (fun _ => { resting with quantity := resting.quantity - qty }) distinct
      member).map _).sum_eq, List.map_cons, List.sum_cons, sum_eraseKey _ distinct member, left]
    omega

theorem crossableQty_fill (distinct : (orders.map BookOrder.orderId).Nodup)
    (member : resting ∈ orders) (within : beyondLimit side resting.price limit = false)
    (foreign : own resting.orderId = false) :
    crossableQty side limit own (takeFromQueue resting qty orders) =
      crossableQty side limit own orders - qty := by
  have offered : offeredQty side limit own resting = resting.quantity := by
    simp [offeredQty, within, foreign]
  refine sum_takeFromQueue _ distinct member (fun full => by rw [offered, full]) ?_
  rw [offered]
  simp [offeredQty, within, foreign]

theorem crossableQty_cancel (distinct : (orders.map BookOrder.orderId).Nodup)
    (member : resting ∈ orders) (mine : own resting.orderId = true) :
    crossableQty side limit own (takeFromQueue resting resting.quantity orders) =
      crossableQty side limit own orders := by
  have offered : offeredQty side limit own resting = 0 := by simp [offeredQty, mine]
  refine (sum_takeFromQueue _ distinct member (fun _ => offered) ?_).trans (Int.sub_zero _)
  simp [offeredQty, mine]

theorem takeFromQueue_front {rest : List BookOrder}
    (distinct : ((resting :: rest).map BookOrder.orderId).Nodup) :
    takeFromQueue resting resting.quantity (resting :: rest) = rest := by
  unfold takeFromQueue
  rw [if_pos rfl]
  exact eraseKey_head distinct

theorem takeFromQueue_middle {before rest : List BookOrder}
    (distinct : ((before ++ resting :: rest).map BookOrder.orderId).Nodup) :
    takeFromQueue resting resting.quantity (before ++ resting :: rest) = before ++ rest := by
  rw [List.map_append, List.nodup_append] at distinct
  obtain ⟨-, tail, apart⟩ := distinct
  unfold takeFromQueue
  rw [if_pos rfl, eraseKey_append, eraseKey_head tail, eraseKey_of_absent]
  intro order member
  exact apart _ (List.mem_map_of_mem member) _ List.mem_cons_self

theorem length_takeFromQueue_lt (member : resting ∈ orders) :
    (takeFromQueue resting resting.quantity orders).length < orders.length := by
  unfold takeFromQueue
  rw [if_pos rfl]
  exact List.length_filter_lt_length_iff_exists.mpr ⟨resting, member, by simp⟩

end Reach

/-! ## Self-matches -/

section SelfMatch

variable (side : BookSide) (limit : Int) (own : Nat → Bool)

/-- An aggressor that takes a queue front to back meets no order of its own. -/
def QueueClear : List BookOrder → Int → Prop
  | [], _ => True
  | order :: rest, qty =>
      0 < qty → beyondLimit side order.price limit = false →
        own order.orderId = false ∧ QueueClear rest (qty - order.quantity)

/-- An aggressor that takes level by level meets no level with an order of its own. -/
def LevelClear : List PriceLevelL3 → Int → Prop
  | [], _ => True
  | level :: rest, qty =>
      0 < qty → beyondLimit side level.price limit = false →
        (∀ order ∈ level.orders, own order.orderId = false) ∧
          LevelClear rest (qty - level.totalQuantity)

/-- What `wouldSelfMatch` rules out, for either reach. -/
def ReachClear (reach : Reach) (orders : List BookOrder) (qty : Int) : Prop :=
  match reach with
  | .queue => QueueClear side limit own orders qty
  | .level => LevelClear side limit own (priceLevels orders) qty

end SelfMatch

section Scan

variable {β : Type} {book : OrderBook β} {side : BookSide} {limit : Int} {own : Nat → Bool}
  {order : Order}

theorem QueueClear.of_nonpos {orders : List BookOrder} {qty : Int} (done : qty ≤ 0) :
    QueueClear side limit own orders qty := by
  cases orders with
  | nil => trivial
  | cons front rest =>
      intro more
      omega

theorem LevelClear.of_nonpos {levels : List PriceLevelL3} {qty : Int} (done : qty ≤ 0) :
    LevelClear side limit own levels qty := by
  cases levels with
  | nil => trivial
  | cons level rest =>
      intro more
      omega

private theorem queueClear_of_scanLevel (side : BookSide) (limit : Int) {orders : List BookOrder}
    (rest : List BookOrder) (qty : Int)
    (resolves : ∀ resting ∈ orders,
      isSelfMatch order (book.resolve resting.orderId) = own resting.orderId) :
    (∀ left, book.scanLevel .queue order orders qty = .ok left →
      QueueClear side limit own rest left → QueueClear side limit own (orders ++ rest) qty) ∧
    (book.scanLevel .queue order orders qty = .error false →
      QueueClear side limit own (orders ++ rest) qty) := by
  induction orders generalizing qty with
  | nil =>
      constructor
      · rintro left ⟨⟩ clear
        exact clear
      · rintro ⟨⟩
  | cons front others ih =>
      have mine := resolves front List.mem_cons_self
      unfold OrderBook.scanLevel
      by_cases done : qty ≤ 0
      · rw [if_pos ⟨rfl, done⟩]
        exact ⟨fun _ scanned => (by cases scanned), fun _ => .of_nonpos done⟩
      · rw [if_neg (fun both => done both.2), mine]
        cases foreign : own front.orderId with
        | true => exact ⟨fun _ scanned => (by cases scanned), fun scanned => (by cases scanned)⟩
        | false =>
            simp only [Bool.false_eq_true, if_false, if_true]
            obtain ⟨onOk, onError⟩ := ih (qty - min front.quantity qty)
              fun resting member => resolves resting (List.mem_cons_of_mem _ member)
            have step : QueueClear side limit own (others ++ rest) (qty - min front.quantity qty) →
                QueueClear side limit own (front :: others ++ rest) qty := by
              intro clear more within
              refine ⟨foreign, ?_⟩
              by_cases small : front.quantity ≤ qty
              · rwa [Int.min_eq_left small] at clear
              · exact .of_nonpos (by omega)
            exact ⟨fun left scanned clear => step (onOk left scanned clear),
              fun scanned => step (onError scanned)⟩

private theorem queueClear_of_scanLevels {levels : List PriceLevelL3} {qty : Int}
    (filled : ∀ level ∈ levels, level.orders ≠ [])
    (prices : ∀ level ∈ levels, ∀ resting ∈ level.orders, resting.price = level.price)
    (resolves : ∀ level ∈ levels, ∀ resting ∈ level.orders,
      isSelfMatch order (book.resolve resting.orderId) = own resting.orderId)
    (scanned : book.scanLevels .queue side order limit levels qty = false) :
    QueueClear side limit own (levels.flatMap PriceLevelL3.orders) qty := by
  induction levels generalizing qty with
  | nil => trivial
  | cons level rest ih =>
      rw [List.flatMap_cons]
      unfold OrderBook.scanLevels at scanned
      by_cases done : qty ≤ 0
      · exact .of_nonpos done
      rw [if_neg done] at scanned
      cases beyond : beyondLimit side level.price limit with
      | true =>
          obtain ⟨front, queue, isQueue⟩ :=
            List.exists_cons_of_ne_nil (filled level List.mem_cons_self)
          rw [isQueue]
          intro _ within
          rw [prices level List.mem_cons_self front (by rw [isQueue]; exact List.mem_cons_self),
            beyond] at within
          cases within
      | false =>
          rw [beyond] at scanned
          simp only [Bool.false_eq_true, if_false] at scanned
          obtain ⟨onOk, onError⟩ := queueClear_of_scanLevel side limit
            (rest.flatMap PriceLevelL3.orders) qty (resolves level List.mem_cons_self)
          cases inner : book.scanLevel .queue order level.orders qty with
          | error answer =>
              rw [inner] at scanned
              obtain rfl : answer = false := scanned
              exact onError inner
          | ok left =>
              rw [inner] at scanned
              simp only [reduceCtorEq, if_false] at scanned
              exact onOk left inner (ih
                (fun other member => filled other (List.mem_cons_of_mem _ member))
                (fun other member => prices other (List.mem_cons_of_mem _ member))
                (fun other member => resolves other (List.mem_cons_of_mem _ member)) scanned)

private theorem not_own_of_scanLevel {orders : List BookOrder} {qty left : Int}
    (resolves : ∀ resting ∈ orders,
      isSelfMatch order (book.resolve resting.orderId) = own resting.orderId)
    (scanned : book.scanLevel .level order orders qty = .ok left) :
    left = qty ∧ ∀ resting ∈ orders, own resting.orderId = false := by
  induction orders with
  | nil =>
      cases scanned
      exact ⟨rfl, by simp⟩
  | cons front rest ih =>
      unfold OrderBook.scanLevel at scanned
      rw [if_neg (by rintro ⟨⟨⟩, -⟩), resolves front List.mem_cons_self] at scanned
      cases foreign : own front.orderId with
      | true =>
          rw [foreign] at scanned
          cases scanned
      | false =>
          rw [foreign] at scanned
          simp only [Bool.false_eq_true, if_false, reduceCtorEq] at scanned
          obtain ⟨same, others⟩ :=
            ih (fun resting member => resolves resting (List.mem_cons_of_mem _ member)) scanned
          refine ⟨same, ?_⟩
          intro resting member
          rcases List.mem_cons.mp member with rfl | member
          · exact foreign
          · exact others resting member

private theorem scanLevel_level_ne_false {orders : List BookOrder} {qty : Int} :
    book.scanLevel .level order orders qty ≠ .error false := by
  induction orders with
  | nil => rintro ⟨⟩
  | cons front rest ih =>
      unfold OrderBook.scanLevel
      rw [if_neg (by rintro ⟨⟨⟩, -⟩)]
      split
      · rintro ⟨⟩
      · exact ih

private theorem levelClear_of_scanLevels {levels : List PriceLevelL3} {qty : Int}
    (resolves : ∀ level ∈ levels, ∀ resting ∈ level.orders,
      isSelfMatch order (book.resolve resting.orderId) = own resting.orderId)
    (scanned : book.scanLevels .level side order limit levels qty = false) :
    LevelClear side limit own levels qty := by
  induction levels generalizing qty with
  | nil => trivial
  | cons level rest ih =>
      intro more within
      unfold OrderBook.scanLevels at scanned
      rw [if_neg (by omega), within] at scanned
      simp only [Bool.false_eq_true, if_false] at scanned
      cases inner : book.scanLevel .level order level.orders qty with
      | error answer =>
          rw [inner] at scanned
          obtain rfl : answer = false := scanned
          exact absurd inner scanLevel_level_ne_false
      | ok left =>
          rw [inner] at scanned
          obtain ⟨rfl, foreign⟩ := not_own_of_scanLevel (resolves level List.mem_cons_self) inner
          simp only [if_true] at scanned
          refine ⟨foreign, ?_⟩
          have below := ih (fun other member => resolves other (List.mem_cons_of_mem _ member)) scanned
          by_cases small : level.totalQuantity ≤ left
          · rwa [Int.min_eq_left small] at below
          · exact .of_nonpos (by omega)

theorem flatMap_priceLevels (orders : List BookOrder) :
    (priceLevels orders).flatMap PriceLevelL3.orders = orders := by
  generalize cut : priceLevels orders = levels
  induction levels generalizing orders with
  | nil => rw [priceLevels_eq_nil cut, List.flatMap_nil]
  | cons level rest ih =>
      obtain ⟨below, rfl, restLevels, -, -⟩ := priceLevels_eq_cons cut
      rw [List.flatMap_cons, ih below restLevels]

/-- `wouldSelfMatch` answers no only if the aggressor meets none of its own orders. -/
theorem reachClear_of_wouldSelfMatch [OrderBookL3 β] {reach : Reach} {qty : Int}
    (resolves : ∀ resting ∈ restingOrders book.l3 side,
      isSelfMatch order (book.resolve resting.orderId) = own resting.orderId)
    (clear : book.wouldSelfMatch side reach order limit qty = false) :
    ReachClear side limit own reach (restingOrders book.l3 side) qty := by
  unfold OrderBook.wouldSelfMatch OrderBookL3.getLevelsL3 at clear
  have inside : ∀ level ∈ priceLevels (restingOrders book.l3 side), ∀ resting ∈ level.orders,
      isSelfMatch order (book.resolve resting.orderId) = own resting.orderId := by
    intro level member resting within
    exact resolves resting ((mem_priceLevels member).2.1.subset within)
  cases reach with
  | queue =>
      have flat := queueClear_of_scanLevels (fun level member => (mem_priceLevels member).1)
        (fun level member => (mem_priceLevels member).2.2) inside clear
      rwa [flatMap_priceLevels] at flat
  | level => exact levelClear_of_scanLevels inside clear

end Scan

end SlickSim
