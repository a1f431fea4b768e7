import SlickSim.OrderBook.L3

/-!
# Facts about L3 books

Every accepted mutation exchanges the resting order of one id for another order
of that id, or for none. The levels of a side are its queue cut at the price
changes, so the best level is the front of the queue and a worse price never
stands before a better one.
-/

set_option autoImplicit false

namespace SlickSim

open KeyedList

theorem isPriceBetterOrEqual_iff {side : BookSide} {left right : Int} :
    isPriceBetterOrEqual side left right = true ↔
      isPriceBetter side left right = true ∨ left = right := by
  cases side <;> simp only [isPriceBetterOrEqual, isPriceBetter, decide_eq_true_eq] <;> omega

/-- Orders of one price rank by their priorities. -/
theorem BookOrder.ranksBefore.priority_le {side : BookSide} {left right : BookOrder}
    (ranks : left.ranksBefore side right) (samePrice : left.price = right.price) :
    left.priority ≤ right.priority := by
  rcases ranks with better | ⟨-, earlier⟩
  · rw [samePrice] at better
    unfold isPriceBetter at better
    cases side <;> simp at better
  · exact earlier

namespace OrderBookL3

variable {β : Type} [OrderBookL3 β]

theorem mem_allOrders {book : β} {order : BookOrder} :
    order ∈ allOrders book ↔ order ∈ restingOrders book order.side := by
  unfold allOrders
  rw [List.mem_append]
  constructor
  · rintro (member | member)
    · rw [side_of_mem member]; exact member
    · rw [side_of_mem member]; exact member
  · intro member
    cases side : order.side with
    | buy => exact .inl (side ▸ member)
    | sell => exact .inr (side ▸ member)

theorem mem_allOrders_of_mem {book : β} {side : BookSide} {order : BookOrder}
    (member : order ∈ restingOrders book side) : order ∈ allOrders book := by
  rw [mem_allOrders, side_of_mem member]
  exact member

theorem allOrders_distinct (book : β) :
    ((allOrders book).map BookOrder.orderId).Nodup :=
  distinct book

theorem restingOrders_distinct (book : β) (side : BookSide) :
    ((restingOrders book side).map BookOrder.orderId).Nodup := by
  have whole := distinct book
  rw [List.map_append] at whole
  cases side with
  | buy => exact (List.nodup_append.mp whole).1
  | sell => exact (List.nodup_append.mp whole).2.1

/-- One id rests at most once. -/
theorem eq_of_orderId {book : β} {left right : BookOrder} (leftRests : left ∈ allOrders book)
    (rightRests : right ∈ allOrders book) (same : left.orderId = right.orderId) : left = right :=
  eq_of_key (allOrders_distinct book) leftRests rightRests same

theorem absent_opposite {book : β} {order : BookOrder} (rests : order ∈ allOrders book) :
    ∀ other ∈ restingOrders book order.side.opposite, other.orderId ≠ order.orderId := by
  intro other member same
  have equal := eq_of_orderId (mem_allOrders_of_mem member) rests same
  have side := side_of_mem member
  rw [equal] at side
  exact order.side.opposite_ne side.symm

/-- A change of one side, the other untouched, is a change of the book. -/
theorem replaces_of_side {before after : β} {orderId : Nat} {next : Option BookOrder}
    (side : BookSide)
    (replaced : Replaces BookOrder.orderId orderId next (restingOrders before side)
      (restingOrders after side))
    (kept : restingOrders after side.opposite = restingOrders before side.opposite)
    (absent : ∀ other ∈ restingOrders before side.opposite, other.orderId ≠ orderId) :
    Replaces BookOrder.orderId orderId next (allOrders before) (allOrders after) := by
  unfold allOrders
  cases side with
  | buy =>
      rw [BookSide.opposite] at kept absent
      rw [kept]
      exact replaced.append_right absent
  | sell =>
      rw [BookSide.opposite] at kept absent
      rw [kept]
      exact replaced.append_left absent

theorem addOrder_replaces {book : β} {order : BookOrder} {timestamp priority seqNum : Nat}
    {isLast : Bool} (current : ¬ Regresses book seqNum)
    (fresh : ∀ other ∈ allOrders book, other.orderId ≠ order.orderId)
    (positive : 0 < order.quantity)
    (ranked : order.priority = effectivePriority priority timestamp) :
    Replaces BookOrder.orderId order.orderId (some order) (allOrders book)
      (allOrders (addOrder book order.orderId order.side order.price order.quantity timestamp
        priority seqNum isLast).book) := by
  obtain ⟨_, _, inserted, kept, _⟩ :=
    addOrder_accepted book order timestamp priority seqNum isLast current fresh positive ranked
  apply replaces_of_side order.side ?_ kept
  · intro other member
    exact fresh other (mem_allOrders_of_mem member)
  · unfold Replaces
    rw [eraseKey_of_absent fun other member => fresh other (mem_allOrders_of_mem member)]
    exact inserted.perm

theorem deleteOrder_replaces {book : β} {order : BookOrder} {timestamp seqNum : Nat}
    {isLast : Bool} (current : ¬ Regresses book seqNum) (rests : order ∈ allOrders book) :
    Replaces BookOrder.orderId order.orderId none (allOrders book)
      (allOrders (deleteOrder book order.orderId timestamp seqNum isLast).book) := by
  obtain ⟨_, _, erased, kept, _⟩ :=
    deleteOrder_accepted book order timestamp seqNum isLast current (mem_allOrders.mp rests)
  apply replaces_of_side order.side ?_ kept (absent_opposite rests)
  unfold Replaces
  rw [erased]
  exact List.Perm.refl _

theorem modifyOrder_replaces {book : β} {order next : BookOrder} {timestamp priority seqNum : Nat}
    {isLast : Bool} (current : ¬ Regresses book seqNum) (rests : order ∈ allOrders book)
    (positive : 0 < next.quantity) (sameId : next.orderId = order.orderId)
    (sameSide : next.side = order.side)
    (ranked : next.priority = effectivePriority priority timestamp) :
    Replaces BookOrder.orderId order.orderId (some next) (allOrders book)
      (allOrders (modifyOrder book order.orderId next.price next.quantity timestamp priority seqNum
        isLast).book) := by
  have member := mem_allOrders.mp rests
  obtain ⟨_, moved, kept, _⟩ := modifyOrder_accepted book order next timestamp priority seqNum
    isLast current member positive sameId sameSide ranked
  apply replaces_of_side order.side ?_ kept (absent_opposite rests)
  unfold Replaces
  split at moved
  · rw [moved]
    exact setKey_perm (fun _ => next) (restingOrders_distinct book order.side) member
  · exact moved.perm

/-- What an execution leaves of the order it hits. -/
def afterExecution (order : BookOrder) (executed : Int) : Option BookOrder :=
  if executed = order.quantity then none
  else some { order with quantity := order.quantity - executed }

theorem executeOrder_replaces {book : β} {order : BookOrder} {executed : Int}
    {timestamp seqNum : Nat} {isLast : Bool} (current : ¬ Regresses book seqNum)
    (rests : order ∈ allOrders book) (positive : 0 < executed)
    (within : executed ≤ order.quantity) :
    Replaces BookOrder.orderId order.orderId (afterExecution order executed) (allOrders book)
      (allOrders (executeOrder book order.orderId executed timestamp seqNum isLast).book) := by
  have member := mem_allOrders.mp rests
  obtain ⟨_, _, kept, effect⟩ := executeOrder_accepted book order executed timestamp seqNum isLast
    current member positive within
  apply replaces_of_side order.side ?_ kept (absent_opposite rests)
  unfold Replaces afterExecution
  by_cases full : executed = order.quantity
  · rw [if_pos full] at effect ⊢
    rw [effect.1]
    exact List.Perm.refl _
  · rw [if_neg full] at effect ⊢
    rw [effect.1]
    exact setKey_perm _ (restingOrders_distinct book order.side) member

theorem findOrder_eq_some {book : β} {orderId : Nat} {order : BookOrder} :
    findOrder book orderId = some order ↔ order ∈ allOrders book ∧ order.orderId = orderId := by
  constructor
  · intro found
    exact ⟨List.mem_of_find?_eq_some found, by simpa using List.find?_some found⟩
  · rintro ⟨rests, rfl⟩
    cases found : findOrder book order.orderId with
    | none =>
        have absent := List.find?_eq_none.mp found order rests
        simp at absent
    | some other =>
        have same : other.orderId = order.orderId := by simpa using List.find?_some found
        rw [eq_of_orderId (List.mem_of_find?_eq_some found) rests same]

theorem findOrder_eq_none {book : β} {orderId : Nat} :
    findOrder book orderId = none ↔ ∀ order ∈ allOrders book, order.orderId ≠ orderId := by
  unfold findOrder
  rw [List.find?_eq_none]
  simp

theorem findOrder_of_mem {book : β} {side : BookSide} {order : BookOrder}
    (member : order ∈ restingOrders book side) : findOrder book order.orderId = some order :=
  findOrder_eq_some.mpr ⟨mem_allOrders_of_mem member, rfl⟩

/-- An exchange of one id changes the lookup at that id only. -/
theorem findOrder_of_replaces {before after : β} {orderId : Nat} {next : Option BookOrder}
    (replaced : Replaces BookOrder.orderId orderId next (allOrders before) (allOrders after))
    (keyed : ∀ order, next = some order → order.orderId = orderId) :
    findOrder after = Function.update (findOrder before) orderId next := by
  funext id
  by_cases same : id = orderId
  · subst same
    rw [Function.update_self]
    cases next with
    | none =>
        apply findOrder_eq_none.mpr
        intro order rests
        rcases replaced.mem_iff.mp rests with absurd | kept
        · cases absurd
        · exact kept.2
    | some order =>
        exact findOrder_eq_some.mpr ⟨replaced.mem_iff.mpr (.inl rfl), keyed order rfl⟩
  · rw [Function.update_of_ne same]
    cases found : findOrder before id with
    | none =>
        apply findOrder_eq_none.mpr
        intro order rests taken
        rcases replaced.mem_iff.mp rests with rfl | kept
        · exact same (taken.symm.trans (keyed order rfl))
        · exact findOrder_eq_none.mp found order kept.1 taken
    | some order =>
        obtain ⟨rests, keyedSame⟩ := findOrder_eq_some.mp found
        apply findOrder_eq_some.mpr
        refine ⟨replaced.mem_iff.mpr (.inr ⟨rests, ?_⟩), keyedSame⟩
        rw [keyedSame]
        exact same

end OrderBookL3

end SlickSim
