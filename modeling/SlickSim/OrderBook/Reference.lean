import SlickSim.OrderBook.L3Properties

/-!
# A reference L3 book

Two sorted lists. An order that ties with resting ones is queued behind them,
and a level update reports the level as the mutation left it. Its purpose is to
run the model on concrete inputs and to show that the assumptions of
`OrderBookL3` can be met.
-/

set_option autoImplicit false

namespace SlickSim

open KeyedList

namespace BookOrder

variable {side : BookSide} {first second third : BookOrder}

theorem ranksBefore_trans (left : first.ranksBefore side second)
    (right : second.ranksBefore side third) : first.ranksBefore side third := by
  unfold ranksBefore isPriceBetter at *
  cases side <;> simp only [decide_eq_true_eq] at * <;> omega

theorem ranksBefore_total (later : ¬ first.ranksBefore side second) :
    second.ranksBefore side first := by
  unfold ranksBefore isPriceBetter at *
  cases side <;> simp only [decide_eq_true_eq] at * <;> omega

theorem ranksBefore_congr {other : BookOrder} (price : other.price = first.price)
    (priority : other.priority = first.priority) :
    (other.ranksBefore side second ↔ first.ranksBefore side second) ∧
      (second.ranksBefore side other ↔ second.ranksBefore side first) := by
  unfold ranksBefore
  rw [price, priority]
  exact ⟨Iff.rfl, Iff.rfl⟩

end BookOrder

/-- Queues an order behind every order that ranks before it. -/
def enqueue (side : BookSide) (order : BookOrder) (queue : List BookOrder) : List BookOrder :=
  queue.takeWhile (fun other => other.ranksBefore side order) ++
    order :: queue.dropWhile (fun other => other.ranksBefore side order)

theorem enqueue_inserts (side : BookSide) (order : BookOrder) (queue : List BookOrder) :
    Inserts order queue (enqueue side order queue) :=
  ⟨_, _, List.takeWhile_append_dropWhile.symm, rfl⟩

theorem enqueue_ranked {side : BookSide} {order : BookOrder} {queue : List BookOrder}
    (ranked : queue.Pairwise (BookOrder.ranksBefore side)) :
    (enqueue side order queue).Pairwise (BookOrder.ranksBefore side) := by
  induction queue with
  | nil => simp [enqueue]
  | cons head tail ih =>
      obtain ⟨first, rest⟩ := List.pairwise_cons.mp ranked
      by_cases before : head.ranksBefore side order
      · have step : enqueue side order (head :: tail) = head :: enqueue side order tail := by
          simp [enqueue, before]
        rw [step]
        refine List.pairwise_cons.mpr ⟨?_, ih rest⟩
        intro other member
        rcases (enqueue_inserts side order tail).mem_iff.mp member with rfl | inside
        · exact before
        · exact first other inside
      · have step : enqueue side order (head :: tail) = order :: head :: tail := by
          simp [enqueue, before]
        rw [step]
        have behind := BookOrder.ranksBefore_total before
        refine List.pairwise_cons.mpr ⟨?_, ranked⟩
        intro other member
        rcases List.mem_cons.mp member with rfl | inside
        · exact behind
        · exact BookOrder.ranksBefore_trans behind (first other inside)

structure ReferenceBook where
  orders : BookSide → List BookOrder
  seqNum : Nat
  sided : ∀ side, ∀ order ∈ orders side, order.side = side
  ranked : ∀ side, (orders side).Pairwise (BookOrder.ranksBefore side)
  distinct : ((orders .buy ++ orders .sell).map BookOrder.orderId).Nodup

namespace ReferenceBook

def empty : ReferenceBook where
  orders := fun _ => []
  seqNum := 0
  sided := by simp
  ranked := by simp
  distinct := by simp

def clear (book : ReferenceBook) : ReferenceBook :=
  { empty with seqNum := book.seqNum }

def all (book : ReferenceBook) : List BookOrder :=
  book.orders .buy ++ book.orders .sell

def regresses (book : ReferenceBook) (seqNum : Nat) : Bool :=
  decide (0 < seqNum ∧ seqNum < book.seqNum)

def find (book : ReferenceBook) (orderId : Nat) : Option BookOrder :=
  book.all.find? fun order => order.orderId = orderId

theorem mem_of_find {book : ReferenceBook} {orderId : Nat} {order : BookOrder}
    (found : book.find orderId = some order) :
    order ∈ book.orders order.side ∧ order.orderId = orderId := by
  have member : order ∈ book.all := List.mem_of_find?_eq_some found
  have same : order.orderId = orderId := by simpa using List.find?_some found
  refine ⟨?_, same⟩
  rcases List.mem_append.mp member with inside | inside
  · rw [book.sided _ _ inside]; exact inside
  · rw [book.sided _ _ inside]; exact inside

theorem find_of_mem {book : ReferenceBook} {order : BookOrder}
    (member : order ∈ book.orders order.side) : book.find order.orderId = some order := by
  have inside : order ∈ book.all := by
    unfold all
    cases side : order.side with
    | buy => exact List.mem_append_left _ (side ▸ member)
    | sell => exact List.mem_append_right _ (side ▸ member)
  cases found : book.find order.orderId with
  | none =>
      have absent := List.find?_eq_none.mp found order inside
      simp at absent
  | some other =>
      have same : other.orderId = order.orderId := by simpa using List.find?_some found
      rw [eq_of_key book.distinct (List.mem_of_find?_eq_some found) inside same]

theorem find_none {book : ReferenceBook} {orderId : Nat}
    (absent : ∀ order ∈ book.all, order.orderId ≠ orderId) : book.find orderId = none := by
  apply List.find?_eq_none.mpr
  intro order member
  simpa using absent order member

/-- The row of one level as the book holds it. -/
def levelRow (queue : List BookOrder) (side : BookSide) (price : Int) (timestamp seqNum : Nat)
    (lastInBatch : Bool) : PriceLevelUpdate :=
  let level := queue.filter fun order => order.price = price
  { side, price, quantity := (level.map BookOrder.quantity).sum, numOrders := level.length
    levelIndex := (priceLevels (queue.filter fun order => isPriceBetter side order.price price)).length
    timestamp, seqNum, lastInBatch }

def withQueue (book : ReferenceBook) (side : BookSide) (queue : List BookOrder) (seqNum : Nat)
    (sided : ∀ order ∈ queue, order.side = side)
    (ranked : queue.Pairwise (BookOrder.ranksBefore side))
    (ids : List.Nodup ((queue ++ book.orders side.opposite).map BookOrder.orderId)) :
    ReferenceBook where
  orders := fun other => if other = side then queue else book.orders other
  seqNum := max book.seqNum seqNum
  sided := by
    intro other order member
    by_cases same : other = side
    · subst same
      exact sided order (by simpa using member)
    · exact book.sided other order (by simpa [same] using member)
  ranked := by
    intro other
    by_cases same : other = side
    · subst same
      simpa using ranked
    · simpa [same] using book.ranked other
  distinct := by
    cases side with
    | buy => simpa [BookSide.opposite] using ids
    | sell =>
        have swapped := (List.perm_append_comm.map BookOrder.orderId).nodup_iff.mp ids
        simpa [BookSide.opposite] using swapped

theorem ids_of_perm (book : ReferenceBook) (side : BookSide) {queue : List BookOrder}
    (perm : (queue.map BookOrder.orderId).Sublist ((book.orders side).map BookOrder.orderId)) :
    ((queue ++ book.orders side.opposite).map BookOrder.orderId).Nodup := by
  have whole := book.distinct
  rw [List.map_append] at whole ⊢
  cases side with
  | buy => exact whole.sublist (perm.append_right _)
  | sell =>
      have swapped := (List.perm_append_comm).nodup_iff.mp whole
      exact swapped.sublist (perm.append_right _)

theorem ranked_of_erase (book : ReferenceBook) (side : BookSide) (orderId : Nat) :
    (eraseKey BookOrder.orderId orderId (book.orders side)).Pairwise (BookOrder.ranksBefore side) :=
  (book.ranked side).filter _

theorem ids_of_erase (book : ReferenceBook) (side : BookSide) (orderId : Nat) :
    ((eraseKey BookOrder.orderId orderId (book.orders side) ++ book.orders side.opposite).map
      BookOrder.orderId).Nodup :=
  book.ids_of_perm side (List.filter_sublist.map _)

theorem setKey_ids {queue : List BookOrder} {orderId : Nat} {next : BookOrder}
    (sameId : next.orderId = orderId) :
    (setKey BookOrder.orderId orderId (fun _ => next) queue).map BookOrder.orderId =
      queue.map BookOrder.orderId := by
  unfold setKey
  rw [List.map_map]
  apply List.map_congr_left
  intro order _
  by_cases same : order.orderId = orderId <;> simp [same, sameId]

theorem ids_of_insert {book : ReferenceBook} {side : BookSide} {queue after : List BookOrder}
    {order : BookOrder} (inserted : Inserts order queue after)
    (ids : ((queue ++ book.orders side.opposite).map BookOrder.orderId).Nodup)
    (fresh : ∀ other ∈ queue ++ book.orders side.opposite, other.orderId ≠ order.orderId) :
    ((after ++ book.orders side.opposite).map BookOrder.orderId).Nodup := by
  have perm := (inserted.perm.append_right (book.orders side.opposite)).map BookOrder.orderId
  apply perm.nodup_iff.mpr
  simp only [List.cons_append, List.map_cons, List.nodup_cons]
  refine ⟨?_, ids⟩
  intro member
  obtain ⟨other, inside, same⟩ := List.mem_map.mp member
  exact fresh other inside same

theorem fresh_split {book : ReferenceBook} {side : BookSide} {orderId : Nat}
    (absent : book.find orderId = none) :
    ∀ other ∈ book.orders side ++ book.orders side.opposite, other.orderId ≠ orderId := by
  intro other member same
  have none := List.find?_eq_none.mp absent other (by
    unfold all
    cases side <;> simpa [BookSide.opposite, or_comm] using member)
  simp [same] at none

def addOrder (book : ReferenceBook) (orderId : Nat) (side : BookSide) (price quantity : Int)
    (timestamp priority seqNum : Nat) (isLast : Bool) : L3Result ReferenceBook :=
  if book.regresses seqNum then .discarded book
  else
    match absent : book.find orderId with
    | some _ => .discarded book
    | none =>
        let order : BookOrder :=
          ⟨orderId, side, price, quantity, effectivePriority priority timestamp⟩
        let queue := enqueue side order (book.orders side)
        { book := book.withQueue side queue seqNum
            (by
              intro other member
              rcases (enqueue_inserts _ _ _).mem_iff.mp member with rfl | inside
              · rfl
              · exact book.sided _ _ inside)
            (enqueue_ranked (book.ranked side))
            (ids_of_insert (enqueue_inserts _ _ _) (book.ids_of_perm side (List.Sublist.refl _))
              (fresh_split absent))
          accepted := true
          orderUpdates := [order.added timestamp]
          levelUpdates := [levelRow queue side price timestamp seqNum isLast] }

def remove (book : ReferenceBook) (order : BookOrder) (timestamp seqNum : Nat) (isLast : Bool) :
    L3Result ReferenceBook :=
  let queue := eraseKey BookOrder.orderId order.orderId (book.orders order.side)
  { book := book.withQueue order.side queue seqNum
      (fun _ member => book.sided _ _ (mem_eraseKey.mp member).1)
      (book.ranked_of_erase order.side order.orderId)
      (book.ids_of_erase order.side order.orderId)
    accepted := true
    orderUpdates := [order.removed timestamp]
    levelUpdates := [levelRow queue order.side order.price timestamp seqNum isLast] }

def deleteOrder (book : ReferenceBook) (orderId timestamp seqNum : Nat) (isLast : Bool) :
    L3Result ReferenceBook :=
  if book.regresses seqNum then .discarded book
  else
    match book.find orderId with
    | none => .discarded book
    | some order => book.remove order timestamp seqNum isLast

theorem resize_ranked {side : BookSide} {queue : List BookOrder} {order next : BookOrder}
    (ranked : queue.Pairwise (BookOrder.ranksBefore side))
    (price : ∀ other ∈ queue, other.orderId = order.orderId → next.price = other.price)
    (priority : ∀ other ∈ queue, other.orderId = order.orderId → next.priority = other.priority) :
    (setKey BookOrder.orderId order.orderId (fun _ => next) queue).Pairwise
      (BookOrder.ranksBefore side) := by
  unfold setKey
  apply List.pairwise_map.mpr
  refine ranked.imp_of_mem ?_
  intro left right leftMember rightMember before
  by_cases leftSame : left.orderId = order.orderId <;>
    by_cases rightSame : right.orderId = order.orderId <;>
    simp only [leftSame, rightSame, ↓reduceIte]
  · exact .inr ⟨rfl, le_refl _⟩
  · exact (BookOrder.ranksBefore_congr (price left leftMember leftSame)
      (priority left leftMember leftSame)).1.mpr before
  · exact (BookOrder.ranksBefore_congr (price right rightMember rightSame)
      (priority right rightMember rightSame)).2.mpr before
  · exact before

/-- A resting order stays where it stands under another quantity. -/
def resize (book : ReferenceBook) (order : BookOrder) (member : order ∈ book.orders order.side)
    (quantity : Int) (seqNum : Nat) : ReferenceBook :=
  let next := { order with quantity }
  book.withQueue order.side
    (setKey BookOrder.orderId order.orderId (fun _ => next) (book.orders order.side)) seqNum
    (by
      intro other inside
      obtain ⟨original, originalMember, rfl⟩ := List.mem_map.mp inside
      split
      · rfl
      · exact book.sided _ _ originalMember)
    (by
      have only : ∀ other ∈ book.orders order.side, other.orderId = order.orderId → other = order := by
        intro other inside same
        have ids := book.ids_of_perm order.side (List.Sublist.refl _)
        rw [List.map_append] at ids
        exact eq_of_key (List.nodup_append.mp ids).1 inside member same
      apply resize_ranked (book.ranked order.side)
      · intro other inside same; rw [only other inside same]
      · intro other inside same; rw [only other inside same])
    (book.ids_of_perm order.side (by rw [setKey_ids (show next.orderId = order.orderId from rfl)]))

/-- A resting order is requeued under another price or priority. -/
def move (book : ReferenceBook) (order next : BookOrder) (member : order ∈ book.orders order.side)
    (sameId : next.orderId = order.orderId) (sameSide : next.side = order.side) (seqNum : Nat) :
    ReferenceBook :=
  let rest := eraseKey BookOrder.orderId order.orderId (book.orders order.side)
  book.withQueue order.side (enqueue order.side next rest) seqNum
    (by
      intro other inside
      rcases (enqueue_inserts _ _ _).mem_iff.mp inside with rfl | inside
      · exact sameSide
      · exact book.sided _ _ (mem_eraseKey.mp inside).1)
    (enqueue_ranked (book.ranked_of_erase order.side order.orderId))
    (by
      apply ids_of_insert (enqueue_inserts _ _ _) (book.ids_of_erase order.side order.orderId)
      intro other inside same
      rw [sameId] at same
      rcases List.mem_append.mp inside with inside | inside
      · exact (mem_eraseKey.mp inside).2 same
      · have ids := book.ids_of_perm order.side (List.Sublist.refl _)
        have equal := eq_of_key ids (List.mem_append_right _ inside)
          (List.mem_append_left _ member) same
        have side := book.sided _ _ inside
        rw [equal] at side
        exact order.side.opposite_ne side.symm)

def modifyOrder (book : ReferenceBook) (orderId : Nat) (newPrice newQuantity : Int)
    (timestamp priority seqNum : Nat) (isLast : Bool) : L3Result ReferenceBook :=
  if newQuantity = 0 then book.deleteOrder orderId timestamp seqNum isLast
  else if book.regresses seqNum then .discarded book
  else
    match found : book.find orderId with
    | none => .discarded book
    | some order =>
        let next := { order with
          price := newPrice, quantity := newQuantity, priority := effectivePriority priority timestamp }
        let changed :=
          if order.price = next.price ∧ order.priority = next.priority then
            book.resize order (mem_of_find found).1 newQuantity seqNum
          else book.move order next (mem_of_find found).1 rfl rfl seqNum
        { book := changed
          accepted := true
          orderUpdates := if next = order then [] else [order.changed next timestamp]
          levelUpdates :=
            if next = order then []
            else if order.price = newPrice then
              [levelRow (changed.orders order.side) order.side newPrice timestamp seqNum isLast]
            else
              [levelRow (changed.orders order.side) order.side order.price timestamp seqNum false,
                levelRow (changed.orders order.side) order.side newPrice timestamp seqNum isLast] }

def executeOrder (book : ReferenceBook) (orderId : Nat) (executedQuantity : Int)
    (timestamp seqNum : Nat) (isLast : Bool) : L3Result ReferenceBook :=
  if book.regresses seqNum then .discarded book
  else
    match found : book.find orderId with
    | none => .discarded book
    | some order =>
        if executedQuantity = order.quantity then book.remove order timestamp seqNum isLast
        else
          let next := { order with quantity := order.quantity - executedQuantity }
          let changed := book.resize order (mem_of_find found).1 next.quantity seqNum
          { book := changed
            accepted := true
            orderUpdates := [order.changed next timestamp]
            levelUpdates :=
              [levelRow (changed.orders order.side) order.side order.price timestamp seqNum isLast] }

@[simp] theorem withQueue_orders_self (book : ReferenceBook) (side : BookSide)
    (queue : List BookOrder) (seqNum : Nat) (sided : ∀ order ∈ queue, order.side = side)
    (ranked : queue.Pairwise (BookOrder.ranksBefore side))
    (ids : List.Nodup ((queue ++ book.orders side.opposite).map BookOrder.orderId)) :
    (book.withQueue side queue seqNum sided ranked ids).orders side = queue := by
  simp [withQueue]

@[simp] theorem withQueue_orders_opposite (book : ReferenceBook) (side : BookSide)
    (queue : List BookOrder) (seqNum : Nat) (sided : ∀ order ∈ queue, order.side = side)
    (ranked : queue.Pairwise (BookOrder.ranksBefore side))
    (ids : List.Nodup ((queue ++ book.orders side.opposite).map BookOrder.orderId)) :
    (book.withQueue side queue seqNum sided ranked ids).orders side.opposite =
      book.orders side.opposite := by
  simp [withQueue, side.opposite_ne]

theorem discarded_of {book : ReferenceBook} {orderId seqNum : Nat}
    (reason : 0 < seqNum ∧ seqNum < book.seqNum ∨ ∀ order ∈ book.all, order.orderId ≠ orderId) :
    book.regresses seqNum = true ∨ book.find orderId = none := by
  rcases reason with regress | absent
  · exact .inl (by simpa [regresses] using regress)
  · exact .inr (find_none absent)

theorem deleteOrder_of_mem {book : ReferenceBook} {order : BookOrder} {timestamp seqNum : Nat}
    {isLast : Bool} (current : ¬ (0 < seqNum ∧ seqNum < book.seqNum))
    (member : order ∈ book.orders order.side) :
    book.deleteOrder order.orderId timestamp seqNum isLast =
      book.remove order timestamp seqNum isLast := by
  have kept : book.regresses seqNum = false := by simpa [regresses] using current
  simp [deleteOrder, kept, find_of_mem member]

/-! ## Level updates -/

/-- Rows that show their levels as the queue has them tell the change of the queue, if the
levels without a row have not changed. -/
theorem tells_of_rows {book after : ReferenceBook} {side : BookSide} {rows : List PriceLevelUpdate}
    {updates : List OrderUpdate} {orderId : Nat} {accepted : Bool}
    (opposite : after.orders side.opposite = book.orders side.opposite)
    (here : ∀ row ∈ rows, row.side = side ∧ row.quantity = levelQty (after.orders side) row.price)
    (affected : ∀ row ∈ rows, ∃ order, (order ∈ book.orders side ∨ order ∈ after.orders side) ∧
      order.orderId = orderId ∧ order.price = row.price)
    (unchanged : ∀ price, (∀ row ∈ rows, row.price ≠ price) →
      levelQty (after.orders side) price = levelQty (book.orders side) price) :
    L3Result.TellsLevels ReferenceBook.orders book orderId
      { book := after, accepted, orderUpdates := updates, levelUpdates := rows } := by
  constructor
  · intro row member
    rw [(here row member).1]
    exact affected row member
  · intro other price
    dsimp only
    unfold toldQty
    cases last : (rows.filter fun row => row.side = other ∧ row.price = price).getLast? with
    | some row =>
        obtain ⟨member, shown⟩ := List.mem_filter.mp (List.mem_of_getLast? last)
        obtain ⟨rfl, rfl⟩ : row.side = other ∧ row.price = price := by simpa using shown
        obtain ⟨sameSide, quantity⟩ := here row member
        rw [sameSide]
        exact quantity
    | none =>
        have absent := List.filter_eq_nil_iff.mp (List.getLast?_eq_none_iff.mp last)
        by_cases same : other = side
        · subst same
          refine (unchanged price fun row member samePrice => ?_).symm
          exact absent row member (by simp [(here row member).1, samePrice])
        · rw [BookSide.eq_opposite_of_ne same, opposite]
          rfl

theorem tells_discarded (book : ReferenceBook) (orderId : Nat) :
    (L3Result.discarded book).TellsLevels ReferenceBook.orders book orderId :=
  ⟨by rintro _ ⟨⟩, fun _ _ => rfl⟩

theorem levelRow_quantity (queue : List BookOrder) (side : BookSide) (price : Int) (timestamp seqNum : Nat)
    (isLast : Bool) :
    (levelRow queue side price timestamp seqNum isLast).quantity = levelQty queue price := by
  unfold levelRow levelQty
  dsimp only
  induction queue with
  | nil => rfl
  | cons order rest ih =>
      rw [List.filter_cons, List.map_cons, List.sum_cons, ← ih]
      unfold BookOrder.qtyAt
      by_cases here : order.price = price <;> simp [here]

private theorem distinct_of_side (book : ReferenceBook) (side : BookSide) :
    ((book.orders side).map BookOrder.orderId).Nodup := by
  have ids := book.ids_of_perm side (List.Sublist.refl _)
  rw [List.map_append] at ids
  exact (List.nodup_append.mp ids).1

private theorem qtyAt_of_ne {order : BookOrder} {price : Int} (different : order.price ≠ price) :
    order.qtyAt price = 0 :=
  if_neg different

theorem levelQty_enqueue (side : BookSide) (order : BookOrder) (queue : List BookOrder) (price : Int) :
    levelQty (enqueue side order queue) price = order.qtyAt price + levelQty queue price := by
  unfold levelQty
  rw [((enqueue_inserts side order queue).perm.map _).sum_eq, List.map_cons, List.sum_cons]

theorem levelQty_erase {book : ReferenceBook} {order : BookOrder} (member : order ∈ book.orders order.side)
    (price : Int) :
    levelQty (eraseKey BookOrder.orderId order.orderId (book.orders order.side)) price =
      levelQty (book.orders order.side) price - order.qtyAt price :=
  sum_eraseKey (fun other : BookOrder => other.qtyAt price) (book.distinct_of_side order.side) member

theorem levelQty_set {book : ReferenceBook} {order : BookOrder} (next : BookOrder)
    (member : order ∈ book.orders order.side) (price : Int) :
    levelQty (setKey BookOrder.orderId order.orderId (fun _ => next) (book.orders order.side)) price =
      next.qtyAt price + (levelQty (book.orders order.side) price - order.qtyAt price) := by
  rw [← levelQty_erase member]
  unfold levelQty
  rw [((setKey_perm (fun _ => next) (book.distinct_of_side order.side) member).map _).sum_eq,
    List.map_cons, List.sum_cons]

theorem addOrder_tells (book : ReferenceBook) (orderId : Nat) (side : BookSide) (price quantity : Int)
    (timestamp priority seqNum : Nat) (isLast : Bool) :
    (book.addOrder orderId side price quantity timestamp priority seqNum isLast).TellsLevels
      ReferenceBook.orders book orderId := by
  unfold addOrder
  split
  · exact book.tells_discarded orderId
  · split
    · exact book.tells_discarded orderId
    · dsimp only
      apply tells_of_rows (withQueue_orders_opposite ..)
      · intro row member
        obtain rfl := List.mem_singleton.mp member
        rw [withQueue_orders_self]
        exact ⟨rfl, levelRow_quantity ..⟩
      · intro row member
        obtain rfl := List.mem_singleton.mp member
        rw [withQueue_orders_self]
        exact ⟨_, .inr ((enqueue_inserts ..).mem_iff.mpr (.inl rfl)), rfl, rfl⟩
      · intro other untold
        have different : price ≠ other := untold _ (List.mem_singleton_self _)
        rw [withQueue_orders_self, levelQty_enqueue, qtyAt_of_ne different, zero_add]

theorem remove_tells {book : ReferenceBook} {order : BookOrder} (member : order ∈ book.orders order.side)
    (timestamp seqNum : Nat) (isLast : Bool) :
    (book.remove order timestamp seqNum isLast).TellsLevels ReferenceBook.orders book order.orderId := by
  unfold remove
  apply tells_of_rows (withQueue_orders_opposite ..)
  · intro row inside
    obtain rfl := List.mem_singleton.mp inside
    rw [withQueue_orders_self]
    exact ⟨rfl, levelRow_quantity ..⟩
  · intro row inside
    obtain rfl := List.mem_singleton.mp inside
    exact ⟨order, .inl member, rfl, rfl⟩
  · intro other untold
    have different : order.price ≠ other := untold _ (List.mem_singleton_self _)
    rw [withQueue_orders_self, levelQty_erase member, qtyAt_of_ne different, sub_zero]

theorem deleteOrder_tells (book : ReferenceBook) (orderId timestamp seqNum : Nat) (isLast : Bool) :
    (book.deleteOrder orderId timestamp seqNum isLast).TellsLevels ReferenceBook.orders book orderId := by
  unfold deleteOrder
  split
  · exact book.tells_discarded orderId
  · split
    · exact book.tells_discarded orderId
    · rename_i order found
      obtain ⟨member, rfl⟩ := mem_of_find found
      exact remove_tells member timestamp seqNum isLast

theorem resize_orders (book : ReferenceBook) (order : BookOrder) (member : order ∈ book.orders order.side)
    (quantity : Int) (seqNum : Nat) :
    (book.resize order member quantity seqNum).orders order.side =
      setKey BookOrder.orderId order.orderId (fun _ => { order with quantity })
        (book.orders order.side) := by
  unfold resize
  exact withQueue_orders_self ..

theorem resize_opposite (book : ReferenceBook) (order : BookOrder)
    (member : order ∈ book.orders order.side) (quantity : Int) (seqNum : Nat) :
    (book.resize order member quantity seqNum).orders order.side.opposite =
      book.orders order.side.opposite := by
  unfold resize
  exact withQueue_orders_opposite ..

theorem move_opposite (book : ReferenceBook) (order next : BookOrder)
    (member : order ∈ book.orders order.side) (sameId : next.orderId = order.orderId)
    (sameSide : next.side = order.side) (seqNum : Nat) :
    (book.move order next member sameId sameSide seqNum).orders order.side.opposite =
      book.orders order.side.opposite := by
  unfold move
  exact withQueue_orders_opposite ..

theorem move_orders (book : ReferenceBook) (order next : BookOrder)
    (member : order ∈ book.orders order.side) (sameId : next.orderId = order.orderId)
    (sameSide : next.side = order.side) (seqNum : Nat) :
    (book.move order next member sameId sameSide seqNum).orders order.side =
      enqueue order.side next (eraseKey BookOrder.orderId order.orderId (book.orders order.side)) := by
  unfold move
  exact withQueue_orders_self ..

theorem executeOrder_tells (book : ReferenceBook) (orderId : Nat) (executedQuantity : Int)
    (timestamp seqNum : Nat) (isLast : Bool) :
    (book.executeOrder orderId executedQuantity timestamp seqNum isLast).TellsLevels
      ReferenceBook.orders book orderId := by
  unfold executeOrder
  split
  · exact book.tells_discarded orderId
  · split
    · exact book.tells_discarded orderId
    · rename_i order found
      obtain ⟨member, rfl⟩ := mem_of_find found
      split
      · exact remove_tells member timestamp seqNum isLast
      · apply tells_of_rows (book.resize_opposite order member _ seqNum)
        · intro row inside
          obtain rfl := List.mem_singleton.mp inside
          exact ⟨rfl, levelRow_quantity ..⟩
        · intro row inside
          obtain rfl := List.mem_singleton.mp inside
          exact ⟨order, .inl member, rfl, rfl⟩
        · intro other untold
          have different : order.price ≠ other := untold _ (List.mem_singleton_self _)
          rw [resize_orders, levelQty_set _ member, qtyAt_of_ne different, sub_zero]
          exact (congrArg (· + _) (if_neg different)).trans (zero_add _)

private theorem modified_levelQty {book : ReferenceBook} {order : BookOrder} (next : BookOrder)
    (member : order ∈ book.orders order.side) (sameId : next.orderId = order.orderId)
    (sameSide : next.side = order.side) (seqNum : Nat) (newQuantity : Int)
    (isNext : next.quantity = newQuantity) {price : Int} :
    levelQty ((if order.price = next.price ∧ order.priority = next.priority then
        book.resize order member newQuantity seqNum
      else book.move order next member sameId sameSide seqNum).orders order.side) price =
      next.qtyAt price + (levelQty (book.orders order.side) price - order.qtyAt price) := by
  split <;> rename_i stays
  · rw [resize_orders, levelQty_set _ member]
    unfold BookOrder.qtyAt
    rw [stays.1, isNext]
  · rw [move_orders, levelQty_enqueue, levelQty_erase member]

theorem modifyOrder_tells (book : ReferenceBook) (orderId : Nat) (newPrice newQuantity : Int)
    (timestamp priority seqNum : Nat) (isLast : Bool) :
    (book.modifyOrder orderId newPrice newQuantity timestamp priority seqNum isLast).TellsLevels
      ReferenceBook.orders book orderId := by
  unfold modifyOrder
  split
  · exact book.deleteOrder_tells orderId timestamp seqNum isLast
  · split
    · exact book.tells_discarded orderId
    · split
      · exact book.tells_discarded orderId
      · rename_i order found
        obtain ⟨member, isId⟩ := mem_of_find found
        dsimp only
        generalize isChanged : (if order.price = newPrice ∧
          order.priority = effectivePriority priority timestamp then _ else _ : ReferenceBook) = changed
        have quantities : ∀ price, levelQty (changed.orders order.side) price =
            BookOrder.qtyAt { order with price := newPrice, quantity := newQuantity } price +
              (levelQty (book.orders order.side) price - order.qtyAt price) := by
          intro price
          rw [← isChanged]
          exact modified_levelQty { order with
            price := newPrice, quantity := newQuantity, priority := effectivePriority priority timestamp }
            member rfl rfl seqNum newQuantity rfl
        have opposite : changed.orders order.side.opposite = book.orders order.side.opposite := by
          rw [← isChanged]
          split
          · exact resize_opposite ..
          · exact move_opposite ..
        obtain ⟨moved, isMoved, movedId, movedPrice⟩ : ∃ next, next ∈ changed.orders order.side ∧
            next.orderId = order.orderId ∧ next.price = newPrice := by
          rw [← isChanged]
          split <;> rename_i stays
          · rw [resize_orders]
            exact ⟨{ order with quantity := newQuantity }, List.mem_map.mpr ⟨order, member, if_pos rfl⟩,
              rfl, stays.1⟩
          · rw [move_orders]
            exact ⟨_, (enqueue_inserts ..).mem_iff.mpr (.inl rfl), rfl, rfl⟩
        have atOld : ∃ other, (other ∈ book.orders order.side ∨ other ∈ changed.orders order.side) ∧
            other.orderId = orderId ∧ other.price = order.price := ⟨order, .inl member, isId, rfl⟩
        have atNew : ∃ other, (other ∈ book.orders order.side ∨ other ∈ changed.orders order.side) ∧
            other.orderId = orderId ∧ other.price = newPrice :=
          ⟨moved, .inr isMoved, movedId.trans isId, movedPrice⟩
        split <;> rename_i untouched
        · -- Nothing changed, and nothing is told.
          refine tells_of_rows opposite (by rintro _ ⟨⟩) (by rintro _ ⟨⟩) fun price _ => ?_
          have same : BookOrder.qtyAt { order with price := newPrice, quantity := newQuantity } price =
              order.qtyAt price :=
            (rfl : _ = BookOrder.qtyAt { order with
              price := newPrice, quantity := newQuantity
              priority := effectivePriority priority timestamp } price).trans
              (congrArg (fun other : BookOrder => other.qtyAt price) untouched)
          rw [quantities, same]
          omega
        · split <;> rename_i samePrice
          · refine tells_of_rows opposite ?_ ?_ ?_
            · intro row inside
              obtain rfl := List.mem_singleton.mp inside
              exact ⟨rfl, levelRow_quantity ..⟩
            · intro row inside
              obtain rfl := List.mem_singleton.mp inside
              exact atNew
            · intro other untold
              have different : newPrice ≠ other := untold _ (List.mem_singleton_self _)
              rw [quantities, qtyAt_of_ne (show BookOrder.price _ ≠ other from different),
                qtyAt_of_ne (samePrice ▸ different), zero_add, sub_zero]
          · refine tells_of_rows opposite ?_ ?_ ?_
            · intro row inside
              rcases List.mem_pair.mp inside with rfl | rfl <;> exact ⟨rfl, levelRow_quantity ..⟩
            · intro row inside
              rcases List.mem_pair.mp inside with rfl | rfl
              · exact atOld
              · exact atNew
            · intro other untold
              have old : order.price ≠ other := untold _ List.mem_cons_self
              have new : newPrice ≠ other := untold _ (List.mem_pair.mpr (.inr rfl))
              rw [quantities, qtyAt_of_ne (show BookOrder.price _ ≠ other from new), qtyAt_of_ne old,
                zero_add, sub_zero]

end ReferenceBook

open ReferenceBook in
instance : OrderBookL3 ReferenceBook where
  empty := ReferenceBook.empty
  restingOrders := ReferenceBook.orders
  lastSeqNum := ReferenceBook.seqNum
  levelIndex := fun book side price =>
    (priceLevels ((book.orders side).filter fun order => isPriceBetter side order.price price)).length
  addOrder := ReferenceBook.addOrder
  modifyOrder := ReferenceBook.modifyOrder
  deleteOrder := ReferenceBook.deleteOrder
  executeOrder := ReferenceBook.executeOrder
  clear := ReferenceBook.clear
  side_of_mem := fun member => ReferenceBook.sided _ _ _ member
  ranked := fun book side => book.ranked side
  distinct := fun book => book.distinct
  empty_restingOrders := fun _ => rfl
  clear_restingOrders := fun _ _ => rfl
  clear_lastSeqNum := fun _ => rfl
  addOrder_discarded := by
    intro book orderId side price quantity timestamp priority seqNum isLast reason
    unfold ReferenceBook.addOrder
    split
    · rfl
    · rename_i current
      rcases reason with regress | ⟨order, member, same⟩
      · exact absurd (by simpa [regresses] using regress) current
      · split
        · rfl
        · rename_i absent
          have none := List.find?_eq_none.mp absent order member
          simp [same] at none
  modifyOrder_discarded := by
    intro book orderId newPrice newQuantity timestamp priority seqNum isLast reason
    have cases := discarded_of reason
    unfold ReferenceBook.modifyOrder ReferenceBook.deleteOrder
    rcases cases with regress | absent
    · simp [regress]
    · split
      · simp [absent]
      · split
        · rfl
        · split
          · rfl
          · rename_i found
            rw [absent] at found
            cases found
  deleteOrder_discarded := by
    intro book orderId timestamp seqNum isLast reason
    unfold ReferenceBook.deleteOrder
    rcases discarded_of reason with regress | absent
    · simp [regress]
    · simp [absent]
  executeOrder_discarded := by
    intro book orderId executed timestamp seqNum isLast reason
    unfold ReferenceBook.executeOrder
    rcases discarded_of reason with regress | absent
    · simp [regress]
    · split
      · rfl
      · split
        · rfl
        · rename_i found
          rw [absent] at found
          cases found
  addOrder_accepted := by
    intro book order timestamp priority seqNum isLast current fresh positive ranked
    have kept : book.regresses seqNum = false := by simpa [regresses] using current
    have absent : book.find order.orderId = none := find_none fresh
    have same : (⟨order.orderId, order.side, order.price, order.quantity,
        effectivePriority priority timestamp⟩ : BookOrder) = order := by
      rw [← ranked]
    dsimp only
    unfold ReferenceBook.addOrder
    rw [if_neg (by simp [kept])]
    split
    · rename_i found
      rw [absent] at found
      cases found
    · dsimp only
      refine ⟨rfl, rfl, ?_, ?_, ?_⟩
      · rw [withQueue_orders_self, same]
        exact enqueue_inserts _ _ _
      · rw [withQueue_orders_opposite]
      · rw [same]
  modifyOrder_zero := by
    intro book orderId newPrice timestamp priority seqNum isLast
    simp [ReferenceBook.modifyOrder]
  modifyOrder_accepted := by
    intro book order next timestamp priority seqNum isLast current member positive sameId sameSide
      ranked
    obtain ⟨nextId, nextSide, nextPrice, nextQuantity, nextPriority⟩ := next
    dsimp only at positive sameId sameSide ranked ⊢
    subst sameId sameSide ranked
    have kept : book.regresses seqNum = false := by simpa [regresses] using current
    unfold ReferenceBook.modifyOrder
    rw [if_neg (by omega), if_neg (by simp [kept])]
    split
    · rename_i absent
      rw [find_of_mem member] at absent
      cases absent
    · rename_i other found
      rw [find_of_mem member] at found
      cases found
      dsimp only
      by_cases stays : order.price = nextPrice ∧ order.priority = effectivePriority priority timestamp
      · rw [if_pos stays, if_pos stays]
        refine ⟨rfl, ?_, ?_, rfl⟩
        · simp only [resize]
          rw [withQueue_orders_self, stays.1, stays.2]
        · simp only [resize]
          rw [withQueue_orders_opposite]
      · rw [if_neg stays, if_neg stays]
        refine ⟨rfl, ?_, ?_, rfl⟩
        · simp only [move]
          rw [withQueue_orders_self]
          exact enqueue_inserts _ _ _
        · simp only [move]
          rw [withQueue_orders_opposite]
  deleteOrder_accepted := by
    intro book order timestamp seqNum isLast current member
    dsimp only
    rw [deleteOrder_of_mem current member]
    refine ⟨rfl, rfl, ?_, ?_, rfl⟩
    · simp only [remove]
      rw [withQueue_orders_self]
    · simp only [remove]
      rw [withQueue_orders_opposite]
  executeOrder_accepted := by
    intro book order executed timestamp seqNum isLast current member positive within
    have kept : book.regresses seqNum = false := by simpa [regresses] using current
    dsimp only
    unfold ReferenceBook.executeOrder
    rw [if_neg (by simp [kept])]
    split
    · rename_i absent
      rw [find_of_mem member] at absent
      cases absent
    · rename_i other found
      rw [find_of_mem member] at found
      cases found
      by_cases full : executed = order.quantity
      · rw [if_pos full, if_pos full]
        refine ⟨rfl, rfl, ?_, ?_, rfl⟩
        · simp only [remove]
          rw [withQueue_orders_opposite]
        · simp only [remove]
          rw [withQueue_orders_self]
      · rw [if_neg full, if_neg full]
        refine ⟨rfl, rfl, ?_, ?_, rfl⟩
        · simp only [resize]
          rw [withQueue_orders_opposite]
        · simp only [resize]
          rw [withQueue_orders_self]
  addOrder_tells := ReferenceBook.addOrder_tells
  modifyOrder_tells := ReferenceBook.modifyOrder_tells
  deleteOrder_tells := ReferenceBook.deleteOrder_tells
  executeOrder_tells := ReferenceBook.executeOrder_tells

end SlickSim
