import SlickSim.Lib.Trimming
import SlickSim.Properties.LevelReconciliation
import SlickSim.Properties.Uncrossed

/-!
# How a level comes to its target

`reconcilePhantomQty` should set the phantom quantity of one level and move nothing
else: the simulator's orders keep their places, what goes is taken from the back of
the phantom queue, and what comes stands behind everyone. The last two rest on the
priorities of the level, which a feed that rests orders by timestamp does not draw.
-/

set_option autoImplicit false

namespace SlickSim

open KeyedList Trimming
open OrderBookL3 (Regresses restingOrders)

namespace OrderBook

variable {β : Type} [OrderBookL3 β] {book : OrderBook β} {seqNum : Nat} {side : BookSide} {price : Int}

omit [OrderBookL3 β] in
/-- The order is the venue's and stands at the price. -/
def isPhantomAt (book : OrderBook β) (price : Int) (order : BookOrder) : Bool :=
  decide (order.price = price) && (book.findOrder order.orderId).isNone

/-- The venue's orders of a level, front to back. -/
def phantomQueue (book : OrderBook β) (side : BookSide) (price : Int) : List BookOrder :=
  (restingOrders book.l3 side).filter (book.isPhantomAt price)

/-- What is left of a queue when the venue takes an amount off a level, back to front. -/
def takeOffLevel (book : OrderBook β) (price : Int) (orders : List BookOrder) (amount : Int) :
    List BookOrder :=
  takeOff BookOrder.quantity (fun order quantity => { order with quantity }) (book.isPhantomAt price)
    orders amount

/-- The order that is left with a part of its quantity. -/
def cutOrder (book : OrderBook β) (price : Int) (orders : List BookOrder) (amount : Int) :
    Option BookOrder :=
  cutItem BookOrder.quantity (book.isPhantomAt price) orders amount

section Reduction

variable {order : BookOrder} {taken : Int} (timestamp : Nat) (isLast : Bool)
  (current : ¬ Regresses book.l3 seqNum) (member : order ∈ restingOrders book.l3 order.side)
  (within : taken ≤ order.quantity)

include current member within

/-- A reduction leaves the other side, and the sequence. -/
private theorem modifyL3Order_apart :
    let after := book.modifyL3Order order.orderId order.price (order.quantity - taken) timestamp
      order.priority seqNum isLast
    restingOrders after.l3 order.side.opposite = restingOrders book.l3 order.side.opposite ∧
      OrderBookL3.lastSeqNum after.l3 = max (OrderBookL3.lastSeqNum book.l3) seqNum := by
  dsimp only
  rw [modifyL3Order_l3]
  rcases Int.le_iff_eq_or_lt.mp within with rfl | less
  · rw [Int.sub_self, OrderBookL3.modifyOrder_zero]
    obtain ⟨-, lastSeq, -, opposite, -⟩ :=
      OrderBookL3.deleteOrder_accepted book.l3 order timestamp seqNum isLast current member
    exact ⟨opposite, lastSeq⟩
  · let next : BookOrder := { order with
      quantity := order.quantity - taken, priority := effectivePriority order.priority timestamp }
    obtain ⟨lastSeq, -, opposite, -⟩ := OrderBookL3.modifyOrder_accepted book.l3 order next timestamp
      order.priority seqNum isLast current member (by show 0 < order.quantity - taken; omega) rfl rfl rfl
    exact ⟨opposite, lastSeq⟩

theorem modifyL3Order_opposite :
    restingOrders (book.modifyL3Order order.orderId order.price (order.quantity - taken) timestamp
      order.priority seqNum isLast).l3 order.side.opposite = restingOrders book.l3 order.side.opposite :=
  (modifyL3Order_apart timestamp isLast current member within).1

theorem modifyL3Order_current :
    ¬ Regresses (book.modifyL3Order order.orderId order.price (order.quantity - taken) timestamp
      order.priority seqNum isLast).l3 seqNum := by
  rintro ⟨positive, stale⟩
  rw [(modifyL3Order_apart timestamp isLast current member within).2] at stale
  exact current ⟨positive, by omega⟩

/-- An order that loses quantity under its own priority stands where it stood. -/
theorem modifyL3Order_queue
    (kept : taken < order.quantity → order.priority = effectivePriority order.priority timestamp) :
    restingOrders (book.modifyL3Order order.orderId order.price (order.quantity - taken) timestamp
        order.priority seqNum isLast).l3 order.side =
      takeFromQueue order taken (restingOrders book.l3 order.side) := by
  rw [modifyL3Order_l3]
  rcases Int.le_iff_eq_or_lt.mp within with rfl | less
  · rw [Int.sub_self, OrderBookL3.modifyOrder_zero]
    obtain ⟨-, -, queue, -⟩ :=
      OrderBookL3.deleteOrder_accepted book.l3 order timestamp seqNum isLast current member
    exact queue.trans (if_pos rfl).symm
  · let next : BookOrder := { order with quantity := order.quantity - taken }
    obtain ⟨-, queue, -⟩ := OrderBookL3.modifyOrder_accepted book.l3 order next timestamp
      order.priority seqNum isLast current member (by show 0 < order.quantity - taken; omega) rfl rfl
      (kept less)
    rw [takeFromQueue, if_neg (by omega)]
    rw [if_pos ⟨rfl, rfl⟩] at queue
    exact queue

end Reduction

/-- A reduced order rests under what the book makes of its priority. -/
theorem modifyL3Order_mem {order : BookOrder} {quantity : Int} (timestamp : Nat) (isLast : Bool)
    (current : ¬ Regresses book.l3 seqNum) (member : order ∈ restingOrders book.l3 order.side)
    (positive : 0 < quantity) :
    { order with quantity, priority := effectivePriority order.priority timestamp } ∈
      restingOrders (book.modifyL3Order order.orderId order.price quantity timestamp order.priority seqNum
        isLast).l3 order.side := by
  let next : BookOrder :=
    { order with quantity, priority := effectivePriority order.priority timestamp }
  have replaced := @OrderBookL3.modifyOrder_replaces β _ book.l3 order next timestamp order.priority seqNum
    isLast current (OrderBookL3.mem_allOrders_of_mem member) positive rfl rfl rfl
  rw [modifyL3Order_l3]
  exact OrderBookL3.mem_allOrders.mp (replaced.mem_iff.mpr (.inl rfl))

end OrderBook

/-- The orders of the pool, how they are found, and what was reported are the same. -/
structure Ledger.SameAccounts (before after : Ledger) : Prop where
  owner : after.owner = before.owner
  byClient : after.byClient = before.byClient
  byOrder : after.byOrder = before.byOrder
  heap : after.heap = before.heap
  live : after.live = before.live
  responses : after.responses = before.responses

namespace Ledger.SameAccounts

variable {first second third : Ledger}

theorem refl (ledger : Ledger) : ledger.SameAccounts ledger := ⟨rfl, rfl, rfl, rfl, rfl, rfl⟩

theorem trans (one : first.SameAccounts second) (two : second.SameAccounts third) :
    first.SameAccounts third :=
  ⟨two.owner.trans one.owner, two.byClient.trans one.byClient, two.byOrder.trans one.byOrder,
    two.heap.trans one.heap, two.live.trans one.live, two.responses.trans one.responses⟩

theorem setEntry {id timestamp : Nat} {next : Option BookOrder}
    (keyed : ∀ order, first.entry id = some order → order.orderId = id)
    (keyedNext : ∀ order, next = some order → order.orderId = id) (phantom : first.owner id = none) :
    first.SameAccounts (first.setEntry id next timestamp) := by
  rw [Ledger.setEntry_phantom keyed keyedNext phantom]
  exact ⟨rfl, rfl, rfl, rfl, rfl, rfl⟩

end Ledger.SameAccounts

theorem MatchState.modifyL3Order_accounts {β : Type} [OrderBookL3 β] (state : MatchState β) {seqNum : Nat}
    {order : BookOrder} (qty : Int) (timestamp priority : Nat) (isLast : Bool)
    (current : ¬ Regresses state.book.l3 seqNum) (rests : state.ledger.entry order.orderId = some order)
    (phantom : state.ledger.owner order.orderId = none) (nonneg : 0 ≤ qty) :
    state.ledger.SameAccounts (state.onBook fun book =>
      book.modifyL3Order order.orderId order.price qty timestamp priority seqNum isLast).ledger := by
  have keyed : ∀ other, state.ledger.entry order.orderId = some other → other.orderId = order.orderId := by
    intro other found
    cases rests.symm.trans found
    rfl
  rcases Int.le_iff_eq_or_lt.mp nonneg with rfl | positive
  · have gone := (OrderBook.modifyL3Order_zero state.responses order.price timestamp priority isLast current
      rests).1
    exact (congrArg (Ledger.SameAccounts state.ledger) gone).mpr
      (.setEntry keyed (by rintro _ ⟨⟩) phantom)
  · have resized := (OrderBook.modifyL3Order_ledger state.responses order
      { order with quantity := qty, priority := effectivePriority priority timestamp } isLast current rests
      positive rfl rfl rfl).1
    refine (congrArg (Ledger.SameAccounts state.ledger) resized).mpr (.setEntry keyed ?_ phantom)
    rintro _ ⟨⟩
    rfl

/-- Reducing an order leaves what is around it. -/
theorem takeFromQueue_middle_partly {before rest : List BookOrder} {order : BookOrder} {taken : Int}
    (distinct : ((before ++ order :: rest).map BookOrder.orderId).Nodup) (part : taken ≠ order.quantity) :
    takeFromQueue order taken (before ++ order :: rest) =
      before ++ { order with quantity := order.quantity - taken } :: rest := by
  rw [List.map_append, List.nodup_append] at distinct
  obtain ⟨-, tail, apart⟩ := distinct
  have absent : ∀ other ∈ before, other.orderId ≠ order.orderId := fun other member =>
    apart _ (List.mem_map_of_mem member) _ List.mem_cons_self
  rw [takeFromQueue, if_neg part]
  show List.map _ (_ ++ _) = _
  rw [List.map_append]
  exact congrArg₂ (· ++ ·) (setKey_of_absent _ absent) (setKey_head tail _)

/-- A call through which the exchange moves the phantom quantity of a level. -/
inductive LevelCall where
  | addBookOrder (qty : Int)
  | modifyOrder (reduction : PhantomReduction)

/-- One call of the book, and the flag it is made with. -/
def LevelCall.apply {β : Type} [OrderBookL3 β] (side : BookSide) (price : Int) (eventTime seqNum : Nat)
    (book : OrderBook β) (call : LevelCall × Bool) : OrderBook β :=
  match call.1 with
  | .addBookOrder qty =>
      book.nextOrderId.addBookOrder book.globals.nextOrderId side price qty eventTime seqNum call.2
  | .modifyOrder reduction => book.modifyL3Order reduction.orderId price reduction.newQty eventTime
      reduction.priority seqNum call.2

/-- `LastInBatch` goes with the last call only, and only when the event ends. -/
def FlagsLast (endEvent : Bool) (flags : List Bool) : Prop :=
  ∀ earlier flag later, flags = earlier ++ flag :: later → flag = (endEvent && later.isEmpty)

theorem FlagsLast.nil (endEvent : Bool) : FlagsLast endEvent [] := by
  rintro ⟨⟩ _ _ ⟨⟩

theorem FlagsLast.cons {endEvent : Bool} {flags : List Bool} (flagged : FlagsLast endEvent flags) :
    FlagsLast endEvent ((endEvent && flags.isEmpty) :: flags) := by
  intro earlier flag later split
  cases earlier with
  | nil =>
      obtain ⟨rfl, rfl⟩ := List.cons.inj split
      rfl
  | cons head earlier => exact flagged earlier flag later (List.cons.inj split).2

namespace Exchange

variable {β : Type} [OrderBookL3 β] {exchange : Exchange β} {seqNum : Nat} {side : BookSide} {price : Int}

/-- The reductions of a level, applied one after the other, take the amount off the back
of its phantom queue. The queue is walked back to front; `tail` is what was passed over. -/
theorem reducePhantoms_queue {book chosen : OrderBook β} (eventTime : Nat) (endEvent : Bool)
    (orders tail : List BookOrder) (amount : Int) (current : ¬ Regresses book.l3 seqNum)
    (queue : restingOrders book.l3 side = orders.reverse ++ tail) :
    let after := reducePhantoms book price eventTime seqNum endEvent
      (phantomReductions chosen (orders.filter fun order => order.price = price) amount)
    restingOrders after.l3 side.opposite = restingOrders book.l3 side.opposite ∧
      ((∀ order ∈ chosen.cutOrder price orders amount,
          order.priority = effectivePriority order.priority eventTime) →
        restingOrders after.l3 side = (chosen.takeOffLevel price orders amount).reverse ++ tail) ∧
      ∀ order ∈ chosen.cutOrder price orders amount, ∃ quantity,
        { order with quantity, priority := effectivePriority order.priority eventTime } ∈
          restingOrders after.l3 side := by
  dsimp only
  have nothing_due : ∀ others amount, amount ≤ 0 → phantomReductions chosen others amount = [] := by
    intro others amount done
    cases others with
    | nil => rfl
    | cons => exact if_pos done
  induction orders generalizing book tail amount with
  | nil => exact ⟨rfl, fun _ => queue, by rintro _ ⟨⟩⟩
  | cons order rest ih =>
      have passedOver : ∀ left : List BookOrder, (order :: left).reverse ++ tail =
          left.reverse ++ order :: tail := by
        intro left
        rw [List.reverse_cons, List.append_assoc]
        rfl
      have shifted := queue.trans (passedOver rest)
      unfold OrderBook.takeOffLevel takeOff OrderBook.cutOrder cutItem
      by_cases done : amount ≤ 0
      · rw [if_pos done, if_pos done, nothing_due _ _ done]
        exact ⟨rfl, fun _ => queue, by rintro _ ⟨⟩⟩
      rw [if_neg done, if_neg done]
      by_cases here : order.price = price
      · rw [List.filter_cons_of_pos (by simpa using here)]
        unfold phantomReductions
        rw [if_neg done]
        by_cases ours : (chosen.findOrder order.orderId).isSome
        · have other : chosen.isPhantomAt price order = false := by
            unfold OrderBook.isPhantomAt
            rw [Option.isNone_eq_false_iff.mpr ours, Bool.and_false]
          rw [if_pos other, if_pos other, if_pos ours, passedOver]
          exact ih _ _ current shifted
        · have phantom : ¬ chosen.isPhantomAt price order = false := by
            unfold OrderBook.isPhantomAt
            rw [decide_eq_true here, Option.isNone_iff_eq_none.mpr (Option.not_isSome_iff_eq_none.mp ours)]
            decide
          rw [if_neg phantom, if_neg phantom, if_neg ours]
          have member : order ∈ restingOrders book.l3 side := by
            rw [shifted]
            exact List.mem_append_right _ List.mem_cons_self
          obtain rfl := OrderBookL3.side_of_mem member
          obtain rfl := here
          have distinct := OrderBookL3.restingOrders_distinct book.l3 order.side
          rw [shifted] at distinct
          dsimp only
          unfold reducePhantoms
          generalize (endEvent && _ : Bool) = isLast
          by_cases part : amount < order.quantity
          · -- The amount ends inside this order, so no further reduction is due.
            rw [if_pos part, if_pos part, Int.min_eq_left part.le, Int.sub_self, nothing_due _ _ le_rfl]
            refine ⟨OrderBook.modifyL3Order_opposite _ _ current member part.le, ?_, ?_⟩
            · intro kept
              refine (OrderBook.modifyL3Order_queue _ _ current member part.le
                fun _ => kept order rfl).trans ?_
              rw [shifted, takeFromQueue_middle_partly distinct part.ne, List.reverse_cons,
                List.append_assoc]
              rfl
            · rintro _ ⟨⟩
              exact ⟨_, OrderBook.modifyL3Order_mem _ _ current member
                (by show 0 < order.quantity - amount; omega)⟩
          · rw [if_neg part, if_neg part, Int.min_eq_right (by omega)]
            have queued := @OrderBook.modifyL3Order_queue β _ book seqNum order order.quantity eventTime
              isLast current member le_rfl fun less => absurd less (lt_irrefl _)
            rw [shifted, takeFromQueue_middle distinct] at queued
            obtain ⟨opposite, left, cut⟩ := ih tail (amount - order.quantity)
              (OrderBook.modifyL3Order_current _ _ current member le_rfl) queued
            exact ⟨opposite.trans (OrderBook.modifyL3Order_opposite _ _ current member le_rfl), left, cut⟩
      · have other : chosen.isPhantomAt price order = false := by
          unfold OrderBook.isPhantomAt
          rw [decide_eq_false here, Bool.false_and]
        rw [if_pos other, if_pos other, List.filter_cons_of_neg (by simpa using here), passedOver]
        exact ih _ _ current shifted

theorem reducePhantoms_accounts {state : MatchState β} (eventTime : Nat) (endEvent : Bool)
    (reductions : List PhantomReduction) (distinct : (reductions.map PhantomReduction.orderId).Nodup)
    (current : ¬ Regresses state.book.l3 seqNum)
    (due : ∀ reduction ∈ reductions, reduction.Due state.ledger price) :
    state.ledger.SameAccounts (state.onBook fun book =>
      reducePhantoms book price eventTime seqNum endEvent reductions).ledger := by
  induction reductions generalizing state with
  | nil => exact .refl _
  | cons reduction rest ih =>
      obtain ⟨fresh, distinct⟩ := List.nodup_cons.mp distinct
      obtain ⟨order, rests, keyed, phantom, rfl, ranked, nonneg, within⟩ := due reduction List.mem_cons_self
      rw [← keyed] at rests phantom
      obtain ⟨run, frame⟩ := @MatchState.modifyL3Order_run β _ (.counted fun _ => default) .all seqNum state
        order reduction.newQty eventTime (endEvent && rest.isEmpty) current rests phantom nonneg within
      obtain ⟨sameOwner, others⟩ := frame rfl
      have step := state.modifyL3Order_accounts reduction.newQty eventTime order.priority
        (endEvent && rest.isEmpty) current rests phantom nonneg
      rw [keyed, ← ranked] at run others sameOwner step
      refine step.trans (ih distinct run.current ?_)
      intro later member
      have different : later.orderId ≠ reduction.orderId := by
        intro same
        exact fresh (same ▸ List.mem_map_of_mem member)
      obtain ⟨other, otherRests, otherKeyed, otherPhantom, facts⟩ :=
        due later (List.mem_cons_of_mem _ member)
      refine ⟨other, (others _ different).trans otherRests, otherKeyed, ?_, facts⟩
      rw [← otherPhantom]
      exact congrFun sameOwner _

/-- Each reduction is a call, and only the last of them may close the batch. -/
theorem reducePhantoms_calls (side : BookSide) (book : OrderBook β) (eventTime : Nat) (endEvent : Bool)
    (reductions : List PhantomReduction) :
    ∃ calls : List (LevelCall × Bool),
      reducePhantoms book price eventTime seqNum endEvent reductions =
        calls.foldl (LevelCall.apply side price eventTime seqNum) book ∧
      calls.map Prod.fst = reductions.map LevelCall.modifyOrder ∧
      FlagsLast endEvent (calls.map Prod.snd) := by
  induction reductions generalizing book with
  | nil => exact ⟨[], rfl, rfl, .nil endEvent⟩
  | cons reduction rest ih =>
      obtain ⟨calls, isRun, sameCalls, flagged⟩ := ih (book.modifyL3Order reduction.orderId price
        reduction.newQty eventTime reduction.priority seqNum (endEvent && rest.isEmpty))
      refine ⟨(.modifyOrder reduction, endEvent && rest.isEmpty) :: calls, isRun,
        congrArg (LevelCall.modifyOrder reduction :: ·) sameCalls, ?_⟩
      have sameEnd : rest.isEmpty = (calls.map Prod.snd).isEmpty := by
        rw [List.isEmpty_map, ← @List.isEmpty_map _ _ calls Prod.fst, sameCalls, List.isEmpty_map]
      rw [List.map_cons, sameEnd]
      exact flagged.cons

/-! ## The law -/

/-- The phantom quantity of one level becomes a target, and nothing else moves. -/
structure Reconciled (before after : Exchange β) (side : BookSide) (price target : Int)
    (eventTime seqNum : Nat) (endEvent : Bool) : Prop where
  quantity : after.book.phantomQtyAt side price = max 0 target
  otherSide : restingOrders after.book.l3 side.opposite = restingOrders before.book.l3 side.opposite
  others : (restingOrders after.book.l3 side).filter (fun order => !before.book.isPhantomAt price order) =
    (restingOrders before.book.l3 side).filter fun order => !before.book.isPhantomAt price order
  lowered : target ≤ before.book.phantomQtyAt side price →
    Trimmed BookOrder.quantity (fun order quantity => { order with quantity })
        (before.book.phantomQueue side price) (after.book.phantomQueue side price) ∧
      ((restingOrders after.book.l3 side).map BookOrder.orderId).Sublist
        ((restingOrders before.book.l3 side).map BookOrder.orderId)
  raised : before.book.phantomQtyAt side price < target →
    ∃ front order back, restingOrders before.book.l3 side = front ++ back ∧
      restingOrders after.book.l3 side = front ++ order :: back ∧
      before.book.isPhantomAt price order = true ∧
      order.quantity = target - before.book.phantomQtyAt side price ∧
      ∀ other ∈ back, other.price ≠ price
  accounts : before.ledger.SameAccounts after.ledger
  calls : ∃ calls : List (LevelCall × Bool),
    after.book = calls.foldl (LevelCall.apply side price eventTime seqNum) before.book ∧
      FlagsLast endEvent (calls.map Prod.snd)

/-- A phantom order that is put in goes behind priorities that were drawn, and one that is
reduced keeps its own, unless it is 0, which the book takes for the time. -/
def KeepsTurn (exchange : Exchange β) (side : BookSide) (price target : Int) (eventTime : Nat) : Prop :=
  let held := exchange.book.phantomQtyAt side price
  (held < target → ∀ order ∈ restingOrders exchange.book.l3 side, order.price = price →
    order.priority ≤ exchange.book.globals.nextPriority) ∧
  ∀ order ∈ exchange.book.cutOrder price (restingOrders exchange.book.l3 side).reverse (held - max 0 target),
    order.priority = 0 → eventTime = 0

instance (side : BookSide) (price target : Int) (eventTime : Nat) :
    Decidable (exchange.KeepsTurn side price target eventTime) :=
  inferInstanceAs (Decidable ((_ → ∀ order ∈ _, _ → _) ∧ ∀ order ∈ _, _ → _))

/-- The phantom quantity of a level is what its phantom queue holds. -/
theorem phantomQtyAt_eq_phantomQueue (book : OrderBook β) (side : BookSide) (price : Int) :
    book.phantomQtyAt side price = ((book.phantomQueue side price).map BookOrder.quantity).sum := by
  unfold OrderBook.phantomQtyAt OrderBook.phantomQueue
  induction restingOrders book.l3 side with
  | nil => rfl
  | cons order rest ih =>
      rw [List.map_cons, List.sum_cons, ih]
      by_cases phantom : book.isPhantomAt price order = true
      · rw [List.filter_cons_of_pos phantom, List.map_cons, List.sum_cons]
        unfold OrderBook.isPhantomAt at phantom
        rw [if_pos (by simpa using phantom)]
      · rw [List.filter_cons_of_neg phantom]
        unfold OrderBook.isPhantomAt at phantom
        rw [if_neg (by simpa using phantom), zero_add]

theorem phantomQtyAt_nonneg (inv : exchange.ledger.Represents .none) (side : BookSide) (price : Int) :
    0 ≤ exchange.book.phantomQtyAt side price := by
  rw [phantomQtyAt_eq_phantomQueue]
  apply List.sum_nonneg
  intro qty member
  obtain ⟨order, inside, rfl⟩ := List.mem_map.mp member
  exact (inv.agrees.positive (MatchState.entry_of_mem (List.mem_of_mem_filter inside))).le

section Parts

variable {qty : Int} (eventTime : Nat) (endEvent : Bool) (inv : exchange.ledger.Represents .none)
  (current : ¬ Regresses exchange.book.l3 seqNum)

include inv current

private theorem raise_queue (side : BookSide) (price : Int) (positive : 0 < qty) :
    let after := exchange.book.nextOrderId.addBookOrder exchange.book.globals.nextOrderId side price qty
      eventTime seqNum endEvent
    let order : BookOrder :=
      { orderId := exchange.book.globals.nextOrderId, side, price, quantity := qty
        priority := exchange.book.globals.nextPriority + 1 }
    Inserts order (restingOrders exchange.book.l3 side) (restingOrders after.l3 side) ∧
      restingOrders after.l3 side.opposite = restingOrders exchange.book.l3 side.opposite ∧
      exchange.ledger.SameAccounts (after.ledger exchange.matching.responses) := by
  intro after order
  have absent : (exchange.book.nextOrderId.ledger exchange.matching.responses).entry
    exchange.book.globals.nextOrderId = none := nextOrderId_absent inv
  have isAfter : after = exchange.book.nextOrderId.nextOrderPriority.addL3Order order.orderId order.side
      order.price order.quantity eventTime (exchange.book.globals.nextPriority + 1) seqNum endEvent :=
    OrderBook.addBookOrder_eq absent
  have ranked : order.priority = effectivePriority (exchange.book.globals.nextPriority + 1) eventTime :=
    (if_neg (Nat.succ_ne_zero _)).symm
  obtain ⟨-, -, inserted, opposite, -⟩ := OrderBookL3.addOrder_accepted exchange.book.l3 order eventTime
    (exchange.book.globals.nextPriority + 1) seqNum endEvent current
    (OrderBookL3.findOrder_eq_none.mp absent) positive ranked
  have sameL3 : after.l3 = (OrderBookL3.addOrder exchange.book.l3 order.orderId order.side order.price
      order.quantity eventTime (exchange.book.globals.nextPriority + 1) seqNum endEvent).book := by
    rw [isAfter]
    unfold OrderBook.addL3Order
    rw [OrderBook.absorb_l3]
    rfl
  rw [sameL3]
  refine ⟨inserted, opposite, ?_⟩
  have added := (@OrderBook.addL3Order_ledger β _ exchange.book.nextOrderId.nextOrderPriority eventTime
    (exchange.book.globals.nextPriority + 1) seqNum exchange.matching.responses order endEvent current
    absent positive ranked).1
  rw [isAfter, added]
  have drawn : exchange.ledger.SameAccounts
      (exchange.book.nextOrderId.nextOrderPriority.ledger exchange.matching.responses) :=
    ⟨rfl, rfl, rfl, rfl, rfl, rfl⟩
  refine drawn.trans (.setEntry ?_ ?_ ?_)
  · intro other found
    cases absent.symm.trans found
  · rintro _ ⟨⟩
    rfl
  · have foreign := Ledger.owner_eq_none_of_not_owned inv (nextOrderId_foreign inv)
    exact foreign

end Parts

omit [OrderBookL3 β] in
private theorem isPhantomAt_resize (book : OrderBook β) (price : Int) (order : BookOrder) (left : Int) :
    book.isPhantomAt price { order with quantity := left } = book.isPhantomAt price order := rfl

omit [OrderBookL3 β] in
private theorem isPhantomAt_of_owner {before after : OrderBook β} (same : after.findOrder = before.findOrder) :
    after.isPhantomAt price = before.isPhantomAt price := by
  funext order
  unfold OrderBook.isPhantomAt
  rw [same]

/-- An order that was put in behind everyone of its price is ahead of lesser priorities. -/
private theorem raised_in_turn {front back : List BookOrder} {order : BookOrder}
    (ranked : (front ++ order :: back).Pairwise (BookOrder.ranksBefore side))
    (last : ∀ other ∈ front ++ back, other.price = order.price → other.priority < order.priority) :
    ∀ other ∈ back, other.price ≠ order.price := by
  intro other member here
  have ahead := (List.pairwise_cons.mp (List.pairwise_append.mp ranked).2.1).1 other member
  have lesser := last other (List.mem_append_right _ member) here
  exact absurd (ahead.priority_le here.symm) (not_le.mpr lesser)

/-- Nobody of its price who is ahead of an order has a greater priority. -/
private theorem priority_le_of_front {front back : List BookOrder} {order other : BookOrder}
    (ranked : (front ++ order :: back).Pairwise (BookOrder.ranksBefore side)) (member : other ∈ front)
    (here : other.price = order.price) : other.priority ≤ order.priority := by
  have ahead := (List.pairwise_append.mp ranked).2.2 other member order List.mem_cons_self
  exact ahead.priority_le here

section Law

variable {side : Side} {level : PriceLevelL3} {targetQty : Int} (eventTime : Nat) (endEvent : Bool)
  (inv : exchange.ledger.Represents .none) (totalled : exchange.ledger.Totalled)
  (positive : exchange.CreditsPositive)
  (apart : ∀ order ∈ restingOrders exchange.book.l3 (toBookSide side).opposite, order.price ≠ price)
  (current : ¬ Regresses exchange.book.l3 seqNum)
  (found : OrderBookL3.getLevel exchange.book.l3 (toBookSide side) price = some level)

include inv totalled positive apart current found

private theorem reconcile_raised
    (short : exchange.book.phantomQtyAt (toBookSide side) price <
      targetQty - (exchange.takeTradedQty side price eventTime).1) :
    let target := targetQty - (exchange.takeTradedQty side price eventTime).1
    let after := exchange.reconcilePhantomQty side price targetQty eventTime seqNum endEvent
    ((∀ order ∈ restingOrders exchange.book.l3 (toBookSide side), order.price = price →
        order.priority ≤ exchange.book.globals.nextPriority) →
      exchange.Reconciled after (toBookSide side) price target eventTime seqNum endEvent) ∧
    ((∀ order ∈ restingOrders exchange.book.l3 (toBookSide side), order.price = price →
        order.priority ≠ exchange.book.globals.nextPriority + 1) →
      exchange.Reconciled after (toBookSide side) price target eventTime seqNum endEvent →
      ∀ order ∈ restingOrders exchange.book.l3 (toBookSide side), order.price = price →
        order.priority ≤ exchange.book.globals.nextPriority) := by
  intro target after
  obtain ⟨goal, sameGoal, isAfter⟩ := @reconcilePhantomQty_goal β _ exchange seqNum side price level targetQty
    eventTime endEvent inv totalled positive apart found
  have quantities := @reconcilePhantomQty_phantomQty β _ exchange seqNum side price level targetQty eventTime
    endEvent inv totalled current positive apart found (toBookSide side) price
  have heldNonneg := phantomQtyAt_nonneg inv (toBookSide side) price
  have isGoal : goal = target := by omega
  rw [isGoal] at isAfter
  simp only [if_pos (show exchange.book.phantomQtyAt (toBookSide side) price < target from short)] at isAfter
  have isBook : after.book = exchange.book.nextOrderId.addBookOrder exchange.book.globals.nextOrderId
      (toBookSide side) price (target - exchange.book.phantomQtyAt (toBookSide side) price) eventTime
      seqNum endEvent := congrArg MatchState.book isAfter
  obtain ⟨⟨front, back, isBefore, isQueue⟩, opposite, accounts⟩ := @raise_queue β _ exchange seqNum
    (target - exchange.book.phantomQtyAt (toBookSide side) price) eventTime endEvent inv current
    (toBookSide side) price (by omega)
  have sameResponses : after.matching.responses = exchange.matching.responses :=
    (congrArg MatchState.responses isAfter).trans rfl
  rw [← isBook] at isQueue opposite accounts
  rw [← sameResponses] at accounts
  generalize isOrder : BookOrder.mk exchange.book.globals.nextOrderId (toBookSide side) price
    (target - exchange.book.phantomQtyAt (toBookSide side) price)
    (exchange.book.globals.nextPriority + 1) = order at isQueue
  have here : order.price = price := by rw [← isOrder]
  have priority : order.priority = exchange.book.globals.nextPriority + 1 := by rw [← isOrder]
  have phantom : exchange.book.isPhantomAt price order = true := by
    have foreign : exchange.book.findOrder exchange.book.globals.nextOrderId = none :=
      Ledger.owner_eq_none_of_not_owned inv (nextOrderId_foreign inv)
    unfold OrderBook.isPhantomAt
    rw [← isOrder, foreign, decide_eq_true rfl]
    rfl
  have ranked := OrderBookL3.ranked after.book.l3 (toBookSide side)
  constructor
  · intro drawn
    refine ⟨quantities.trans (if_pos ⟨rfl, rfl⟩), opposite, ?_, fun none_due => absurd short (not_lt.mpr none_due),
      fun _ => ⟨front, order, back, isBefore, isQueue, phantom, by rw [← isOrder], ?_⟩, accounts,
      [(.addBookOrder (target - exchange.book.phantomQtyAt (toBookSide side) price), endEvent)], isBook, ?_⟩
    · rw [isQueue, isBefore, List.filter_append, List.filter_append, List.filter_cons_of_neg]
      rw [phantom]
      decide
    · rw [isQueue] at ranked
      intro other member
      rw [← here]
      refine raised_in_turn ranked ?_ other member
      intro other inside atPrice
      rw [priority]
      exact Nat.lt_succ_of_le (drawn other (isBefore ▸ inside) (atPrice.trans here))
    · have single := (FlagsLast.nil endEvent).cons
      rw [List.isEmpty_nil, Bool.and_true] at single
      exact single
  · intro untied reconciled other member atPrice
    obtain ⟨ahead, joined, behind, isBefore', isQueue', -, -, last⟩ := reconciled.raised short
    have fresh : order ∉ restingOrders exchange.book.l3 (toBookSide side) := by
      intro old
      have rests : exchange.ledger.entry order.orderId = some order := MatchState.entry_of_mem old
      have absent := nextOrderId_absent inv
      rw [← isOrder] at rests
      cases absent.symm.trans rests
    have isJoined : order = joined := by
      have inside : order ∈ ahead ++ joined :: behind := by
        rw [← isQueue', isQueue]
        exact List.mem_append_right _ List.mem_cons_self
      rw [isBefore'] at fresh
      rcases List.mem_append.mp inside with old | inside
      · exact absurd (List.mem_append_left _ old) fresh
      · rcases List.mem_cons.mp inside with same | old
        · exact same
        · exact absurd (List.mem_append_right _ old) fresh
    subst isJoined
    rw [isQueue'] at ranked
    have isAhead : other ∈ ahead := by
      rcases List.mem_append.mp (isBefore' ▸ member) with inside | inside
      · exact inside
      · exact absurd atPrice (last other inside)
    have atMost := priority_le_of_front ranked isAhead (atPrice.trans here.symm)
    have different := untied other member atPrice
    omega

private theorem reconcile_lowered
    (enough : targetQty - (exchange.takeTradedQty side price eventTime).1 ≤
      exchange.book.phantomQtyAt (toBookSide side) price) :
    let target := targetQty - (exchange.takeTradedQty side price eventTime).1
    let after := exchange.reconcilePhantomQty side price targetQty eventTime seqNum endEvent
    exchange.Reconciled after (toBookSide side) price target eventTime seqNum endEvent ↔
      ∀ order ∈ exchange.book.cutOrder price (restingOrders exchange.book.l3 (toBookSide side)).reverse
        (exchange.book.phantomQtyAt (toBookSide side) price - max 0 target),
        order.priority = 0 → eventTime = 0 := by
  intro target after
  obtain ⟨goal, sameGoal, isAfter⟩ := @reconcilePhantomQty_goal β _ exchange seqNum side price level targetQty
    eventTime endEvent inv totalled positive apart found
  have quantities := @reconcilePhantomQty_phantomQty β _ exchange seqNum side price level targetQty eventTime
    endEvent inv totalled current positive apart found (toBookSide side) price
  have heldNonneg := phantomQtyAt_nonneg inv (toBookSide side) price
  have sameGoal : max 0 goal = max 0 target := sameGoal
  have noMore : ¬ exchange.book.phantomQtyAt (toBookSide side) price < goal := by
    have : target ≤ exchange.book.phantomQtyAt (toBookSide side) price := enough
    omega
  simp only [if_neg noMore] at isAfter
  have positiveQty : ∀ order ∈ (restingOrders exchange.book.l3 (toBookSide side)).reverse,
      0 < order.quantity := fun order member =>
    inv.agrees.positive (MatchState.entry_of_mem (List.mem_reverse.mp member))
  -- A goal below 0 takes off everything, as a goal of 0 does.
  have sameCut : exchange.book.cutOrder price (restingOrders exchange.book.l3 (toBookSide side)).reverse
        (exchange.book.phantomQtyAt (toBookSide side) price - goal) =
      exchange.book.cutOrder price (restingOrders exchange.book.l3 (toBookSide side)).reverse
        (exchange.book.phantomQtyAt (toBookSide side) price - max 0 target) := by
    rcases lt_or_ge goal 0 with negative | nonneg
    · have total : (((restingOrders exchange.book.l3 (toBookSide side)).reverse.filter
          (exchange.book.isPhantomAt price)).map BookOrder.quantity).sum =
          exchange.book.phantomQtyAt (toBookSide side) price := by
        rw [phantomQtyAt_eq_phantomQueue, List.filter_reverse, List.map_reverse, List.sum_reverse]
        rfl
      unfold OrderBook.cutOrder
      rw [cutItem_of_total (by omega) positiveQty, cutItem_of_total (by omega) positiveQty]
    · rw [← sameGoal, max_eq_right nonneg]
  rw [← sameCut]
  obtain ⟨-, inside, prices⟩ := OrderBookL3.getLevel_eq_some found
  have levelOrders : level.orders.reverse = (restingOrders exchange.book.l3 (toBookSide side)).reverse.filter
      fun order => order.price = price := by
    rw [getLevel_orders found, List.filter_reverse]
  have isBook : after.book = reducePhantoms exchange.book price eventTime seqNum endEvent
      (phantomReductions exchange.book level.orders.reverse
        (exchange.book.phantomQtyAt (toBookSide side) price - goal)) := congrArg MatchState.book isAfter
  have accounts : exchange.ledger.SameAccounts after.ledger := by
    refine (congrArg (fun state => exchange.ledger.SameAccounts (MatchState.ledger state)) isAfter).mpr
      (reducePhantoms_accounts eventTime endEvent _ ?_ current (phantomReductions_due inv ?_))
    · refine (phantomReductions_sublist _ _ _).nodup ?_
      rw [List.map_reverse]
      exact List.nodup_reverse.mpr ((inside.map _).nodup (OrderBookL3.restingOrders_distinct _ _))
    · intro order member
      have member := List.mem_reverse.mp member
      exact ⟨MatchState.entry_of_mem (inside.subset member), prices order member⟩
  have samePhantom : after.book.isPhantomAt price = exchange.book.isPhantomAt price :=
    isPhantomAt_of_owner accounts.owner
  obtain ⟨calls, areCalls, -, flagged⟩ := @reducePhantoms_calls β _ seqNum price (toBookSide side)
    exchange.book eventTime endEvent (phantomReductions exchange.book level.orders.reverse
      (exchange.book.phantomQtyAt (toBookSide side) price - goal))
  rw [← isBook] at areCalls
  obtain ⟨opposite, left, cut⟩ := @reducePhantoms_queue β _ seqNum (toBookSide side) price exchange.book
    exchange.book eventTime endEvent (restingOrders exchange.book.l3 (toBookSide side)).reverse []
    (exchange.book.phantomQtyAt (toBookSide side) price - goal) current
    (by rw [List.reverse_reverse, List.append_nil])
  rw [← levelOrders, ← isBook] at opposite left cut
  constructor
  · intro reconciled order isCut unranked
    obtain ⟨old, isPhantom⟩ := mem_of_cutItem isCut
    have old := List.mem_reverse.mp old
    obtain ⟨quantity, rests⟩ := cut order isCut
    have queued : _ ∈ after.book.phantomQueue (toBookSide side) price :=
      List.mem_filter.mpr ⟨rests, by rw [samePhantom]; exact isPhantom⟩
    have same : ∀ other ∈ exchange.book.phantomQueue (toBookSide side) price,
        other.orderId = order.orderId → other = order := by
      intro other member sameId
      exact eq_of_key (OrderBookL3.restingOrders_distinct _ _) (List.mem_of_mem_filter member) old sameId
    have stamped : effectivePriority order.priority eventTime = eventTime := if_pos unranked
    rcases (reconciled.lowered enough).1.mem queued with kept | ⟨other, member, rest, isReduced⟩
    · have priority := congrArg BookOrder.priority (same _ kept rfl)
      exact stamped.symm.trans (priority.trans unranked)
    · have isOrder := same other member (congrArg BookOrder.orderId isReduced).symm
      have priority : effectivePriority order.priority eventTime = other.priority :=
        congrArg BookOrder.priority isReduced
      rw [isOrder] at priority
      exact stamped.symm.trans (priority.trans unranked)
  · intro ranked
    have queue := left fun order isCut => by
      unfold effectivePriority
      split <;> rename_i unranked
      · rw [unranked, ranked order isCut unranked]
      · rfl
    rw [List.append_nil] at queue
    refine ⟨quantities.trans (if_pos ⟨rfl, rfl⟩), opposite, ?_, fun _ => ⟨?_, ?_⟩,
      fun short => absurd short (not_lt.mpr enough), accounts, calls, areCalls, flagged⟩
    · rw [queue, List.filter_reverse]
      unfold OrderBook.takeOffLevel
      rw [takeOff_filter_other (isPhantomAt_resize _ _), List.filter_reverse, List.reverse_reverse]
    · have trimmed := @takeOff_trimmed _ BookOrder.quantity (fun order quantity => { order with quantity })
        (exchange.book.isPhantomAt price) (restingOrders exchange.book.l3 (toBookSide side)).reverse
        (exchange.book.phantomQtyAt (toBookSide side) price - goal) (isPhantomAt_resize _ _)
      rw [List.filter_reverse, List.reverse_reverse] at trimmed
      unfold OrderBook.phantomQueue
      rw [samePhantom, queue, List.filter_reverse]
      exact trimmed
    · have inOrder := @takeOff_sublist _ BookOrder.quantity (fun order quantity => { order with quantity })
        (exchange.book.isPhantomAt price) (restingOrders exchange.book.l3 (toBookSide side)).reverse
        (exchange.book.phantomQtyAt (toBookSide side) price - goal) _ BookOrder.orderId fun _ _ => rfl
      rw [List.map_reverse] at inOrder
      rw [queue, List.map_reverse]
      exact List.reverse_sublist.mp (by rw [List.reverse_reverse]; exact inOrder)

end Law

/-- A level of an uncrossed book has no orders of the other side at its price. -/
theorem apart_of_uncrossed {level : PriceLevelL3} (uncrossed : exchange.ledger.Uncrossed)
    (found : OrderBookL3.getLevel exchange.book.l3 side price = some level) :
    ∀ order ∈ restingOrders exchange.book.l3 side.opposite, order.price ≠ price := by
  obtain ⟨filled, inside, prices⟩ := OrderBookL3.getLevel_eq_some found
  obtain ⟨front, rest, isLevel⟩ := List.exists_cons_of_ne_nil filled
  have member : front ∈ level.orders := isLevel ▸ List.mem_cons_self
  have here := prices front member
  have rests := @MatchState.entry_of_mem β _ exchange.matching side front (inside.subset member)
  have isSide := OrderBookL3.side_of_mem (inside.subset member)
  intro order opposite same
  have otherRests := @MatchState.entry_of_mem β _ exchange.matching side.opposite order opposite
  have otherSide := OrderBookL3.side_of_mem opposite
  cases side with
  | buy =>
      have := uncrossed _ _ _ _ rests otherRests isSide otherSide
      omega
  | sell =>
      have := uncrossed _ _ _ _ otherRests rests otherSide isSide
      omega

/-- An update of a level brings its phantom quantity to what the venue reports less the
credits taken, and moves nothing else, when the priorities of the level keep everyone in
turn; otherwise someone is overtaken. What the book does with a tie is its own affair. -/
theorem reconcilePhantomQty_reconciles (inv : exchange.ledger.Represents .none)
    (totalled : exchange.ledger.Totalled) (uncrossed : exchange.ledger.Uncrossed)
    (positive : exchange.CreditsPositive) (current : ¬ Regresses exchange.book.l3 seqNum) (side : Side)
    (price targetQty : Int) (eventTime : Nat) (endEvent : Bool)
    (exists_ : (OrderBookL3.getLevel exchange.book.l3 (toBookSide side) price).isSome) :
    let target := targetQty - (exchange.takeTradedQty side price eventTime).1
    let after := exchange.reconcilePhantomQty side price targetQty eventTime seqNum endEvent
    (exchange.KeepsTurn (toBookSide side) price target eventTime →
      exchange.Reconciled after (toBookSide side) price target eventTime seqNum endEvent) ∧
    ((∀ order ∈ restingOrders exchange.book.l3 (toBookSide side), order.price = price →
        order.priority ≠ exchange.book.globals.nextPriority + 1) →
      exchange.Reconciled after (toBookSide side) price target eventTime seqNum endEvent →
      exchange.KeepsTurn (toBookSide side) price target eventTime) := by
  intro target after
  obtain ⟨level, found⟩ := Option.isSome_iff_exists.mp exists_
  have apart := apart_of_uncrossed uncrossed found
  rcases lt_or_ge (exchange.book.phantomQtyAt (toBookSide side) price) target with short | enough
  · obtain ⟨inTurn, onlyInTurn⟩ := @reconcile_raised β _ exchange seqNum price side level targetQty eventTime
      endEvent inv totalled positive apart current found short
    have noCut : exchange.book.cutOrder price (restingOrders exchange.book.l3 (toBookSide side)).reverse
        (exchange.book.phantomQtyAt (toBookSide side) price - max 0 target) = none :=
      cutItem_of_nonpos (by omega)
    refine ⟨fun turn => inTurn (turn.1 short), fun untied reconciled => ⟨fun _ => onlyInTurn untied reconciled, ?_⟩⟩
    rw [noCut]
    rintro _ ⟨⟩
  · have lowered := @reconcile_lowered β _ exchange seqNum price side level targetQty eventTime endEvent inv
      totalled positive apart current found enough
    exact ⟨fun turn => lowered.mpr turn.2,
      fun _ reconciled => ⟨fun short => absurd short (not_lt.mpr enough), lowered.mp reconciled⟩⟩

/-- A user's offer between two of the venue's: the one behind gives up all of its 3, then the
one in front 1 of its 5. -/
theorem reconcilePhantomQty_reconciles_around :
    let env : Environment := .counted fun _ => default
    let offer (qty : Int) (nonneg : 0 ≤ qty) : Input := .coinbaseEvent
      { type := .levelUpdate, eventTime := 1, seqNum := 1, price := 103, qty, side := .sell, flags := {}
        qty_nonneg := nonneg }
    let exchange := (Exchange.new (fun _ => default) true : Exchange ReferenceBook).run env (.reference .none)
      [offer 5 (by decide), .newOrder Input.header
        { userId := default, clientOrderId := default, side := .sell, type := .limit
          timeInForce := .goodTillCancel, price := 103, qty := 2 }, offer 8 (by decide)]
    let after := exchange.reconcilePhantomQty .sell 103 4 2 0 true
    (restingOrders exchange.book.l3 .sell).map BookOrder.quantity = [5, 2, 3] ∧
      (restingOrders after.book.l3 .sell).map BookOrder.quantity = [4, 2] ∧
      exchange.Reconciled after .sell 103 (4 - (exchange.takeTradedQty .sell 103 2).1) 2 0 true := by
  intro env offer exchange after
  have start : Reachable env (.reference .none) ByLevel
      (Exchange.new (fun _ => default) true : Exchange ReferenceBook) := .new _ _
  have startInPlace : Reachable env (.reference .none) MirrorsInPlace
      (Exchange.new (fun _ => default) true : Exchange ReferenceBook) := .new _ _
  have reachable : Reachable env (.reference .none) ByLevel exchange := start.run (by decide +kernel)
  have kept := reachable.creditsKept fun _ _ allowed => allowed.1
  refine ⟨by decide +kernel, by decide +kernel, ?_⟩
  exact (@reconcilePhantomQty_reconciles _ _ exchange 0 reachable.represents.1 reachable.represents.2
    (startInPlace.run (by decide +kernel)).uncrossed kept.positive (fun stale => stale.1.false) .sell 103 4 2
    true (by decide +kernel)).1 (by decide +kernel)

/-- A venue's level that came with its first snapshot ranks by the time, and what is added to it
later by a drawn priority: the later order stands in front. -/
theorem reconcilePhantomQty_overtakes :
    let env : Environment := .counted fun _ => default
    let exchange := (Exchange.new (fun _ => default) true : Exchange ReferenceBook).run env (.reference .none)
      [.l2Snapshot { timeMs := 1, bids := [], asks := [{ price := 103, qty := 5 }] }]
    let after := exchange.reconcilePhantomQty .sell 103 8 2000000 0 true
    exchange.ledger.Represents .none ∧ exchange.ledger.Totalled ∧ exchange.ledger.Uncrossed ∧
      exchange.CreditsPositive ∧ ¬ Regresses exchange.book.l3 0 ∧
      (restingOrders exchange.book.l3 .sell).map BookOrder.quantity = [5] ∧
      (restingOrders after.book.l3 .sell).map BookOrder.quantity = [3, 5] ∧
      ¬ exchange.Reconciled after .sell 103 (8 - (exchange.takeTradedQty .sell 103 2000000).1) 2000000 0
        true := by
  intro env exchange after
  have start : Reachable env (.reference .none) ByLevel
      (Exchange.new (fun _ => default) true : Exchange ReferenceBook) := .new _ _
  have startInPlace : Reachable env (.reference .none) MirrorsInPlace
      (Exchange.new (fun _ => default) true : Exchange ReferenceBook) := .new _ _
  have reachable : Reachable env (.reference .none) ByLevel exchange := start.run (by decide +kernel)
  have kept := reachable.creditsKept fun _ _ allowed => allowed.1
  have before : restingOrders exchange.book.l3 .sell = [⟨1, .sell, 103, 5, 1000000⟩] := by decide +kernel
  have later : restingOrders after.book.l3 .sell =
      [⟨2, .sell, 103, 3, 1⟩, ⟨1, .sell, 103, 5, 1000000⟩] := by decide +kernel
  refine ⟨reachable.represents.1, reachable.represents.2, (startInPlace.run (by decide +kernel)).uncrossed,
    kept.positive, fun stale => stale.1.false, by rw [before]; rfl, by rw [later]; rfl, ?_⟩
  intro reconciled
  obtain ⟨front, order, back, isBefore, isAfter, -, -, last⟩ := reconciled.raised (by decide +kernel)
  rw [before] at isBefore
  rw [later] at isAfter
  cases front with
  | nil =>
      obtain rfl : _ = back := isBefore
      exact last _ List.mem_cons_self rfl
  | cons head front =>
      have isHead := (List.cons.inj isBefore).1
      have alsoHead := (List.cons.inj isAfter).1
      rw [← isHead] at alsoHead
      exact absurd (congrArg BookOrder.orderId alsoHead) (by decide)

end Exchange

end SlickSim
