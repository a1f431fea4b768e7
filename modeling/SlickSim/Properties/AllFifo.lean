import SlickSim.Engine.CheckedAllocation
import SlickSim.Ledger.Performed
import SlickSim.Properties.PriceTime

/-!
# Pro rata at 100 percent FIFO is FIFO

With the whole quantity in the FIFO slice, what the lot size keeps out of the slice is less
than a lot, so nobody's share of it is one, and it goes to the queue as well.
-/

set_option autoImplicit false

namespace SlickSim

open Sweeping
open OrderBookL3 (Regresses restingOrders)
open MatchingEngine (sweptSide)

namespace ProRata

variable {config : ProRataConfig} {items : List Allocation} {orders : List BookOrder} {qty : Int}

/-- Handing out in two goes is handing out in one. -/
theorem takeInQueue_add {first second : Int} (within : ∀ item ∈ items, item.Within) (firstNonneg : 0 ≤ first)
    (secondNonneg : 0 ≤ second) :
    (takeInQueue (takeInQueue items first).1 second).1 = (takeInQueue items (first + second)).1 := by
  induction items generalizing first second with
  | nil => rfl
  | cons head rest ih =>
      obtain ⟨⟨-, fits⟩, others⟩ := List.forall_mem_cons.mp within
      have taken : head.qty + min first (head.size - head.qty) +
          min second (head.size - (head.qty + min first (head.size - head.qty))) =
          head.qty + min (first + second) (head.size - head.qty) := by omega
      have left : first - min first (head.size - head.qty) +
          (second - min second (head.size - (head.qty + min first (head.size - head.qty)))) =
          first + second - min (first + second) (head.size - head.qty) := by omega
      have below := ih others (show 0 ≤ first - min first (head.size - head.qty) by omega)
        (show 0 ≤ second - min second (head.size - (head.qty + min first (head.size - head.qty))) by omega)
      simp only [takeInQueue]
      rw [below, taken, left]

/-- Enough for all is all for everyone. -/
theorem takeInQueue_whole {left : Int} (within : ∀ item ∈ items, item.Within)
    (enough : allocatableQty items - allocatedQty items ≤ left) :
    (takeInQueue items left).1 = items.map fun item => { item with qty := item.size } := by
  induction items generalizing left with
  | nil => rfl
  | cons head rest ih =>
      obtain ⟨⟨-, fits⟩, others⟩ := List.forall_mem_cons.mp within
      have later : allocatedQty rest ≤ allocatableQty rest :=
        List.sum_le_sum fun item member => (others item member).2
      rw [allocatableQty_cons, allocatedQty_cons] at enough
      have taken : head.qty + min left (head.size - head.qty) = head.size := by omega
      simp only [takeInQueue]
      rw [ih others (by omega), taken, List.map_cons]

/-- Nobody's share of less than a lot is a lot. -/
theorem shareFor_eq_zero {proRata base : Int} {item : Allocation} (within : item.Within) (nonneg : 0 ≤ proRata)
    (small : proRata < config.lotSize) (positive : 0 < base) (room : item.size - item.qty ≤ base) :
    shareFor config proRata base item = 0 := by
  obtain ⟨shareNonneg, -⟩ := shareOf_bounds nonneg (Int.sub_nonneg.mpr within.2) positive room
  have capped : shareOf proRata (item.size - item.qty) base < config.lotSize := by
    have := (shareOf_bounds nonneg (Int.sub_nonneg.mpr within.2) positive room).2
    omega
  have floored : floorLot config (shareOf proRata (item.size - item.qty) base) = 0 := by
    unfold floorLot
    rw [Int.emod_eq_of_lt shareNonneg capped, Int.sub_self]
  unfold shareFor
  rw [floored]
  dsimp only
  exact ite_self 0

/-- With all of the quantity in the FIFO slice an allocation is a queue. -/
theorem allocate_allFifo (percent : config.fifoPercent = 100) (blank : ∀ item ∈ items, item.qty = 0 ∧ 0 ≤ item.size)
    (more : 0 < qty) : allocate config items qty = (takeInQueue items qty).1 := by
  have within : ∀ item ∈ items, item.Within := by
    intro item member
    obtain ⟨zero, sized⟩ := blank item member
    exact ⟨by omega, by omega⟩
  have slice : fifoSlice config qty = floorLot config qty := by
    unfold fifoSlice shareOf
    rw [percent, if_pos (by decide)]
    congr 1
    omega
  have nothing : allocatedQty items = 0 := by
    apply List.sum_eq_zero
    intro given member
    obtain ⟨item, inside, rfl⟩ := List.mem_map.mp member
    exact (blank item inside).1
  by_cases whole : allocatableQty items ≤ qty
  · rw [allocate_whole whole, takeInQueue_whole within (by omega)]
  · have lot := Int.emod_lt_of_pos qty config.lotSize_positive
    have lotNonneg := Int.emod_nonneg qty config.lotSize_positive.ne'
    have sliceIs : floorLot config qty = qty - qty % config.lotSize := rfl
    have sliceNonneg : 0 ≤ floorLot config qty := floorLot_nonneg more.le
    obtain ⟨sliced, slicedWithin, sliceQty⟩ := allocatedQty_takeInQueue within sliceNonneg (by omega)
    have unshared : shareOut config (allocatableQty items) qty (qty - floorLot config qty)
        (takeInQueue items (floorLot config qty)).1 = (takeInQueue items (floorLot config qty)).1 := by
      unfold shareOut
      split
      · refine (List.map_congr_left fun item member => ?_).trans (List.map_id _)
        have room := room_le slicedWithin member
        rw [sliced.size] at room
        rw [shareFor_eq_zero (slicedWithin item member) (by omega) (by omega) (by omega) (by omega), Int.add_zero]
        rfl
      · rfl
    have unsharedSum : (sharesOf config (allocatableQty items) qty (qty - floorLot config qty)
        (takeInQueue items (floorLot config qty)).1).sum = 0 := by
      rw [← allocatedQty_shareOut, unshared, Int.sub_self]
    rw [allocate_passes config (not_le.mp whole)]
    dsimp only
    rw [slice, unshared, unsharedSum, Int.sub_zero, takeInQueue_add within sliceNonneg (by omega)]
    congr 2
    omega

private theorem fillsOf_takeInQueue (positive : ∀ order ∈ orders, 0 < order.quantity) (nonneg : 0 ≤ qty) :
    fillsOf (orders.zip ((takeInQueue (orders.map blankAllocation) qty).1.map Allocation.qty)) =
      inOrder BookOrder.quantity (fun _ => false) orders qty := by
  induction orders generalizing qty with
  | nil => rfl
  | cons front rest ih =>
      obtain ⟨size, others⟩ := List.forall_mem_cons.mp positive
      have taken : (blankAllocation front).qty +
          min qty ((blankAllocation front).size - (blankAllocation front).qty) = min qty front.quantity := by
        show 0 + min qty (front.quantity - 0) = min qty front.quantity
        omega
      have below := ih others (show 0 ≤ qty - min qty front.quantity by omega)
      simp only [List.map_cons, takeInQueue]
      rw [List.zip_cons_cons, fillsOf, taken,
        show (blankAllocation front).size - (blankAllocation front).qty = front.quantity from Int.sub_zero _]
      by_cases more : 0 < qty
      · rw [if_neg (by omega), inOrder_foreign more rfl, below]
      · rw [if_pos (by omega), below, inOrder_of_nonpos (by omega), inOrder_of_nonpos (by omega)]

/-- Shares with all of the quantity in the FIFO slice are taken in order. -/
theorem fillsOf_share_allFifo (percent : config.fifoPercent = 100)
    (positive : ∀ order ∈ orders, 0 < order.quantity) (more : 0 < qty) :
    fillsOf (share config orders qty) = inOrder BookOrder.quantity (fun _ => false) orders qty := by
  unfold share
  rw [allocate_allFifo percent _ more, fillsOf_takeInQueue positive more.le]
  intro item member
  obtain ⟨order, inside, rfl⟩ := List.mem_map.mp member
  exact ⟨rfl, (positive order inside).le⟩

end ProRata

/-! ## Both engines -/

namespace MatchingEngine

variable {β : Type} [OrderBookL3 β] {config : ProRataConfig} {side : BookSide} {limit qty : Int}
  {own : Nat → Bool} {orders : List BookOrder}

/-- The plans agree when no level that is reached holds an order of the aggressor's own. -/
theorem plan_allFifo (percent : config.fifoPercent = 100) (positive : ∀ order ∈ orders, 0 < order.quantity)
    (foreign : ∀ level ∈ reached BookOrder.quantity (own ∘ BookOrder.orderId) (levelsWithin side limit orders) qty,
      ∀ order ∈ level, (own ∘ BookOrder.orderId) order = false) :
    plan (.proRata config) side limit own orders qty = plan .fifo side limit own orders qty := by
  have sized : ∀ level ∈ levelsWithin side limit orders, ∀ order ∈ level, 0 < order.quantity :=
    positive_levelsWithin positive
  refine sweep_congr (splitLevel_splits (.proRata config) own) sized ?_
  intro level isReached left more
  have foreign := foreign level isReached
  show withdrawThenShare _ _ level left = inOrder _ _ level left
  rw [withdrawThenShare_foreign foreign,
    ProRata.fillsOf_share_allFifo percent (sized level (reached_subset level isReached)) more]
  exact inOrder_congr (fun order member => (foreign order member).symm) left

end MatchingEngine

variable {β : Type} [OrderBookL3 β]

/-- A pro-rata engine with all of the quantity in the FIFO slice does what the FIFO engine does:
with an order that comes in, new or amended, that has self-match prevention off or meets no order
of its own on a level it reaches, and with an aggressor from the feed. -/
theorem proRata_allFifo (env : Environment) (config : ProRataConfig) (percent : config.fifoPercent = 100)
    (state : MatchState β) :
    (∀ ref limit qty leaves requestTime eventTime smpMode, Incoming state ref limit qty leaves →
      smpMode = .none ∨ ¬ MatchingEngine.ReachesOwn state ref limit leaves smpMode →
      (MatchingEngine.proRata config).matchOrder env ref limit qty requestTime eventTime 0 smpMode state =
        MatchingEngine.fifo.matchOrder env ref limit qty requestTime eventTime 0 smpMode state) ∧
    (state.ledger.Represents .none → ∀ side orderId price qty eventTime seqNum,
      (MatchingEngine.proRata config).matchFeed env side orderId price qty eventTime seqNum state =
        MatchingEngine.fifo.matchFeed env side orderId price qty eventTime seqNum state) := by
  constructor
  · intro ref limit qty leaves requestTime eventTime smpMode incoming clear
    obtain ⟨hand, ready⟩ := MatchingEngine.incoming_sweepable incoming
    have samePlan : MatchingEngine.orderPlan (.proRata config) state ref limit leaves smpMode =
        MatchingEngine.orderPlan .fifo state ref limit leaves smpMode := by
      refine MatchingEngine.plan_allFifo percent
        (fun order member => ready.inv.agrees.positive (MatchState.entry_of_mem member)) ?_
      intro level isReached order member
      rw [← Bool.not_eq_true]
      intro isOwn
      rcases clear with rfl | clear
      · cases isOwn
      · exact clear ⟨level, isReached, order, member, isOwn⟩
    rw [MatchingEngine.matchOrder_planned _ env requestTime eventTime smpMode incoming,
      MatchingEngine.matchOrder_planned _ env requestTime eventTime smpMode incoming,
      MatchingEngine.planned_congr samePlan]
  · intro inv side orderId price qty eventTime seqNum
    rw [MatchingEngine.matchFeed_planned _ env inv, MatchingEngine.matchFeed_planned _ env inv,
      MatchingEngine.plan_allFifo percent]
    · exact fun order member => inv.agrees.positive (MatchState.entry_of_mem member)
    · exact fun _ _ _ _ => rfl

/-- Lots of three: an order for more than the best level offers, and a trade from the feed. -/
theorem proRata_allFifo_lots :
    let env : Environment := .counted fun _ => default
    let config : ProRataConfig := ⟨3, 2, 100, by decide, by decide, by decide⟩
    let exchange := (Exchange.new (fun _ => default) true : Exchange ReferenceBook).run env (.reference .none)
      [.limit 1 .sell 100 4, .limit 2 .sell 101 3]
    let state := (exchange.acceptOrder env (.reference .none) Input.header
      (buyMessage .goodTillCancel 101 6)).matching
    let ref := env.pool exchange.book.live
    (MatchingEngine.proRata config).matchOrder env ref 101 6 0 0 0 .cancelNewest state =
        MatchingEngine.fifo.matchOrder env ref 101 6 0 0 0 .cancelNewest state ∧
      (MatchingEngine.proRata config).matchFeed env .buy 9 100 5 0 0 exchange.matching =
        MatchingEngine.fifo.matchFeed env .buy 9 100 5 0 0 exchange.matching := by
  intro env config exchange state ref
  have start : Exchange.Reachable env (.reference .none) (fun _ _ => True) (Exchange.new (fun _ => default) true :
      Exchange ReferenceBook) := .new _ _
  have reachable : Exchange.Reachable env (.reference .none) (fun _ _ => True) exchange :=
    start.run (by decide +kernel)
  have incoming : Incoming state ref 101 6 6 :=
    Exchange.incoming_accepted reachable.represents.1 (by decide +kernel) (by decide +kernel)
  exact ⟨(proRata_allFifo env config rfl state).1 ref 101 6 6 0 0 .cancelNewest incoming
      (.inr (by decide +kernel)),
    (proRata_allFifo env config rfl exchange.matching).2 reachable.represents.1 .buy 9 100 5 0 0⟩

end SlickSim
