import SlickSim.Ledger.Performed
import SlickSim.Properties.PriceTime

/-!
# The choice of engine

Whichever engine matches, as much is executed at each price, the aggressor has as much left, and
the same becomes of it. Only the level on which it is met may differ, in whose quantity was taken.
-/

set_option autoImplicit false

namespace SlickSim

open KeyedList Sweeping
open OrderBookL3 (Regresses restingOrders)
open MatchingEngine (sweptSide)

/-! ## What is compared -/

/-- What orders that are not the aggressor's own offer at a price. -/
def foreignAt (own : Nat → Bool) (price : Int) (order : BookOrder) : Int :=
  if order.price = price ∧ own order.orderId = false then order.quantity else 0

namespace MatchState

variable {β : Type} [OrderBookL3 β]

def offeredAt (state : MatchState β) (side : BookSide) (own : Nat → Bool) (price : Int) : Int :=
  ((restingOrders state.book.l3 side).map (foreignAt own price)).sum

/-- The queue at a price. -/
def ordersAt (state : MatchState β) (side : BookSide) (price : Int) : List BookOrder :=
  (restingOrders state.book.l3 side).filter fun order => decide (order.price = price)

/-- What an order has executed at a price as an aggressor, by its TRADE reports. -/
def executedAt (state : MatchState β) (orderNum : Nat) (price : Int) : Int :=
  ((state.trades.filter fun told => told.aggressor && decide (told.orderNum = orderNum ∧ told.price = price)).map
    TradeTold.qty).sum

/-- Books that are alike but for who offers what at one price. -/
structure AlikeButAt (own : Nat → Bool) (side : BookSide) (one other : MatchState β) : Prop where
  offered : ∀ price, one.offeredAt side own price = other.offeredAt side own price
  otherSide : restingOrders one.book.l3 side.opposite = restingOrders other.book.l3 side.opposite
  levels : ∃ last, ∀ price, price ≠ last → one.ordersAt side price = other.ordersAt side price

end MatchState

/-- What becomes of an order once it was matched. -/
inductive Outcome where
  | turnedAway (reason : OrdRejectReason)
  | rests
  | filled
  | cancelled
deriving DecidableEq, Repr

/-- As `Symbol::addOrder` and `Symbol::modifyOrder` tell it from the reject reason and the order. -/
def outcome (reason : OrdRejectReason) (order : Order) : Outcome :=
  if reason ≠ .none then .turnedAway reason
  else if order.leavesQuantity = 0 then .filled
  else if order.restsRemainder = true then .rests
  else .cancelled

/-! ## Plans of two policies -/

section Plans

variable {side : BookSide} {limit qty : Int} {own : Nat → Bool} {orders : List BookOrder}

variable {one other : List (Act BookOrder)}

/-- What is left of an order depends on the acts on it alone. -/
theorem leftBy_congr {order : BookOrder} (rests : ∀ act ∈ one ++ other, act.item ∈ orders)
    (distinct : (orders.map BookOrder.orderId).Nodup) (once : (one.map fun act => act.item.orderId).Nodup)
    (otherOnce : (other.map fun act => act.item.orderId).Nodup) (member : order ∈ orders)
    (same : ∀ act : Act BookOrder, act.item = order → (act ∈ one ↔ act ∈ other)) : leftBy one order = leftBy other order := by
  have item : ∀ act ∈ one ++ other, order.orderId = act.item.orderId → act.item = order :=
    fun act inside sameId => eq_of_key distinct (rests act inside) member sameId.symm
  by_cases acted : ∃ act ∈ one, order.orderId = act.item.orderId
  · obtain ⟨act, inside, sameId⟩ := acted
    have isOther := (same act (item act (List.mem_append_left _ inside) sameId)).mp inside
    rw [leftBy_of_mem once inside sameId, leftBy_of_mem otherOnce isOther sameId]
  · rw [leftBy_of_absent fun act inside sameId => acted ⟨act, inside, sameId⟩, leftBy_of_absent]
    intro act inside sameId
    exact acted ⟨act, (same act (item act (List.mem_append_right _ inside) sameId)).mpr inside, sameId⟩

/-- A queue holds no order twice after an act. -/
theorem takeAct_distinct (act : Act BookOrder) (distinct : (orders.map BookOrder.orderId).Nodup) :
    ((takeAct orders act).map BookOrder.orderId).Nodup := by
  have taken : ∀ order qty, ((takeFromQueue order qty orders).map BookOrder.orderId).Nodup := by
    intro order qty
    unfold takeFromQueue
    split
    · exact (List.filter_sublist.map BookOrder.orderId).nodup distinct
    · have same : (setKey BookOrder.orderId order.orderId
          (fun _ => { order with quantity := order.quantity - qty }) orders).map BookOrder.orderId =
          orders.map BookOrder.orderId := by
        rw [setKey, List.map_map]
        refine List.map_congr_left fun other _ => ?_
        by_cases same : other.orderId = order.orderId <;> simp [same]
      rw [same]
      exact distinct
  cases act with
  | fill order qty => exact taken order qty
  | withdraw order => exact taken order order.quantity

/-- A queue offers less by what is filled, at every price. -/
theorem sum_foldl_takeAct (acts : List (Act BookOrder)) (price : Int)
    (distinct : (orders.map BookOrder.orderId).Nodup) (once : (acts.map fun act => act.item.orderId).Nodup)
    (rests : ∀ act ∈ acts, act.item ∈ orders)
    (fills : ∀ order qty, .fill order qty ∈ acts → own order.orderId = false)
    (withdraws : ∀ order, .withdraw order ∈ acts → own order.orderId = true) :
    ((acts.foldl takeAct orders).map (foreignAt own price)).sum =
      (orders.map (foreignAt own price)).sum - filledOf (fun order => decide (order.price = price)) acts := by
  induction acts generalizing orders with
  | nil => exact (Int.sub_zero _).symm
  | cons act acts ih =>
      obtain ⟨fresh, others⟩ := List.nodup_cons.mp once
      have member := rests act List.mem_cons_self
      have still : ∀ other ∈ acts, other.item ∈ takeAct orders act := by
        intro other inside
        rw [takeAct_eq, List.mem_filterMap]
        refine ⟨other.item, rests other (List.mem_cons_of_mem _ inside), if_neg fun same => fresh ?_⟩
        exact List.mem_map.mpr ⟨other, inside, same⟩
      rw [List.foldl_cons, ih (takeAct_distinct act distinct) others still
        (fun order qty inside => fills order qty (List.mem_cons_of_mem _ inside))
        (fun order inside => withdraws order (List.mem_cons_of_mem _ inside))]
      rw [show act :: acts = [act] ++ acts from rfl, filledOf_append, ← Int.sub_sub]
      congr 1
      cases act with
      | fill order qty =>
          have foreign := fills order qty List.mem_cons_self
          rw [filledOf_fill]
          refine sum_takeFromQueue _ distinct member ?_ ?_
          · rintro rfl
            by_cases same : order.price = price <;> simp [foreignAt, same, foreign]
          · by_cases same : order.price = price <;> simp [foreignAt, same, foreign]
      | withdraw order =>
          have mine := withdraws order List.mem_cons_self
          rw [filledOf_withdraw]
          refine sum_takeFromQueue _ distinct member (fun _ => ?_) ?_
          · simp [foreignAt, mine]
          · simp [foreignAt, mine]

end Plans

/-! ## Two performances -/

namespace MatchState

variable {β : Type} [OrderBookL3 β] {hand : Hand} {side : BookSide} {seqNum orderNum : Nat} {limit qty : Int}
  {own : Nat → Bool} {aggressor : Option Nat} {acts : List (Act BookOrder)} {engine other : MatchingEngine}
  {start before after first second : MatchState β}

theorem AlikeButAt.refl (own : Nat → Bool) (side : BookSide) (state : MatchState β) : AlikeButAt own side state state :=
  ⟨fun _ => rfl, rfl, 0, fun _ _ => rfl⟩

theorem AlikeButAt.congr (alike : AlikeButAt own side first second) (sameBook : start.book.l3 = first.book.l3)
    (sameOther : before.book.l3 = second.book.l3) : AlikeButAt own side start before where
  offered := by
    intro price
    unfold offeredAt
    rw [sameBook, sameOther]
    exact alike.offered price
  otherSide := by
    rw [sameBook, sameOther]
    exact alike.otherSide
  levels := by
    unfold ordersAt
    rw [sameBook, sameOther]
    exact alike.levels

/-- An aggressor's TRADE reports are those of what it filled. -/
theorem Performs.executedAt (performs : Performs (some orderNum) side acts before after) (price : Int) :
    after.executedAt orderNum price =
      before.executedAt orderNum price + filledOf (fun order => decide (order.price = price)) acts := by
  unfold MatchState.executedAt filledOf
  rw [performs.trades, List.filter_append, List.map_append, List.sum_append]
  congr 1
  induction fillsIn acts with
  | nil => rfl
  | cons fill fills ih =>
      rw [List.flatMap_cons, List.filter_append, List.map_append, List.sum_append, ih]
      have told : (((fillTrades (some orderNum) (fun id => (before.book.findOrder id).isSome) fill).filter fun told =>
          told.aggressor && decide (told.orderNum = orderNum ∧ told.price = price)).map TradeTold.qty).sum =
          if fill.1.price = price then fill.2 else 0 := by
        unfold fillTrades
        by_cases same : fill.1.price = price
        · split <;> simp [same]
        · split <;> simp [same]
      rw [told]
      by_cases same : fill.1.price = price <;> simp [same]

/-- Two plans for one queue fill alike at every price. -/
theorem filledOf_plan (ready : start.Sweepable hand side seqNum) (price : Int) :
    filledOf (fun order => decide (order.price = price))
        (engine.plan side limit own (restingOrders start.book.l3 side) qty) =
      filledOf (fun order => decide (order.price = price))
        (other.plan side limit own (restingOrders start.book.l3 side) qty) := by
  refine sweep_filledOf (engine.splitLevel_splits own) (other.splitLevel_splits own)
    (MatchingEngine.positive_levelsWithin fun order member => ready.inv.agrees.positive (entry_of_mem member)) _ ?_
  intro level member
  obtain ⟨-, levelPrice, prices⟩ := mem_levelsWithin member
  exact ⟨decide (levelPrice = price), fun order inside => by rw [prices order inside]⟩

/-- Two plans for one queue leave it alike. -/
theorem performs_alike (ready : start.Sweepable hand side seqNum)
    (one : Performs aggressor side (engine.plan side limit own (restingOrders start.book.l3 side) qty) start first)
    (two : Performs aggressor side (other.plan side limit own (restingOrders start.book.l3 side) qty) start second) :
    AlikeButAt own side first second := by
  let orders := restingOrders start.book.l3 side
  have distinct : (orders.map BookOrder.orderId).Nodup := OrderBookL3.restingOrders_distinct _ _
  have sized : ∀ level ∈ levelsWithin side limit orders, ∀ order ∈ level, 0 < order.quantity :=
    MatchingEngine.positive_levelsWithin fun order member => ready.inv.agrees.positive (entry_of_mem member)
  have performable : ∀ engine : MatchingEngine, Performable side own (engine.plan side limit own orders qty) start :=
    fun engine => MatchingEngine.plan_performable engine own limit qty ready
  refine ⟨fun price => ?_, one.otherSide.trans two.otherSide.symm, ?_⟩
  · have left : ∀ (engine : MatchingEngine) {after : MatchState β},
        Performs aggressor side (engine.plan side limit own orders qty) start after →
        after.offeredAt side own price = start.offeredAt side own price -
          filledOf (fun order => decide (order.price = price)) (engine.plan side limit own orders qty) := by
      intro engine after performs
      have can := performable engine
      unfold offeredAt
      rw [performs.queue]
      exact sum_foldl_takeAct _ price distinct can.distinct can.rests
        (fun order qty member => (can.fills order qty member).1) can.withdraws
    rw [left engine one, left other two, filledOf_plan ready price]
  · -- Only the orders on the level that meets the demand may be left differently.
    let met := metOn BookOrder.quantity (own ∘ BookOrder.orderId) (levelsWithin side limit orders) qty
    obtain ⟨last, onLast⟩ : ∃ last, ∀ order ∈ met, order.price = last := by
      rcases metOn_mem BookOrder.quantity (own ∘ BookOrder.orderId) (levelsWithin side limit orders) qty with
        nothing | member
      · exact ⟨0, fun order inside => by rw [show met = [] from nothing] at inside; cases inside⟩
      · exact (mem_levelsWithin member).2
    refine ⟨last, fun price off => ?_⟩
    unfold ordersAt
    rw [one.queue, two.queue, foldl_takeAct (performable engine).distinct, foldl_takeAct (performable other).distinct,
      List.filter_filterMap, List.filter_filterMap]
    refine List.filterMap_congr fun order member => ?_
    by_cases here : order.price = price
    · rw [leftBy_congr (List.forall_mem_append.mpr ⟨(performable engine).rests, (performable other).rests⟩) distinct
        (performable engine).distinct (performable other).distinct member]
      rintro act rfl
      refine mem_sweep_congr (engine.splitLevel_splits own) (other.splitLevel_splits own) sized fun inside => ?_
      exact off (here.symm.trans (onLast _ inside))
    · have gone : ∀ engine : MatchingEngine, (leftBy (engine.plan side limit own orders qty) order).filter
          (fun order => decide (order.price = price)) = none := by
        intro engine
        rw [Option.filter_eq_none_iff]
        intro left isLeft
        rw [(leftBy_keeps (performable engine).rests distinct (performable engine).distinct member isLeft).2.1]
        simpa using here
      exact (gone engine).trans (gone other).symm

end MatchState

/-! ## Two engines -/

variable {β : Type} [OrderBookL3 β] {env : Environment} {ref : Nat} {limit qty leaves : Int}
  {smpMode : SelfMatchPreventionMode} {state : MatchState β} {one other : MatchingEngine}

/-- Two matches of one order came to the same for everyone but those whose quantity was taken. -/
structure MatchesAlike (own : Nat → Bool) (side : BookSide) (ref orderNum : Nat)
    (one other : OrdRejectReason × List TradeSummaryInfo × MatchState β) : Prop where
  reason : one.1 = other.1
  leaves : (one.2.2.order ref).leavesQuantity = (other.2.2.order ref).leavesQuantity
  outcome : outcome one.1 (one.2.2.order ref) = outcome other.1 (other.2.2.order ref)
  executed : ∀ price, one.2.2.executedAt orderNum price = other.2.2.executedAt orderNum price
  book : MatchState.AlikeButAt own side one.2.2 other.2.2

theorem MatchesAlike.refl (own : Nat → Bool) (side : BookSide) (ref orderNum : Nat)
    (matched : OrdRejectReason × List TradeSummaryInfo × MatchState β) :
    MatchesAlike own side ref orderNum matched matched :=
  ⟨rfl, rfl, rfl, fun _ => rfl, .refl own side _⟩

private theorem matchOrder_alike (one other : MatchingEngine) (env : Environment) (requestTime eventTime : Nat)
    (incoming : Incoming state ref limit qty leaves) (older : smpMode ≠ .cancelNewest) :
    MatchesAlike (state.book.ownOrders smpMode (state.order ref)) (sweptSide (state.order ref).side) ref
      (state.order ref).id (one.matchOrder env ref limit qty requestTime eventTime 0 smpMode state)
      (other.matchOrder env ref limit qty requestTime eventTime 0 smpMode state) := by
  have clear : ∀ engine : MatchingEngine, smpMode = .cancelNewest →
      (engine.orderPlan state ref limit leaves smpMode).any Act.isWithdraw = false :=
    fun engine newest => absurd newest older
  by_cases cannot : MatchingEngine.CannotFill state.book smpMode (state.order ref) limit qty
  · rw [one.matchOrder_killed env requestTime eventTime incoming (clear one) cannot,
      other.matchOrder_killed env requestTime eventTime incoming (clear other) cannot]
    exact .refl ..
  by_cases more : 0 < leaves
  · obtain ⟨hand, ctx, after, shown, matched, left, -, run⟩ := one.matchOrder_performs env requestTime eventTime
      incoming (clear one) cannot more
    obtain ⟨hand', ctx', after', shown', matched', left', -, run'⟩ := other.matchOrder_performs env requestTime
      eventTime incoming (clear other) cannot more
    have same : filledQty (one.orderPlan state ref limit leaves smpMode) =
        filledQty (other.orderPlan state ref limit leaves smpMode) := by
      rw [MatchingEngine.filledQty_orderPlan one incoming smpMode more.le,
        MatchingEngine.filledQty_orderPlan other incoming smpMode more.le]
    have book := after.cancelUnrestableRemainder_book env ref
      (leaves - filledQty (one.orderPlan state ref limit leaves smpMode)) requestTime
    have book' := after'.cancelUnrestableRemainder_book env ref
      (leaves - filledQty (other.orderPlan state ref limit leaves smpMode)) requestTime
    rw [matched, matched']
    have sameLeaves : (after.order ref).leavesQuantity = (after'.order ref).leavesQuantity := by
      rw [left, left', same]
    have sameRests : (after.order ref).restsRemainder = (after'.order ref).restsRemainder := by
      have terms := (run.sweeps.takenFrom shown.ready.inv).terms ref
      have terms' := (run'.sweeps.takenFrom shown'.ready.inv).terms ref
      unfold Order.restsRemainder
      rw [show (after.order ref).price = _ from terms.price, show (after.order ref).timeInForce = _ from
        terms.timeInForce, show (after'.order ref).price = _ from terms'.price,
        show (after'.order ref).timeInForce = _ from terms'.timeInForce]
    have performs := run.performs
    have performs' := run'.performs
    rw [one.orderPlan_present state env ref limit qty leaves requestTime] at performs
    rw [other.orderPlan_present state env ref limit qty leaves requestTime] at performs'
    have alike := MatchState.performs_alike shown.ready performs performs'
    refine ⟨rfl, ?_, ?_, fun price => ?_, ?_⟩
    · unfold MatchState.order
      rw [book, book']
      exact sameLeaves
    · unfold MatchState.order outcome
      rw [book, book']
      simp only [show (after.book.heap ref).leavesQuantity = _ from sameLeaves,
        show (after.book.heap ref).restsRemainder = _ from sameRests]
      rfl
    · unfold MatchState.executedAt
      rw [after.cancelUnrestableRemainder_trades, after'.cancelUnrestableRemainder_trades]
      refine (performs.executedAt price).trans (Eq.trans ?_ (performs'.executedAt price).symm)
      rw [MatchState.filledOf_plan shown.ready price]
    · exact alike.congr (congrArg OrderBook.l3 book) (congrArg OrderBook.l3 book')
  · have nothing : ∀ engine : MatchingEngine, engine.orderPlan state ref limit leaves smpMode = [] :=
      fun engine => sweep_of_nonpos (not_lt.mp more)
    rw [MatchingEngine.matchOrder_planned one env requestTime eventTime smpMode incoming,
      MatchingEngine.matchOrder_planned other env requestTime eventTime smpMode incoming,
      MatchingEngine.planned_congr ((nothing one).trans (nothing other).symm)]
    exact .refl ..

private theorem matchFeed_alike (one other : MatchingEngine) (env : Environment)
    (inv : state.ledger.Represents .none) (side : Side) (orderId : Nat) (price qty : Int) (eventTime seqNum : Nat) :
    let matched := one.matchFeed env side orderId price qty eventTime seqNum state
    let matched' := other.matchFeed env side orderId price qty eventTime seqNum state
    matched.1 = matched'.1 ∧
      MatchState.AlikeButAt (fun _ => false) (sweptSide side) matched.2.2 matched'.2.2 := by
  dsimp only
  by_cases stale : Regresses state.book.l3 seqNum
  · obtain ⟨remaining, -, l3⟩ := one.matchFeed_stale env inv side orderId price qty eventTime stale
    obtain ⟨remaining', -, l3'⟩ := other.matchFeed_stale env inv side orderId price qty eventTime stale
    exact ⟨remaining.trans remaining'.symm, (MatchState.AlikeButAt.refl _ _ state).congr l3 l3'⟩
  · obtain ⟨ctx, after, matched, run⟩ := one.matchFeed_run env inv side orderId price qty eventTime seqNum stale
    obtain ⟨ctx', after', matched', run'⟩ := other.matchFeed_run env inv side orderId price qty eventTime seqNum stale
    have ready : state.Sweepable .none (sweptSide side) seqNum := ⟨inv, stale, fun _ _ _ => by rintro ⟨⟩⟩
    rw [matched, matched']
    refine ⟨congrArg (qty - ·) ?_, MatchState.performs_alike ready run.performs run'.performs⟩
    by_cases nonneg : 0 ≤ qty
    · rw [one.filledQty_feedPlan inv _ price nonneg, other.filledQty_feedPlan inv _ price nonneg]
    · have nothing : ∀ engine : MatchingEngine, engine.plan (sweptSide side) price (fun _ => false)
          (restingOrders state.book.l3 (sweptSide side)) qty = [] := fun engine => sweep_of_nonpos (by omega)
      rw [nothing one, nothing other]

/-- Whichever engine matches an order, with self-match prevention off or cancelling resting orders,
or an aggressor from the feed, as much is executed at each price and as much is left of it. The
order comes to the same, and the books left behind are alike but for one level. -/
theorem engines_agree (env : Environment) (one other : MatchingEngine) (state : MatchState β) :
    (∀ ref limit qty leaves requestTime eventTime smpMode, Incoming state ref limit qty leaves →
      smpMode ≠ .cancelNewest →
      MatchesAlike (state.book.ownOrders smpMode (state.order ref)) (sweptSide (state.order ref).side) ref
        (state.order ref).id (one.matchOrder env ref limit qty requestTime eventTime 0 smpMode state)
        (other.matchOrder env ref limit qty requestTime eventTime 0 smpMode state)) ∧
    (state.ledger.Represents .none → ∀ side orderId price qty eventTime seqNum,
      let matched := one.matchFeed env side orderId price qty eventTime seqNum state
      let matched' := other.matchFeed env side orderId price qty eventTime seqNum state
      matched.1 = matched'.1 ∧
        MatchState.AlikeButAt (fun _ => false) (sweptSide side) matched.2.2 matched'.2.2) :=
  ⟨fun _ _ _ _ requestTime eventTime _ incoming older =>
      matchOrder_alike one other env requestTime eventTime incoming older,
    fun inv => matchFeed_alike one other env inv⟩

/-- An order of a user for three, whose own two offers rest among others', and a trade from the feed. -/
theorem engines_agree_own :
    let env : Environment := .counted fun _ => default
    let config : ProRataConfig := ⟨1, 1, 0, by decide, by decide, by decide⟩
    let user := Environment.countedName 9
    let offer (draw : Nat) (userId : Name) (qty : Int) : Input := .newOrder Input.header
      { userId, clientOrderId := Environment.countedName draw, side := .sell, type := .limit
        timeInForce := .goodTillCancel, price := 100, qty }
    let exchange := (Exchange.new (fun _ => default) true : Exchange ReferenceBook).run env (.reference .none)
      [offer 1 user 1, offer 2 default 4, offer 5 user 2, offer 6 default 4]
    let state := (exchange.acceptOrder env (.reference .none) Input.header
      { buyMessage .goodTillCancel 101 3 with userId := user }).matching
    let ref := env.pool exchange.book.live
    MatchesAlike (state.book.ownOrders .cancelResting (state.order ref)) (sweptSide (state.order ref).side) ref
        (state.order ref).id (MatchingEngine.fifo.matchOrder env ref 101 3 0 0 0 .cancelResting state)
        ((MatchingEngine.proRata config).matchOrder env ref 101 3 0 0 0 .cancelResting state) ∧
      (MatchingEngine.fifo.matchFeed env .buy 9 100 5 0 0 exchange.matching).1 =
        ((MatchingEngine.proRata config).matchFeed env .buy 9 100 5 0 0 exchange.matching).1 := by
  intro env config user offer exchange state ref
  have start : Exchange.Reachable env (.reference .none) (fun _ _ => True) (Exchange.new (fun _ => default) true :
      Exchange ReferenceBook) := .new _ _
  have reachable : Exchange.Reachable env (.reference .none) (fun _ _ => True) exchange :=
    start.run (by decide +kernel)
  have incoming : Incoming state ref 101 3 3 := Exchange.incoming_accepted reachable.represents.1 (by decide +kernel) (by decide +kernel)
  exact ⟨(engines_agree env .fifo (.proRata config) state).1 ref 101 3 3 0 0 .cancelResting incoming (by decide),
    ((engines_agree env .fifo (.proRata config) exchange.matching).2 reachable.represents.1 .buy 9 100 5 0 0).1⟩

end SlickSim
