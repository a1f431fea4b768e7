import SlickSim.Engine.CheckedLoops
import SlickSim.Ledger.ProRataLoops
import SlickSim.Ledger.FifoFills

/-!
# Checked fills

A fill of no more than an order offers passes its checks. The book takes it, or it ends the loop;
a cancel on the way leaves one order less to meet, also when the book has seen a later
sequence number and takes no more of either.
-/

set_option autoImplicit false

namespace SlickSim

open OrderBookL3 (Regresses restingOrders)

namespace MatchState

variable {β : Type} [OrderBookL3 β] {env : Environment} {hand : Hand} {side : BookSide} {seqNum ref : Nat}
  {state : MatchState β} {order : BookOrder} {qty available : Int}

/-! ## What a side offers -/

/-- A book and the order in hand, which is none of those that rest on a side. -/
structure Faces (hand : Hand) (side : BookSide) (state : MatchState β) : Prop where
  inv : state.ledger.Represents hand
  apart : ∀ {id resting ref}, state.ledger.entry id = some resting → resting.side = side →
    state.ledger.owner id = some ref → hand.resting ≠ some ref

theorem Sweepable.faces (ready : state.Sweepable hand side seqNum) : state.Faces hand side :=
  ⟨ready.inv, ready.apart⟩

/-- The resting orders of a side are of something, and those of ours are what their objects say.
None is the aggressor. -/
structure Offers (hand : Hand) (side : BookSide) (state : MatchState β) : Prop where
  positive : ∀ order ∈ restingOrders state.book.l3 side, 0 < order.quantity
  booked : ∀ order ∈ restingOrders state.book.l3 side, ∀ owner,
    state.book.findOrder order.orderId = some owner →
    (state.order owner).id = order.orderId ∧ (state.order owner).leavesQuantity = order.quantity ∧
      hand.aggressor ≠ some owner

theorem Faces.offers (faces : state.Faces hand side) : state.Offers hand side where
  positive := fun _ member => faces.inv.agrees.positive (entry_of_mem member)
  booked := by
    intro order member owner ours
    have rests := entry_of_mem member
    have apart := faces.apart rests (OrderBookL3.side_of_mem member) ours
    obtain ⟨isEntry, sameId, -, -⟩ := faces.inv.resting_eq rests ours apart
    refine ⟨sameId.symm, ?_, fun held => aggressor_ne_owner faces.inv held ours apart rfl⟩
    rw [isEntry]
    rfl

/-- A fill of no more than an order offers passes its checks. -/
theorem Offers.allowsFill (offers : state.Offers hand side) (member : order ∈ restingOrders state.book.l3 side)
    (positive : 0 < qty) (fits : qty ≤ order.quantity) (enough : qty ≤ available) :
    state.AllowsFill order.orderId qty available := by
  refine ⟨positive, enough, ⟨order, entry_of_mem member, fits⟩, ?_⟩
  intro owner ours
  obtain ⟨-, leaves, -⟩ := offers.booked order member owner ours
  exact ⟨positive, by omega⟩

theorem Offers.booking (offers : state.Offers hand side) (held : hand.aggressor = some ref)
    (change : Order → Order) :
    (state.onBook fun book => book.updateOrder ref change).Offers hand side where
  positive := offers.positive
  booked := by
    intro order member owner ours
    obtain ⟨sameId, leaves, apart⟩ := offers.booked order member owner ours
    have other : owner ≠ ref := fun same => apart (same ▸ held)
    have kept : (state.onBook fun book => book.updateOrder ref change).order owner = state.order owner :=
      Function.update_of_ne other ..
    rw [kept]
    exact ⟨sameId, leaves, apart⟩

theorem fillResting_stale {ctx : MatchContext} (stale : Regresses state.book.l3 ctx.seqNum) (env : Environment)
    (side : BookSide) (ref id : Nat) (resting : Option Nat) (price tradeQty remaining : Int) :
    ∃ after, state.fillResting env ctx side ref id resting price tradeQty remaining = (false, ctx, after) := by
  let booked := (state.onBook fun book => book.updateOrder ref fun order =>
    order.execute price tradeQty ctx.eventTime).publishOrderExecution env ref true
  have declined : booked.book.executeOrder id tradeQty ctx.eventTime ctx.seqNum (decide (remaining = 0)) =
      (false, booked.book.noteDeclined True) := if_pos stale
  unfold fillResting
  dsimp only
  rw [declined]
  exact ⟨_, rfl⟩

end MatchState

/-! ## Fills -/

namespace Progress

open MatchState

variable {β : Type} [OrderBookL3 β] {env : Environment} {hand : Hand} {side : BookSide}
  {seqNum ref aggressorId : Nat} {progress : Progress β} {declines : Declines β} {order : BookOrder}
  {price tradeQty : Int}

/-- A loop took some of an order. -/
structure Took (env : Environment) (hand : Hand) (side : BookSide) (seqNum : Nat) (order : BookOrder)
    (tradeQty : Int) (before after : Progress β) : Prop where
  sameSeq : after.ctx.seqNum = seqNum
  qty : after.qty = before.qty - tradeQty
  takes : Takes env hand side seqNum order tradeQty before.state after.state

section Fill

variable (sameSeq : progress.ctx.seqNum = seqNum)
  (member : order ∈ restingOrders progress.state.book.l3 side) (positive : 0 < tradeQty)
  (fits : tradeQty ≤ order.quantity) (enough : tradeQty ≤ progress.qty)

include sameSeq member positive fits enough

theorem fill_current (env : Environment) (declines : Declines β) (price : Int)
    (ready : progress.state.Sweepable hand side seqNum) (held : hand.aggressor = some ref)
    (leaves : tradeQty ≤ (progress.state.order ref).leavesQuantity) :
    ∃ taken after, progress.fill env declines side ref order.orderId
        (progress.state.book.findOrder order.orderId) price tradeQty = some (taken, after) ∧
      (taken = true → Took env hand side seqNum order tradeQty progress after ∧
        (after.state.order ref).leavesQuantity = (progress.state.order ref).leavesQuantity - tradeQty) ∧
      (declines = .none → taken = true) := by
  have allowed := (ready.faces.offers.booking held fun order =>
    order.execute price tradeQty progress.ctx.eventTime).allowsFill member positive fits enough
  unfold fill
  dsimp only
  rw [if_pos ⟨⟨positive, by omega⟩, allowed⟩]
  cases comes : declines progress.executions with
  | some book =>
      refine ⟨false, _, rfl, by rintro ⟨⟩, ?_⟩
      rintro rfl
      cases comes
  | none =>
      obtain ⟨ctx, after, filled, seqIs, takes, left, -⟩ := fillResting_takes env ready.inv
        (sameSeq ▸ ready.current) (entry_of_mem member) (OrderBookL3.side_of_mem member)
        (fun _ ours => ready.apart (entry_of_mem member) (OrderBookL3.side_of_mem member) ours)
        positive fits price held leaves (progress.qty - tradeQty)
      rw [sameSeq] at takes
      rw [filled]
      exact ⟨true, _, rfl, fun _ => ⟨⟨seqIs.trans sameSeq, rfl, takes⟩, left⟩, fun _ => rfl⟩

theorem fill_stale (env : Environment) (declines : Declines β) (price : Int) (resting : Option Nat)
    (stale : Regresses progress.state.book.l3 seqNum) (offers : progress.state.Offers hand side)
    (held : hand.aggressor = some ref) (leaves : tradeQty ≤ (progress.state.order ref).leavesQuantity) :
    ∃ after, progress.fill env declines side ref order.orderId resting price tradeQty = some (false, after) := by
  have allowed := (offers.booking held fun order =>
    order.execute price tradeQty progress.ctx.eventTime).allowsFill member positive fits enough
  unfold fill
  dsimp only
  rw [if_pos ⟨⟨positive, by omega⟩, allowed⟩]
  cases declines progress.executions with
  | some book => exact ⟨_, rfl⟩
  | none =>
      obtain ⟨after, declined⟩ := fillResting_stale (sameSeq ▸ stale) env side ref order.orderId resting price
        tradeQty (progress.qty - tradeQty)
      rw [declined]
      exact ⟨_, rfl⟩

theorem fillFromFeed_current (env : Environment) (declines : Declines β) (aggressorId : Nat) (price : Int)
    (ready : progress.state.Sweepable hand side seqNum) :
    ∃ taken after, progress.fillFromFeed env declines side aggressorId order.orderId price tradeQty =
        some (taken, after) ∧
      (taken = true → Took env hand side seqNum order tradeQty progress after) ∧
      (declines = .none → taken = true) := by
  unfold fillFromFeed
  rw [if_pos (ready.faces.offers.allowsFill member positive fits enough)]
  cases comes : declines progress.executions with
  | some book =>
      refine ⟨false, _, rfl, by rintro ⟨⟩, ?_⟩
      rintro rfl
      cases comes
  | none =>
      obtain ⟨ctx, after, filled, seqIs, takes⟩ := fillRestingFromFeed_takes env ready.inv
        (sameSeq ▸ ready.current) (entry_of_mem member) (OrderBookL3.side_of_mem member)
        (fun _ ours => ready.apart (entry_of_mem member) (OrderBookL3.side_of_mem member) ours)
        positive fits price aggressorId progress.qty
      rw [sameSeq] at takes
      rw [filled]
      exact ⟨true, _, rfl, fun _ => ⟨seqIs.trans sameSeq, rfl, takes⟩, fun _ => rfl⟩

theorem fillFromFeed_stale (env : Environment) (declines : Declines β) (aggressorId : Nat) (price : Int)
    (stale : Regresses progress.state.book.l3 seqNum) (offers : progress.state.Offers hand side) :
    ∃ after, progress.fillFromFeed env declines side aggressorId order.orderId price tradeQty =
      some (false, after) := by
  unfold fillFromFeed
  rw [if_pos (offers.allowsFill member positive fits enough)]
  cases declines progress.executions with
  | some book => exact ⟨_, rfl⟩
  | none =>
      rw [fillRestingFromFeed_stale (sameSeq ▸ stale)]
      exact ⟨_, rfl⟩

end Fill

end Progress

/-! ## What is left to meet -/

/-- A late deletion takes an order out of the maps and leaves the book as it is. -/
theorem OrderBook.deleteOrder_stale {β : Type} [OrderBookL3 β] {book : OrderBook β} {ref owner seqNum : Nat}
    (stale : Regresses book.l3 seqNum) (ours : book.findOrder (book.heap ref).id = some owner)
    (timestamp : Nat) (isLast : Bool) :
    let deleted := book.deleteOrder ref timestamp seqNum isLast
    deleted.l3 = book.l3 ∧ deleted.heap = book.heap ∧ deleted.orders = book.orders.erase (book.heap ref).id := by
  let declined := (book.noteDeclined (Regresses book.l3 seqNum)).absorb (.discarded book.l3)
  have deleted : book.deleteOrder ref timestamp seqNum isLast = declined.unregisterOrder ref := by
    unfold deleteOrder deleteL3Order
    dsimp only
    rw [show (book.noteDeclined (Regresses book.l3 seqNum)).l3 = book.l3 from rfl,
      OrderBookL3.deleteOrder_discarded _ _ _ _ _ (.inl stale),
      show declined.findOrder (declined.heap ref).id = some owner from ours]
  rw [deleted]
  exact ⟨rfl, rfl, rfl⟩

namespace MatchState

variable {β : Type} [OrderBookL3 β] {env : Environment} {hand : Hand} {side : BookSide} {seqNum ref : Nat}
  {state : MatchState β} {order : BookOrder}

/-- A loop can go on. A book that has seen a later sequence number takes no more fills, but
the loop still cancels. -/
inductive Ready (hand : Hand) (side : BookSide) (seqNum : Nat) (state : MatchState β) : Prop where
  | current (ready : state.Sweepable hand side seqNum)
  | stale (regresses : Regresses state.book.l3 seqNum) (offers : state.Offers hand side)

theorem Faces.ready (faces : state.Faces hand side) (seqNum : Nat) : state.Ready hand side seqNum := by
  by_cases regresses : Regresses state.book.l3 seqNum
  · exact .stale regresses faces.offers
  · exact .current ⟨faces.inv, regresses, faces.apart⟩

theorem Ready.offers (ready : state.Ready hand side seqNum) : state.Offers hand side := by
  cases ready with
  | current ready => exact ready.faces.offers
  | stale _ offers => exact offers

/-- The orders that an aggressor may still come to and take or cancel. -/
def toMeet (side : BookSide) (seqNum : Nat) (state : MatchState β) : List BookOrder :=
  if Regresses state.book.l3 seqNum then
    (restingOrders state.book.l3 side).filter fun order => (state.book.findOrder order.orderId).isSome
  else restingOrders state.book.l3 side

theorem length_toMeet_le (side : BookSide) (seqNum : Nat) (state : MatchState β) :
    (state.toMeet side seqNum).length ≤ (restingOrders state.book.l3 side).length := by
  unfold toMeet
  split
  · exact List.length_filter_le ..
  · exact le_rfl

theorem Sweepable.toMeet (ready : state.Sweepable hand side seqNum) :
    state.toMeet side seqNum = restingOrders state.book.l3 side :=
  if_neg ready.current

/-- An own order was cancelled on the way of a loop. -/
structure Withdraws (hand : Hand) (side : BookSide) (seqNum : Nat) (resting : BookOrder)
    (before after : MatchState β) : Prop where
  ready : after.Ready hand side seqNum
  fewer : (after.toMeet side seqNum).length < (before.toMeet side seqNum).length
  aggressor : ∀ ref, hand.aggressor = some ref → after.order ref = before.order ref
  stays : Regresses before.book.l3 seqNum → after.book.l3 = before.book.l3
  offer : ∀ {limit resolve item order}, ProRata.Offer side limit resolve before item order →
    order.orderId ≠ resting.orderId → ProRata.Offer side limit resolve after item order

/-- A late cancel leaves the book as it is and the order without an owner. -/
private theorem handleSelfMatch_stale {resting : BookOrder} {bookRef : Nat} (env : Environment)
    (requestTime timestamp : Nat) (regresses : Regresses state.book.l3 seqNum) (offers : state.Offers hand side)
    (member : resting ∈ restingOrders state.book.l3 side)
    (ours : state.book.findOrder resting.orderId = some bookRef) :
    ∃ after, state.handleSelfMatch env bookRef requestTime timestamp seqNum .cancelResting = (true, after) ∧
      after.book.l3 = state.book.l3 ∧ after.book.heap = state.book.heap ∧
      after.book.findOrder resting.orderId = none ∧
      ∀ id, id ≠ resting.orderId → after.book.findOrder id = state.book.findOrder id := by
  obtain ⟨sameId, -, -⟩ := offers.booked resting member bookRef ours
  have sameId : (state.book.heap bookRef).id = resting.orderId := sameId
  obtain ⟨l3, heap, orders⟩ := OrderBook.deleteOrder_stale regresses (sameId.symm ▸ ours) timestamp false
  refine ⟨_, rfl, l3, heap, ?_, ?_⟩
  · show (state.book.deleteOrder bookRef timestamp seqNum false).orders.lookup resting.orderId = none
    rw [orders, sameId, AList.lookup_erase]
  · intro id other
    show (state.book.deleteOrder bookRef timestamp seqNum false).orders.lookup id = state.book.orders.lookup id
    rw [orders, sameId, AList.lookup_erase_ne other]

theorem Ready.withdraws {resting : BookOrder} {bookRef : Nat} (ready : state.Ready hand side seqNum)
    (env : Environment) (requestTime timestamp : Nat) (member : resting ∈ restingOrders state.book.l3 side)
    (ours : state.book.findOrder resting.orderId = some bookRef) :
    ∃ after, state.handleSelfMatch env bookRef requestTime timestamp seqNum .cancelResting = (true, after) ∧
      Withdraws hand side seqNum resting state after := by
  obtain ⟨-, -, apart⟩ := ready.offers.booked resting member bookRef ours
  cases ready with
  | current ready =>
      have rests := entry_of_mem member
      have swept := OrderBookL3.side_of_mem member
      obtain ⟨after, cancelled, takes, others⟩ := handleSelfMatch_takes env requestTime timestamp ready rests swept
        ours
      have next := ready.sweeps takes.sweeps takes.current
      refine ⟨after, cancelled, .current next, ?_, ?_, fun stale => absurd stale ready.current,
        fun offer other => offer.takes ready takes other⟩
      · rw [ready.toMeet, next.toMeet, takes.queue]
        exact length_takeFromQueue_lt member
      · intro ref held
        exact others ref fun same => apart (same ▸ held)
  | stale regresses offers =>
      obtain ⟨after, cancelled, l3, heap, gone, others⟩ := handleSelfMatch_stale env requestTime timestamp
        regresses offers member ours
      have still : Regresses after.book.l3 seqNum := l3 ▸ regresses
      refine ⟨after, cancelled, .stale still ⟨?_, ?_⟩, ?_, ?_, fun _ => l3, ?_⟩
      · rw [l3]
        exact offers.positive
      · intro order inside owner owned
        rw [l3] at inside
        have other : order.orderId ≠ resting.orderId := by
          intro same
          rw [same, gone] at owned
          cases owned
        rw [show after.order owner = state.order owner from congrFun heap owner]
        exact offers.booked order inside owner (others _ other ▸ owned)
      · unfold toMeet
        rw [if_pos still, if_pos regresses, l3]
        have remaining : ∀ order : BookOrder, (after.book.findOrder order.orderId).isSome =
            (decide (order.orderId ≠ resting.orderId) && (state.book.findOrder order.orderId).isSome) := by
          intro order
          by_cases same : order.orderId = resting.orderId
          · rw [same, gone]
            simp
          · rw [others _ same]
            simp [same]
        simp only [remaining]
        rw [← List.filter_filter]
        refine List.length_filter_lt_length_iff_exists.mpr ⟨resting, ?_, by simp⟩
        exact List.mem_filter.mpr ⟨member, by rw [ours]; rfl⟩
      · intro ref _
        exact congrFun heap ref
      · intro limit resolve item order offer other
        exact { offer with
          rests := by
            rw [show after.ledger.entry order.orderId = OrderBookL3.findOrder after.book.l3 order.orderId from rfl, l3]
            exact offer.rests
          resolved := fun resolving => (offer.resolved resolving).trans (others _ other).symm }

end MatchState

end SlickSim
