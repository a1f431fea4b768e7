import Mathlib.Data.List.TakeWhile
import SlickSim.Ledger.Planned
import SlickSim.Ledger.Summaries

/-!
# Performing acts one after the other

Acts on different resting orders, none for more than it has, all go through: each does what it
says to its order, and what is told of them is told once and in their order.
-/

set_option autoImplicit false

namespace SlickSim

open KeyedList Sweeping
open OrderBookL3 (Regresses restingOrders)

/-! ## What acts come to -/

def takeAct (queue : List BookOrder) : Act BookOrder → List BookOrder
  | .fill order qty => takeFromQueue order qty queue
  | .withdraw order => takeFromQueue order order.quantity queue

def leftOf : Act BookOrder → Option BookOrder
  | .fill order qty => if qty = order.quantity then none else some (order.reduce qty)
  | .withdraw _ => none

/-- What acts on different orders leave of an order. -/
def leftBy : List (Act BookOrder) → BookOrder → Option BookOrder
  | [], order => some order
  | act :: acts, order => if order.orderId = act.item.orderId then leftOf act else leftBy acts order

section Left

variable {act : Act BookOrder} {acts : List (Act BookOrder)} {order : BookOrder} {queue : List BookOrder}

theorem leftBy_of_absent (absent : ∀ act ∈ acts, order.orderId ≠ act.item.orderId) : leftBy acts order = some order := by
  induction acts with
  | nil => rfl
  | cons act acts ih =>
      rw [leftBy, if_neg (absent act List.mem_cons_self)]
      exact ih fun other member => absent other (List.mem_cons_of_mem _ member)

theorem leftBy_of_mem (distinct : (acts.map fun act => act.item.orderId).Nodup) (member : act ∈ acts)
    (same : order.orderId = act.item.orderId) : leftBy acts order = leftOf act := by
  induction acts with
  | nil => cases member
  | cons first acts ih =>
      obtain ⟨fresh, others⟩ := List.nodup_cons.mp distinct
      rcases List.mem_cons.mp member with rfl | member
      · exact if_pos same
      · rw [leftBy, if_neg, ih others member]
        intro sameFirst
        exact fresh (List.mem_map.mpr ⟨act, member, same.symm.trans sameFirst⟩)

theorem leftOf_id {left : BookOrder} (isLeft : leftOf act = some left) :
    left.orderId = act.item.orderId ∧ left.price = act.item.price ∧ left.side = act.item.side ∧
      left.priority = act.item.priority := by
  cases act with
  | fill order qty =>
      rw [leftOf] at isLeft
      split at isLeft
      · cases isLeft
      · obtain rfl := Option.some.inj isLeft
        exact ⟨rfl, rfl, rfl, rfl⟩
  | withdraw order => cases isLeft

/-- Nothing is left of an order that all is taken of. -/
theorem leftOf_takeWhole (own : BookOrder → Bool) (order : BookOrder) :
    leftOf (takeWhole BookOrder.quantity own order) = none := by
  unfold takeWhole
  split
  · rfl
  · exact if_pos rfl

/-- What is left of a resting order keeps its id, side, price and priority. -/
theorem leftBy_keeps {left : BookOrder} (rests : ∀ act ∈ acts, act.item ∈ queue)
    (distinct : (queue.map BookOrder.orderId).Nodup) (once : (acts.map fun act => act.item.orderId).Nodup)
    (member : order ∈ queue) (isLeft : leftBy acts order = some left) :
    left.orderId = order.orderId ∧ left.price = order.price ∧ left.side = order.side ∧
      left.priority = order.priority := by
  by_cases acted : ∃ act ∈ acts, order.orderId = act.item.orderId
  · obtain ⟨act, inside, sameId⟩ := acted
    rw [leftBy_of_mem once inside sameId] at isLeft
    rw [← eq_of_key distinct (rests act inside) member sameId.symm]
    exact leftOf_id isLeft
  · rw [leftBy_of_absent fun act inside sameId => acted ⟨act, inside, sameId⟩] at isLeft
    rw [Option.some.inj isLeft]
    exact ⟨rfl, rfl, rfl, rfl⟩

theorem takeAct_eq (queue : List BookOrder) (act : Act BookOrder) : takeAct queue act =
    queue.filterMap fun order => if order.orderId = act.item.orderId then leftOf act else some order := by
  have erased : ∀ id, eraseKey BookOrder.orderId id queue =
      queue.filterMap fun order => if order.orderId = id then none else some order := by
    intro id
    rw [eraseKey, ← List.filterMap_eq_filter]
    refine List.filterMap_congr fun order _ => ?_
    by_cases same : order.orderId = id <;> simp [Option.guard, same]
  cases act with
  | fill order qty =>
      rw [takeAct, takeFromQueue]
      simp only [leftOf]
      split
      · exact erased _
      · rw [setKey, ← List.filterMap_eq_map]
        refine List.filterMap_congr fun other _ => ?_
        by_cases same : other.orderId = order.orderId <;> simp [same, BookOrder.reduce, Act.item]
  | withdraw order =>
      rw [takeAct, takeFromQueue, if_pos rfl]
      exact erased _

/-- What is left of a queue. -/
theorem foldl_takeAct (distinct : (acts.map fun act => act.item.orderId).Nodup) (queue : List BookOrder) :
    acts.foldl takeAct queue = queue.filterMap (leftBy acts) := by
  induction acts generalizing queue with
  | nil => exact List.filterMap_some.symm
  | cons act acts ih =>
      obtain ⟨fresh, others⟩ := List.nodup_cons.mp distinct
      rw [List.foldl_cons, ih others, takeAct_eq, List.filterMap_filterMap]
      refine List.filterMap_congr fun order _ => ?_
      rw [leftBy]
      split
      · cases isLeft : leftOf act with
        | none => rfl
        | some left =>
            refine leftBy_of_absent fun other member same => fresh (List.mem_map.mpr ⟨other, member, ?_⟩)
            rw [← same, (leftOf_id isLeft).1]
      · rfl

end Left

namespace MatchState

variable {β : Type} [OrderBookL3 β]

/-- These acts happened on a side, in this order. No other trade and no other cancel was told, and
the other side is as it was. -/
structure Performs (aggressor : Option Nat) (side : BookSide) (acts : List (Act BookOrder))
    (before after : MatchState β) : Prop where
  queue : restingOrders after.book.l3 side = acts.foldl takeAct (restingOrders before.book.l3 side)
  otherSide : restingOrders after.book.l3 side.opposite = restingOrders before.book.l3 side.opposite
  trades : after.trades =
    before.trades ++ (fillsIn acts).flatMap (fillTrades aggressor fun id => (before.book.findOrder id).isSome)
  cancels : after.cancels = before.cancels ++ (withdrawn acts).map BookOrder.orderId

/-- Acts that can be performed one after the other. -/
structure Performable (side : BookSide) (own : Nat → Bool) (acts : List (Act BookOrder))
    (state : MatchState β) : Prop where
  rests : ∀ act ∈ acts, act.item ∈ restingOrders state.book.l3 side
  distinct : (acts.map fun act => act.item.orderId).Nodup
  fills : ∀ order qty, .fill order qty ∈ acts → own order.orderId = false ∧ 0 < qty ∧ qty ≤ order.quantity
  withdraws : ∀ order, .withdraw order ∈ acts → own order.orderId = true

/-- A run of acts: what it did, the summaries that add up to it, and what can go on from there. -/
structure Performance (env : Environment) (hand : Hand) (side : BookSide) (seqNum : Nat)
    (aggressor : Option Nat) (aggressorId : Nat) (acts : List (Act BookOrder)) (ctx : MatchContext)
    (before : MatchState β) (ctx' : MatchContext) (after : MatchState β) : Prop where
  performs : Performs aggressor side acts before after
  sums : ∀ owned fills, (∀ fill ∈ fillsIn acts,
      owned fill.1.orderId = (before.book.findOrder fill.1.orderId).isSome ∧ fill.1.price ≠ nullPrice) →
    ctx.Sums owned aggressorId fills → ctx'.Sums owned aggressorId (fills ++ fillsIn acts)
  seqIs : ctx'.seqNum = seqNum
  ready : after.Sweepable hand side seqNum
  sweeps : Sweeps env hand side before.ledger after.ledger

variable {env : Environment} {hand : Hand} {side : BookSide} {own : Nat → Bool}
  {seqNum ref requestTime : Nat} {smpMode : SelfMatchPreventionMode} {acts more : List (Act BookOrder)}
  {aggressor : Option Nat} {aggressorId : Nat} {act : Act BookOrder} {order : BookOrder} {qty : Int}
  {ctx ctx' ctx'' : MatchContext} {state before between after : MatchState β}

theorem Performable.takes (performable : Performable side own (act :: acts) state)
    (takes : Takes env hand side seqNum act.item qty state after) : Performable side own acts after where
  rests := by
    intro other member
    have different : other.item.orderId ≠ act.item.orderId := by
      intro same
      have distinct := performable.distinct
      rw [List.map_cons, ← same] at distinct
      exact (List.nodup_cons.mp distinct).1 (List.mem_map_of_mem member)
    have before := performable.rests other (List.mem_cons_of_mem _ member)
    have rests := mem_of_entry ((takes.entry _ different).trans (entry_of_mem before))
    rwa [OrderBookL3.side_of_mem before] at rests
  distinct := (List.nodup_cons.mp performable.distinct).2
  fills := fun order qty member => performable.fills order qty (List.mem_cons_of_mem _ member)
  withdraws := fun order member => performable.withdraws order (List.mem_cons_of_mem _ member)

theorem Performable.filledQty_nonneg (performable : Performable side own acts state) : 0 ≤ filledQty acts := by
  apply List.sum_nonneg
  intro qty member
  obtain ⟨act, inside, rfl⟩ := List.mem_map.mp member
  cases act with
  | fill order qty => exact (performable.fills order qty inside).2.1.le
  | withdraw order => exact le_rfl

theorem Performable.sublist (performable : Performable side own acts state) (sub : more.Sublist acts) :
    Performable side own more state where
  rests := fun other member => performable.rests other (sub.subset member)
  distinct := (sub.map _).nodup performable.distinct
  fills := fun order qty member => performable.fills order qty (sub.subset member)
  withdraws := fun order member => performable.withdraws order (sub.subset member)

theorem Performable.tail (performable : Performable side own (act :: acts) state) :
    Performable side own acts state :=
  performable.sublist (List.sublist_cons_self act acts)

/-! ## One act -/

theorem Performs.nil : Performs aggressor side [] before before :=
  ⟨rfl, rfl, (List.append_nil _).symm, (List.append_nil _).symm⟩

theorem Performs.trans (first : Performs aggressor side acts before between)
    (others : Performs aggressor side more between after)
    (owners : ∀ fill ∈ fillsIn more,
      between.book.findOrder fill.1.orderId = before.book.findOrder fill.1.orderId) :
    Performs aggressor side (acts ++ more) before after where
  queue := by rw [others.queue, first.queue, List.foldl_append]
  otherSide := others.otherSide.trans first.otherSide
  trades := by
    have told : (fillsIn more).flatMap (fillTrades aggressor fun id => (between.book.findOrder id).isSome) =
        (fillsIn more).flatMap (fillTrades aggressor fun id => (before.book.findOrder id).isSome) := by
      refine List.flatMap_congr fun fill member => ?_
      simp only [fillTrades, owners fill member]
    rw [others.trades, first.trades, told, fillsIn_append, List.flatMap_append, List.append_assoc]
  cancels := by rw [others.cancels, first.cancels, withdrawn_append, List.map_append, List.append_assoc]

theorem FillsOne.performs (one : FillsOne aggressor side order qty before after) :
    Performs aggressor side [.fill order qty] before after where
  queue := one.queue
  otherSide := one.otherSide
  trades := by
    rw [one.trades, show fillsIn [Act.fill order qty] = [(order, qty)] from rfl, List.flatMap_singleton]
  cancels := one.cancels.trans (List.append_nil _).symm

theorem handleSelfMatch_performs {bookRef timestamp : Nat} (ready : before.Sweepable hand side seqNum)
    (member : order ∈ restingOrders before.book.l3 side)
    (ours : before.book.findOrder order.orderId = some bookRef)
    (handled : before.handleSelfMatch env bookRef requestTime timestamp seqNum .cancelResting = (true, after)) :
    Performs aggressor side [.withdraw order] before after := by
  have rests := entry_of_mem member
  have swept := OrderBookL3.side_of_mem member
  have apart := ready.apart rests swept ours
  obtain ⟨-, sameId, some, whole⟩ := ready.inv.resting_eq rests ours apart
  have registered := ready.inv.indexed.registered ours
  have filled : 0 ≤ (before.ledger.heap bookRef).cumQuantity :=
    (ready.inv.agrees.at_ bookRef).filled_nonneg (.inl registered)
  let gone := before.onBook fun book => book.deleteOrder bookRef timestamp seqNum false
  obtain rfl : ((gone.publishOrderCancel env bookRef requestTime).onBook fun book => book.freeOrder bookRef) = after :=
    congrArg Prod.snd handled
  obtain ⟨takes, -⟩ := cancelOrder_takes ready.inv ready.current rests swept ours apart
    (show ((gone.publishOrderCancel env bookRef requestTime).onBook fun book => book.freeOrder bookRef) = _ from rfl)
  have goneId : (gone.order bookRef).id = order.orderId := by
    obtain ⟨goneIs, -⟩ := OrderBook.deleteOrder_ledger timestamp false ready.current
      (show (before.book.ledger before.responses).Registered bookRef from registered) (sameId ▸ rests) sameId (show (before.ledger.heap bookRef).quantity ≠ 0 by omega)
    have heapIs := congrArg (fun ledger => (ledger.heap bookRef).id) goneIs
    refine Eq.trans heapIs (Eq.trans ?_ sameId.symm)
    show (Function.update before.ledger.heap bookRef (before.ledger.heap bookRef).withoutLeaves bookRef).id = _
    rw [Function.update_self]
    rfl
  obtain ⟨-, -, -, otherSide, -⟩ := OrderBookL3.deleteOrder_accepted before.book.l3 order timestamp seqNum false
    ready.current (swept ▸ member)
  have l3Is : gone.book.l3 =
      (OrderBookL3.deleteOrder before.book.l3 order.orderId timestamp seqNum false).book := by
    rw [show order.orderId = (before.book.heap bookRef).id from sameId]
    exact OrderBook.deleteOrder_l3 bookRef timestamp false
  refine ⟨?_, ?_, ?_, ?_⟩
  · exact takes.queue
  · rw [← swept, ← otherSide, ← l3Is]
    rfl
  · exact (publish_trades gone env fun slot => slot.writeCancel (gone.order bookRef) requestTime).trans
      rfl
  · refine (publish_cancels gone env fun slot => slot.writeCancel (gone.order bookRef) requestTime).trans ?_
    show before.cancels ++ [(gone.order bookRef).id] = _
    rw [goneId]
    rfl

/-! ## All acts -/

theorem Performance.nil (ready : before.Sweepable hand side seqNum) (sameSeq : ctx.seqNum = seqNum) :
    Performance env hand side seqNum aggressor aggressorId [] ctx before ctx before where
  performs := .nil
  sums := by
    intro owned fills _ sums
    rw [show fillsIn ([] : List (Act BookOrder)) = [] from rfl, List.append_nil]
    exact sums
  seqIs := sameSeq
  ready := ready
  sweeps := .refl

theorem Performance.trans (start : before.Sweepable hand side seqNum)
    (first : Performance env hand side seqNum aggressor aggressorId acts ctx before ctx' between)
    (others : Performance env hand side seqNum aggressor aggressorId more ctx' between ctx'' after)
    (rests : ∀ act ∈ more, act.item ∈ restingOrders between.book.l3 side) :
    Performance env hand side seqNum aggressor aggressorId (acts ++ more) ctx before ctx'' after := by
  have owners : ∀ fill ∈ fillsIn more,
      between.book.findOrder fill.1.orderId = before.book.findOrder fill.1.orderId := by
    intro fill member
    have still := entry_of_mem (rests _ (mem_fillsIn member))
    exact (first.sweeps.takenFrom start.inv).owner (by rw [show between.ledger.entry fill.1.orderId = _ from still]; rintro ⟨⟩)
  refine ⟨first.performs.trans others.performs owners, ?_, others.seqIs, others.ready,
    first.sweeps.trans others.sweeps⟩
  intro owned fills known sums
  rw [fillsIn_append] at known ⊢
  rw [← List.append_assoc]
  refine others.sums owned _ ?_ (first.sums owned fills (fun fill member => known fill (List.mem_append_left _ member)) sums)
  intro fill member
  rw [owners fill member]
  exact known fill (List.mem_append_right _ member)

private theorem FillsOne.performance (one : FillsOne aggressor side order qty before after) {reported : MatchState β}
    (isCtx : ctx' = (reported.recordTrade ctx side aggressorId order.orderId order.price qty
      (phantomPart (fun id => (before.book.findOrder id).isSome) order.orderId qty)).1)
    (sameSeq : ctx'.seqNum = seqNum) (ready : after.Sweepable hand side seqNum)
    (sweeps : Sweeps env hand side before.ledger after.ledger) :
    Performance env hand side seqNum aggressor aggressorId [.fill order qty] ctx before ctx' after where
  performs := one.performs
  sums := by
    intro owned fills known sums
    obtain ⟨same, real⟩ := known (order, qty) (List.mem_singleton_self _)
    have samePart : phantomPart (fun id => (before.book.findOrder id).isSome) order.orderId qty =
        phantomPart owned order.orderId qty := by
      unfold phantomPart
      rw [same]
    rw [isCtx, samePart]
    exact reported.recordTrade_sums sums side real qty
  seqIs := sameSeq
  ready := ready
  sweeps := sweeps

theorem perform_run (held : hand.aggressor = some ref) (requestTime : Nat) (acts : List (Act BookOrder)) :
    ∀ (ctx : MatchContext) (qty : Int) (state : MatchState β), ctx.seqNum = seqNum →
      state.Sweepable hand side seqNum → state.Own smpMode side ref own → Performable side own acts state →
      filledQty acts ≤ (state.order ref).leavesQuantity →
      (smpMode = .cancelNewest → acts.any Act.isWithdraw = false) →
      ∃ ctx' after, (∀ more, state.perform env side ref requestTime smpMode (acts ++ more) ctx qty =
          after.perform env side ref requestTime smpMode more ctx' (qty - filledQty acts)) ∧
        (after.order ref).leavesQuantity = (state.order ref).leavesQuantity - filledQty acts ∧
        (after.order ref).cumQuantity = (state.order ref).cumQuantity + filledQty acts ∧
        Performance env hand side seqNum (some (state.order ref).id) (state.order ref).id acts ctx state ctx'
          after := by
  induction acts with
  | nil =>
      intro ctx qty state sameSeq ready _ _ _ _
      rw [filledQty_nil, Int.sub_zero, Int.sub_zero]
      exact ⟨ctx, state, fun _ => rfl, rfl, (Int.add_zero _).symm, .nil ready sameSeq⟩
  | cons act acts ih =>
      intro ctx qty state sameSeq ready mine performable enough clear
      have restNonneg := performable.tail.filledQty_nonneg
      cases act with
      | fill order tradeQty =>
          have member : order ∈ restingOrders state.book.l3 side := performable.rests _ List.mem_cons_self
          have rests := entry_of_mem member
          have swept := OrderBookL3.side_of_mem member
          obtain ⟨-, taking, fits⟩ := performable.fills order tradeQty List.mem_cons_self
          rw [filledQty_cons] at enough ⊢
          change tradeQty + _ ≤ _ at enough
          have current : ¬ Regresses state.book.l3 ctx.seqNum := sameSeq ▸ ready.current
          obtain ⟨ctx', between, filled, seqIs, takes, left, cum⟩ := fillResting_takes env ready.inv
            current rests swept (fun _ ours => ready.apart rests swept ours)
            taking fits order.price held (by omega) (qty - tradeQty)
          rw [sameSeq] at takes
          obtain ⟨one, reported, isCtx⟩ := fillResting_fillsOne member current (ready.frontAgrees member)
            taking fits filled
          have readyNext := ready.sweeps takes.sweeps takes.current
          have sameId : (between.order ref).id = (state.order ref).id :=
            ((takes.sweeps.takenFrom ready.inv).terms ref).id
          have first : Performance env hand side seqNum (some (state.order ref).id) (state.order ref).id
              [.fill order tradeQty] ctx state ctx' between :=
            one.performance (sameId ▸ isCtx) (seqIs.trans sameSeq) readyNext takes.sweeps
          obtain ⟨ctx'', after, performs, leaves, executed, others⟩ := ih ctx' (qty - tradeQty)
            between (seqIs.trans sameSeq) readyNext (mine.sweeps ready takes.sweeps)
            (performable.takes takes) (by omega) clear
          rw [show (Act.fill order tradeQty).qty = tradeQty from rfl, ← Int.sub_sub, ← Int.sub_sub, ← Int.add_assoc]
          refine ⟨ctx'', after, ?_, by omega, by omega, first.trans ready (sameId ▸ others) (performable.takes takes).rests⟩
          intro more
          rw [List.cons_append, perform_fill filled]
          exact performs more
      | withdraw order =>
          have member : order ∈ restingOrders state.book.l3 side := performable.rests _ List.mem_cons_self
          have rests := entry_of_mem member
          have swept := OrderBookL3.side_of_mem member
          have isOwn := (mine order member).mpr (performable.withdraws order List.mem_cons_self)
          obtain ⟨bookRef, ours⟩ := ref_of_selfMatch isOwn.2
          rw [filledQty_cons, show (Act.withdraw order).qty = 0 from rfl, Int.zero_add] at enough ⊢
          cases smpMode with
          | none => exact absurd rfl isOwn.1
          | cancelNewest => cases clear rfl
          | cancelResting =>
              obtain ⟨between, cancelled, takes, others⟩ := handleSelfMatch_takes env
                requestTime ctx.eventTime ready rests swept ours
              have sameOrder := others ref (ready.aggressor_ne held rests swept ours)
              have handled : state.handleSelfMatch env ((state.book.findOrder order.orderId).getD 0)
                  requestTime ctx.eventTime ctx.seqNum .cancelResting = (true, between) := by
                rw [show state.book.findOrder order.orderId = some bookRef from ours, sameSeq]
                exact cancelled
              have readyNext := ready.sweeps takes.sweeps takes.current
              have first : Performance env hand side seqNum (some (state.order ref).id) (state.order ref).id
                  [.withdraw order] ctx state ctx between := by
                refine ⟨handleSelfMatch_performs ready member ours cancelled, ?_, sameSeq, readyNext, takes.sweeps⟩
                intro owned fills _ sums
                rw [show fillsIn [Act.withdraw order] = [] from rfl, List.append_nil]
                exact sums
              obtain ⟨ctx', after, performs, leaves, executed, others⟩ := ih ctx qty between
                sameSeq readyNext (mine.sweeps ready takes.sweeps)
                (performable.takes takes) (by rw [sameOrder]; exact enough) (by rintro ⟨⟩)
              rw [sameOrder] at leaves executed others
              refine ⟨ctx', after, ?_, leaves, executed, first.trans ready others (performable.takes takes).rests⟩
              intro more
              rw [List.cons_append, perform_withdraw handled]
              exact performs more

/-- Under `CANCEL_NEWEST` an order whose acts include a withdrawal does not get past the first. -/
theorem perform_refused (held : hand.aggressor = some ref) (requestTime : Nat) (sameSeq : ctx.seqNum = seqNum)
    (ready : state.Sweepable hand side seqNum) (mine : state.Own .cancelNewest side ref own)
    (performable : Performable side own acts state) (enough : filledQty acts ≤ (state.order ref).leavesQuantity) :
    (state.perform env side ref requestTime .cancelNewest acts ctx qty).refused = acts.any Act.isWithdraw := by
  have cut : acts.takeWhile (fun act => !act.isWithdraw) ++ acts.dropWhile (fun act => !act.isWithdraw) = acts :=
    List.takeWhile_append_dropWhile
  generalize isFront : acts.takeWhile (fun act => !act.isWithdraw) = front at cut
  generalize isBack : acts.dropWhile (fun act => !act.isWithdraw) = back at cut
  have clear : front.any Act.isWithdraw = false := by
    rw [List.any_eq_false]
    intro act member isWithdraw
    rw [← isFront] at member
    have fills := List.mem_takeWhile_imp member
    rw [isWithdraw] at fills
    cases fills
  have more := (performable.sublist (cut ▸ List.sublist_append_right front back)).filledQty_nonneg
  rw [← cut, filledQty_append] at enough
  obtain ⟨ctx', after, performs, -⟩ := @perform_run _ _ env _ _ _ _ _ _ held requestTime front ctx qty state sameSeq
    ready mine (performable.sublist (cut ▸ List.sublist_append_left front back)) (by omega) fun _ => clear
  rw [← cut, performs, List.any_append, clear, Bool.false_or]
  cases back with
  | nil => rfl
  | cons act back =>
      have withdraws := List.head?_dropWhile_not (fun act => !Act.isWithdraw act) acts
      rw [isBack] at withdraws
      cases act with
      | fill order tradeQty => simp [Act.isWithdraw] at withdraws
      | withdraw order => rfl

/-- What rests under an id after a run is what its acts left. -/
theorem Performance.entry (start : before.Sweepable hand side seqNum)
    (run : Performance env hand side seqNum aggressor aggressorId acts ctx before ctx' after)
    (performable : Performable side own acts before) (member : order ∈ restingOrders before.book.l3 side) :
    after.ledger.entry order.orderId = leftBy acts order := by
  have distinct := OrderBookL3.restingOrders_distinct before.book.l3 side
  have queue := run.performs.queue
  rw [foldl_takeAct performable.distinct] at queue
  have keeps : ∀ {resting left}, resting ∈ restingOrders before.book.l3 side → leftBy acts resting = some left →
      left.orderId = resting.orderId := fun inside isLeft =>
    (leftBy_keeps performable.rests distinct performable.distinct inside isLeft).1
  cases isLeft : leftBy acts order with
  | some left =>
      have rests : left ∈ restingOrders after.book.l3 side := by
        rw [queue]
        exact List.mem_filterMap.mpr ⟨order, member, isLeft⟩
      rw [← keeps member isLeft]
      exact entry_of_mem rests
  | none =>
      cases rests : after.ledger.entry order.orderId with
      | none => rfl
      | some resting =>
          obtain ⟨old, isOld, shrinks⟩ := (run.sweeps.takenFrom start.inv).shrinks rests
          obtain rfl : order = old := Option.some.inj ((entry_of_mem member).symm.trans isOld)
          have inside := mem_of_entry rests
          rw [shrinks.side, OrderBookL3.side_of_mem member, queue] at inside
          obtain ⟨other, isOther, otherLeft⟩ := List.mem_filterMap.mp inside
          have sameId : other.orderId = order.orderId :=
            (keeps isOther otherLeft).symm.trans (run.ready.inv.indexed.entry_id rests)
          rw [eq_of_key distinct isOther member sameId, isLeft] at otherLeft
          cases otherLeft

theorem performFeed_run (env : Environment) (aggressorId : Nat) (acts : List (Act BookOrder)) :
    ∀ (ctx : MatchContext) (qty : Int) (state : MatchState β), ctx.seqNum = seqNum →
      state.Sweepable hand side seqNum → Performable side (fun _ => false) acts state →
      ∃ ctx' after, state.performFeed env side aggressorId acts ctx qty =
          ⟨false, qty - filledQty acts, ctx', after⟩ ∧
        Performance env hand side seqNum none aggressorId acts ctx state ctx' after := by
  induction acts with
  | nil =>
      intro ctx qty state sameSeq ready _
      rw [filledQty_nil, Int.sub_zero]
      exact ⟨ctx, state, rfl, .nil ready sameSeq⟩
  | cons act acts ih =>
      intro ctx qty state sameSeq ready performable
      cases act with
      | fill order tradeQty =>
          have member : order ∈ restingOrders state.book.l3 side := performable.rests _ List.mem_cons_self
          have rests := entry_of_mem member
          have swept := OrderBookL3.side_of_mem member
          obtain ⟨-, taking, fits⟩ := performable.fills order tradeQty List.mem_cons_self
          have current : ¬ Regresses state.book.l3 ctx.seqNum := sameSeq ▸ ready.current
          obtain ⟨ctx', between, filled, seqIs, takes⟩ := fillRestingFromFeed_takes env ready.inv current
            rests swept (fun _ ours => ready.apart rests swept ours) taking fits order.price aggressorId qty
          rw [sameSeq] at takes
          obtain ⟨one, reported, isCtx⟩ := fillRestingFromFeed_fillsOne member current (ready.frontAgrees member)
            taking fits filled
          have readyNext := ready.sweeps takes.sweeps takes.current
          have first : Performance env hand side seqNum none aggressorId [.fill order tradeQty] ctx state ctx'
              between := one.performance isCtx (seqIs.trans sameSeq) readyNext takes.sweeps
          obtain ⟨ctx'', after, performs, others⟩ := ih ctx' (qty - tradeQty) between (seqIs.trans sameSeq) readyNext
            (performable.takes takes)
          refine ⟨ctx'', after, ?_, first.trans ready others (performable.takes takes).rests⟩
          rw [performFeed_fill filled, performs, filledQty_cons, ← Int.sub_sub]
          rfl
      | withdraw order => cases performable.withdraws order List.mem_cons_self

/-- A book that has seen a later sequence number lets a feed aggressor take nothing. -/
theorem performFeed_stale (env : Environment) (side : BookSide) {ctx : MatchContext}
    (stale : Regresses state.book.l3 ctx.seqNum) (aggressorId : Nat)
    (acts : List (Act BookOrder)) (qty : Int) :
    let result := state.performFeed env side aggressorId acts ctx qty
    result.remaining = qty ∧ result.ctx = ctx ∧ (result.state = state ∨
      result.state = state.onBook fun book => book.noteDeclined True) := by
  induction acts with
  | nil => exact ⟨rfl, rfl, .inl rfl⟩
  | cons act acts ih =>
      cases act with
      | fill order tradeQty =>
          rw [performFeed_declined (fillRestingFromFeed_stale stale ..)]
          exact ⟨rfl, rfl, .inr rfl⟩
      | withdraw order => exact ih

end MatchState

/-! ## Closing what does not rest -/

namespace MatchState

variable {β : Type} (state : MatchState β) (env : Environment) (ref : Nat) (remaining : Int) (requestTime : Nat)

theorem cancelUnrestableRemainder_book :
    (state.cancelUnrestableRemainder env ref remaining requestTime).book = state.book := by
  unfold cancelUnrestableRemainder
  split <;> rfl

theorem cancelUnrestableRemainder_trades :
    (state.cancelUnrestableRemainder env ref remaining requestTime).trades = state.trades := by
  unfold cancelUnrestableRemainder
  split
  · exact (state.publish_trades env _).trans (List.append_nil _)
  · rfl

end MatchState

/-! ## Plans -/

namespace MatchingEngine

open MatchState

variable {β : Type} [OrderBookL3 β] {hand : Hand} {side : BookSide} {seqNum : Nat} {limit qty : Int}
  {own : Nat → Bool} {orders : List BookOrder} {state : MatchState β}

theorem positive_levelsWithin (positive : ∀ order ∈ orders, 0 < order.quantity) :
    ∀ level ∈ levelsWithin side limit orders, ∀ order ∈ level, 0 < order.quantity := by
  intro level member order inside
  have within : order ∈ withinLimit side limit orders := by
    rw [← flatten_levelsWithin]
    exact List.mem_flatten.mpr ⟨level, member, inside⟩
  exact positive order (List.takeWhile_subset _ within)

theorem plan_performable (engine : MatchingEngine) (own : Nat → Bool) (limit qty : Int)
    (ready : state.Sweepable hand side seqNum) :
    Performable side own (engine.plan side limit own (restingOrders state.book.l3 side) qty) state := by
  have positive : ∀ order ∈ restingOrders state.book.l3 side, 0 < order.quantity :=
    fun order member => ready.inv.agrees.positive (entry_of_mem member)
  have sized : ∀ level ∈ levelsWithin side limit (restingOrders state.book.l3 side), ∀ order ∈ level,
      0 < order.quantity := positive_levelsWithin positive
  have policy := engine.splitLevel_splits own
  have once := sweep_once policy sized qty
  rw [flatten_levelsWithin] at once
  have inside : ∀ act ∈ engine.plan side limit own (restingOrders state.book.l3 side) qty,
      act.item ∈ restingOrders state.book.l3 side :=
    fun act member => List.takeWhile_subset _ (once.subset (List.mem_map_of_mem member))
  refine ⟨inside, ?_, ?_, ?_⟩
  · obtain ⟨taken, perm, sub⟩ := once
    have distinct := ((sub.trans (List.takeWhile_sublist _)).map BookOrder.orderId).nodup
      (OrderBookL3.restingOrders_distinct state.book.l3 side)
    have := (perm.map BookOrder.orderId).nodup_iff.mp distinct
    rwa [List.map_map] at this
  · intro order tradeQty member
    obtain ⟨level, isReached, left, more, -, acts⟩ := mem_sweep policy sized member
    exact policy.fills (sized level (reached_subset level isReached)) more acts
  · intro order member
    obtain ⟨level, isReached, left, -, -, acts⟩ := mem_sweep policy sized member
    exact policy.withdraws acts

/-- A plan for an aggressor from the feed fills what it can of its quantity. -/
theorem filledQty_feedPlan (engine : MatchingEngine) (inv : state.ledger.Represents .none) (side : BookSide)
    (limit : Int) (nonneg : 0 ≤ qty) :
    filledQty (engine.plan side limit (fun _ => false) (restingOrders state.book.l3 side) qty) =
      min qty (foreignQty BookOrder.quantity ((fun _ => false) ∘ BookOrder.orderId)
        (withinLimit side limit (restingOrders state.book.l3 side))) := by
  rw [← flatten_levelsWithin]
  exact sweep_total (engine.splitLevel_splits _)
    (positive_levelsWithin fun order member => inv.agrees.positive (entry_of_mem member)) nonneg

theorem matchFeed_run (engine : MatchingEngine) (env : Environment) (inv : state.ledger.Represents .none)
    (side : Side) (orderId : Nat) (price qty : Int) (eventTime seqNum : Nat)
    (current : ¬ Regresses state.book.l3 seqNum) :
    let acts := engine.plan (sweptSide side) price (fun _ => false) (restingOrders state.book.l3 (sweptSide side)) qty
    ∃ ctx after, engine.matchFeed env side orderId price qty eventTime seqNum state =
        (qty - filledQty acts, ctx.summaries, after) ∧
      Performance env .none (sweptSide side) seqNum none orderId acts (.start eventTime seqNum) state ctx after := by
  intro acts
  have ready : state.Sweepable .none (sweptSide side) seqNum := ⟨inv, current, fun _ _ _ => by rintro ⟨⟩⟩
  obtain ⟨ctx, after, performs, performance⟩ := performFeed_run env orderId acts (.start eventTime seqNum) qty
    state rfl ready (plan_performable engine (fun _ => false) price qty ready)
  refine ⟨ctx, after, ?_, performance⟩
  rw [matchFeed_planned engine env inv, performs]

theorem matchFeed_stale (engine : MatchingEngine) (env : Environment) (inv : state.ledger.Represents .none)
    (side : Side) (orderId : Nat) (price qty : Int) (eventTime : Nat) {seqNum : Nat}
    (stale : Regresses state.book.l3 seqNum) :
    let matched := engine.matchFeed env side orderId price qty eventTime seqNum state
    matched.1 = qty ∧ matched.2.1 = [] ∧ matched.2.2.book.l3 = state.book.l3 := by
  intro matched
  have isMatched : matched = _ := engine.matchFeed_planned env inv side orderId price qty eventTime seqNum
  obtain ⟨remaining, ctx, unchanged⟩ := performFeed_stale env (sweptSide side)
    (show Regresses state.book.l3 (MatchContext.start eventTime seqNum).seqNum from stale) orderId
    (engine.plan (sweptSide side) price (fun _ => false) (restingOrders state.book.l3 (sweptSide side)) qty) qty
  rw [isMatched]
  refine ⟨remaining, congrArg MatchContext.summaries ctx, ?_⟩
  rcases unchanged with same | same <;> exact congrArg (fun state => state.book.l3) same

section Order

variable {ref : Nat} {leaves : Int} {smpMode : SelfMatchPreventionMode}

theorem filledQty_orderPlan (engine : MatchingEngine) (incoming : Incoming state ref limit qty leaves)
    (smpMode : SelfMatchPreventionMode) (nonneg : 0 ≤ leaves) :
    filledQty (engine.orderPlan state ref limit leaves smpMode) =
      min leaves (foreignQty BookOrder.quantity
        (state.book.ownOrders smpMode (state.order ref) ∘ BookOrder.orderId)
        (withinLimit (sweptSide (state.order ref).side) limit
          (restingOrders state.book.l3 (sweptSide (state.order ref).side)))) := by
  obtain ⟨hand, ready⟩ := incoming_sweepable incoming
  rw [← flatten_levelsWithin]
  exact sweep_total (engine.splitLevel_splits _)
    (positive_levelsWithin fun order member => ready.inv.agrees.positive (entry_of_mem member)) nonneg

theorem orderPlan_performable (engine : MatchingEngine) {hand : Hand} {prepared : MatchState β}
    (shown : Presented hand ref smpMode leaves state prepared) :
    Performable (sweptSide (state.order ref).side) (state.book.ownOrders smpMode (state.order ref))
      (engine.orderPlan state ref limit leaves smpMode) prepared := by
  have := plan_performable engine (state.book.ownOrders smpMode (state.order ref)) limit leaves shown.ready
  rwa [shown.l3] at this

theorem orderPlan_run (engine : MatchingEngine) (env : Environment) (qty : Int) (requestTime eventTime : Nat)
    (incoming : Incoming state ref limit qty leaves) (nonneg : 0 ≤ leaves)
    (clear : smpMode = .cancelNewest →
      (engine.orderPlan state ref limit leaves smpMode).any Act.isWithdraw = false) :
    let acts := engine.orderPlan state ref limit leaves smpMode
    let presented := state.present env ref limit qty requestTime
    ∃ hand ctx after, Presented hand ref smpMode leaves state presented ∧
      presented.perform env (sweptSide (state.order ref).side) ref requestTime smpMode acts (.start eventTime 0)
        leaves = ⟨false, leaves - filledQty acts, ctx, after⟩ ∧
      (after.order ref).leavesQuantity = leaves - filledQty acts ∧
      (after.order ref).cumQuantity = (state.order ref).cumQuantity + filledQty acts ∧
      Performance env hand (sweptSide (state.order ref).side) 0 (some (state.order ref).id) (state.order ref).id acts
        (.start eventTime 0) presented ctx after := by
  intro acts presented
  obtain ⟨hand, shown⟩ := incoming_presented env requestTime smpMode incoming
  have total : filledQty acts = min leaves _ := filledQty_orderPlan engine incoming smpMode nonneg
  obtain ⟨ctx, after, performs, left, executed, performance⟩ := perform_run shown.held requestTime acts (.start eventTime 0)
    leaves presented rfl shown.ready shown.mine (engine.orderPlan_performable shown) (by rw [shown.leaves]; omega) clear
  have whole := performs []
  rw [List.append_nil] at whole
  rw [present_id] at performance
  rw [present_cum] at executed
  exact ⟨hand, ctx, after, shown, whole, by rw [left, shown.leaves], executed, performance⟩

/-- An order that is not turned away matches as it planned, and what of it cannot rest is closed. -/
theorem matchOrder_performs (engine : MatchingEngine) (env : Environment) (requestTime eventTime : Nat)
    (incoming : Incoming state ref limit qty leaves)
    (clear : smpMode = .cancelNewest →
      (engine.orderPlan state ref limit leaves smpMode).any Act.isWithdraw = false)
    (fillable : ¬ CannotFill state.book smpMode (state.order ref) limit qty) (more : 0 < leaves) :
    let acts := engine.orderPlan state ref limit leaves smpMode
    let presented := state.present env ref limit qty requestTime
    ∃ hand ctx after, Presented hand ref smpMode leaves state presented ∧
      engine.matchOrder env ref limit qty requestTime eventTime 0 smpMode state = (.none, ctx.summaries,
        after.cancelUnrestableRemainder env ref (leaves - filledQty acts) requestTime) ∧
      (after.order ref).leavesQuantity = leaves - filledQty acts ∧
      (after.order ref).cumQuantity = (state.order ref).cumQuantity + filledQty acts ∧
      Performance env hand (sweptSide (state.order ref).side) 0 (some (state.order ref).id) (state.order ref).id acts
        (.start eventTime 0) presented ctx after := by
  intro acts presented
  obtain ⟨hand, ctx, after, shown, performs, left, executed, run⟩ := engine.orderPlan_run env qty requestTime eventTime
    incoming more.le clear
  refine ⟨hand, ctx, after, shown, ?_, left, executed, run⟩
  rw [matchOrder_planned engine env requestTime eventTime smpMode incoming]
  unfold planned
  dsimp only
  rw [if_neg fun both => Bool.false_ne_true ((clear both.1).symm.trans both.2), if_neg fillable,
    if_neg (show ¬ leaves = 0 by omega), performs]

/-- A fill-or-kill order that is not covered is acknowledged and closed. -/
theorem matchOrder_killed (engine : MatchingEngine) (env : Environment) (requestTime eventTime : Nat)
    (incoming : Incoming state ref limit qty leaves)
    (clear : smpMode = .cancelNewest →
      (engine.orderPlan state ref limit leaves smpMode).any Act.isWithdraw = false)
    (cannot : CannotFill state.book smpMode (state.order ref) limit qty) :
    engine.matchOrder env ref limit qty requestTime eventTime 0 smpMode state = (.fokCannotFill, [],
      (state.present env ref limit qty requestTime).publishOrderCancel env ref requestTime) := by
  rw [matchOrder_planned engine env requestTime eventTime smpMode incoming]
  unfold planned
  dsimp only
  rw [if_neg fun both => Bool.false_ne_true ((clear both.1).symm.trans both.2), if_pos cannot]

end Order

end MatchingEngine

end SlickSim
