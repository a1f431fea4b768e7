import SlickSim.Ledger.Performed
import SlickSim.Properties.PriceTime

/-!
# Trade summaries account for every fill

A match call returns one summary for each price it traded at, at worsening prices. Each adds up,
names different resting orders with what they gave, and together they are what was executed.
-/

set_option autoImplicit false

namespace SlickSim

open KeyedList Sweeping
open OrderBookL3 (Regresses restingOrders)
open MatchingEngine (sweptSide)

/-- What summaries say that a resting order gave. -/
def namedQty (summaries : List TradeSummaryInfo) (id : Nat) : Int :=
  (((tradeLegs summaries).filter fun leg => decide (leg.1 = id)).map fun leg => leg.2.2).sum

def MatchState.restingQty {β : Type} [OrderBookL3 β] (state : MatchState β) (id : Nat) : Int :=
  ((state.ledger.entry id).map BookOrder.quantity).getD 0

/-- The summaries of a match call that swept a side account for its fills. -/
structure AccountsFor {β : Type} [OrderBookL3 β] (side : BookSide) (own : Nat → Bool) (aggressorId : Nat)
    (executed : Int) (before after : MatchState β) (summaries : List TradeSummaryInfo) : Prop where
  balanced : ∀ summary ∈ summaries,
    summary.Balanced (fun id => (before.book.findOrder id).isSome) aggressorId ∧ 2 ≤ summary.numOrders ∧
      0 ≤ summary.phantomQty ∧ summary.phantomQty ≤ summary.qty
  worsening : summaries.Pairwise fun earlier later => isPriceBetter side earlier.price later.price = true
  named : ∀ summary ∈ summaries, ∀ leg ∈ summary.legs, 0 < leg.qty ∧
    ∃ order ∈ restingOrders before.book.l3 side, order.orderId = leg.orderId ∧ order.price = summary.price
  distinct : ((summaries.flatMap TradeSummaryInfo.legs).map Trade.orderId).Nodup
  gave : ∀ order ∈ restingOrders before.book.l3 side, own order.orderId = false →
    after.restingQty order.orderId = order.quantity - namedQty summaries order.orderId
  executed : (summaries.map TradeSummaryInfo.qty).sum = executed

/-! ## Prices -/

section Prices

variable {side : BookSide} {limit : Int} {orders : List BookOrder}

theorem plan_ranked (engine : MatchingEngine) (own : Nat → Bool) (qty : Int)
    (ranked : orders.Pairwise (BookOrder.ranksBefore side)) (positive : ∀ order ∈ orders, 0 < order.quantity) :
    (fillsIn (engine.plan side limit own orders qty)).Pairwise fun earlier later =>
      isPriceBetterOrEqual side earlier.1.price later.1.price = true := by
  have sized : ∀ level ∈ levelsWithin side limit orders, ∀ order ∈ level, 0 < order.quantity :=
    MatchingEngine.positive_levelsWithin positive
  have weak : (levelsWithin side limit orders).flatten.Pairwise fun earlier later =>
      isPriceBetterOrEqual side earlier.price later.price = true := by
    rw [flatten_levelsWithin]
    refine (ranked.sublist (List.takeWhile_sublist _)).imp fun {earlier later} ranks => ?_
    rw [isPriceBetterOrEqual_iff]
    exact ranks.imp id And.left
  have acts : ((engine.plan side limit own orders qty).map Act.item).Pairwise fun earlier later =>
      isPriceBetterOrEqual side earlier.price later.price = true := by
    refine sweep_pairwise (engine.splitLevel_splits own) sized ?_ (List.pairwise_flatten.mp weak).2 qty
    intro level member first isFirst later isLater
    obtain ⟨_, price, prices⟩ := mem_levelsWithin member
    rw [isPriceBetterOrEqual_iff, prices first isFirst, prices later isLater]
    exact .inr rfl
  have := acts.sublist (fillsIn_items _)
  rwa [List.pairwise_map] at this

/-- Summaries of fills at ever worse prices are at strictly worsening prices. -/
theorem MatchContext.Sums.worsening {owned : Nat → Bool} {aggressorId : Nat} {fills : List (BookOrder × Int)}
    {ctx : MatchContext} (sums : ctx.Sums owned aggressorId fills)
    (ranked : fills.Pairwise fun earlier later => isPriceBetterOrEqual side earlier.1.price later.1.price = true) :
    ctx.summaries.Pairwise fun earlier later => isPriceBetter side earlier.price later.price = true := by
  have legs : (tradeLegs ctx.summaries).Pairwise fun earlier later =>
      isPriceBetterOrEqual side earlier.2.1 later.2.1 = true := by
    rw [sums.legs, List.pairwise_map]
    exact ranked
  have weak : ctx.summaries.Pairwise fun earlier later =>
      isPriceBetterOrEqual side earlier.price later.price = true := by
    refine (List.pairwise_flatMap.mp legs).2.imp_of_mem fun {earlier later} isEarlier isLater ranks => ?_
    obtain ⟨first, isFirst⟩ := List.exists_mem_of_ne_nil _ (sums.balanced earlier isEarlier).some
    obtain ⟨second, isSecond⟩ := List.exists_mem_of_ne_nil _ (sums.balanced later isLater).some
    exact ranks _ (List.mem_map_of_mem isFirst) _ (List.mem_map_of_mem isSecond)
  have transitive : Trans (fun earlier later : TradeSummaryInfo => isPriceBetter side earlier.price later.price = true)
      (fun earlier later : TradeSummaryInfo => isPriceBetter side earlier.price later.price = true)
      fun earlier later : TradeSummaryInfo => isPriceBetter side earlier.price later.price = true := by
    refine ⟨fun {first second third} left right => ?_⟩
    cases side <;> simp only [isPriceBetter, decide_eq_true_eq] at left right ⊢ <;> omega
  refine List.isChain_iff_pairwise.mp (List.isChain_iff_forall_rel_of_append_cons_cons.mpr ?_)
  intro earlier later before behind cut
  have different := List.isChain_iff_forall_rel_of_append_cons_cons.mp sums.apart cut
  have ranks := List.isChain_iff_forall_rel_of_append_cons_cons.mp weak.isChain cut
  exact (isPriceBetterOrEqual_iff.mp ranks).resolve_right different

end Prices

/-! ## One run -/

section Run

variable {β : Type} [OrderBookL3 β] {env : Environment} {hand : Hand} {side : BookSide} {own owned : Nat → Bool}
  {seqNum aggressorId eventTime : Nat} {aggressor : Option Nat} {acts : List (Act BookOrder)}
  {fills : List (BookOrder × Int)} {ctx : MatchContext} {before after : MatchState β}

theorem MatchContext.Sums.leg_fill (sums : ctx.Sums owned aggressorId fills) {summary : TradeSummaryInfo}
    (member : summary ∈ ctx.summaries) {leg : Trade} (isLeg : leg ∈ summary.legs) :
    ∃ fill ∈ fills, fill.1.orderId = leg.orderId ∧ fill.1.price = summary.price ∧ fill.2 = leg.qty := by
  have named : (leg.orderId, summary.price, leg.qty) ∈ tradeLegs ctx.summaries :=
    List.mem_flatMap.mpr ⟨summary, member, List.mem_map_of_mem isLeg⟩
  rw [sums.legs] at named
  obtain ⟨fill, inside, same⟩ := List.mem_map.mp named
  obtain ⟨id, price, qty⟩ := by simpa only [Prod.mk.injEq] using same
  exact ⟨fill, inside, id, price, qty⟩

theorem MatchContext.Sums.legIds (sums : ctx.Sums owned aggressorId fills) :
    (ctx.summaries.flatMap TradeSummaryInfo.legs).map Trade.orderId = fills.map fun fill => fill.1.orderId := by
  have legs := congrArg (List.map Prod.fst) sums.legs
  rw [List.map_map] at legs
  refine Eq.trans ?_ legs
  unfold tradeLegs
  rw [List.map_flatMap, List.map_flatMap]
  refine List.flatMap_congr fun summary _ => ?_
  rw [List.map_map]
  rfl

theorem MatchContext.Sums.total (sums : ctx.Sums owned aggressorId fills) :
    (ctx.summaries.map TradeSummaryInfo.qty).sum = (fills.map Prod.snd).sum := by
  have legs := congrArg (fun legs => (legs.map fun leg => leg.2.2).sum) sums.legs
  rw [List.map_map] at legs
  refine Eq.trans ?_ legs
  have balanced := sums.balanced
  generalize ctx.summaries = summaries at balanced
  induction summaries with
  | nil => rfl
  | cons summary rest ih =>
      obtain ⟨here, others⟩ := List.forall_mem_cons.mp balanced
      rw [List.map_cons, List.sum_cons, ih others, here.qty]
      show _ = ((tradeLegs ([summary] ++ rest)).map _).sum
      rw [tradeLegs_append, List.map_append, List.sum_append]
      congr 1
      unfold tradeLegs
      rw [List.flatMap_singleton, List.map_map]
      rfl

theorem MatchState.Performance.accountsFor (start : before.Sweepable hand side seqNum)
    (performable : MatchState.Performable side own acts before)
    (run : MatchState.Performance env hand side seqNum aggressor aggressorId acts (.start eventTime seqNum) before ctx
      after)
    (ranked : (fillsIn acts).Pairwise fun earlier later =>
      isPriceBetterOrEqual side earlier.1.price later.1.price = true)
    (real : ∀ order ∈ restingOrders before.book.l3 side, order.price ≠ nullPrice) :
    AccountsFor side own aggressorId (filledQty acts) before after ctx.summaries := by
  have fillRests : ∀ fill ∈ fillsIn acts, fill.1 ∈ restingOrders before.book.l3 side :=
    fun fill member => performable.rests _ (mem_fillsIn member)
  have sums : ctx.Sums (fun id => (before.book.findOrder id).isSome) aggressorId (fillsIn acts) :=
    run.sums _ [] (fun fill member => ⟨rfl, real _ (fillRests fill member)⟩) (.start eventTime seqNum)
  have fillIds : ((fillsIn acts).map fun fill => fill.1.orderId).Nodup := by
    have sub := (fillsIn_items acts).map BookOrder.orderId
    rw [List.map_map, List.map_map] at sub
    exact sub.nodup performable.distinct
  have legQty : ∀ summary ∈ ctx.summaries, ∀ leg ∈ summary.legs, 0 < leg.qty := by
    intro summary member leg isLeg
    obtain ⟨fill, inside, -, -, sameQty⟩ := sums.leg_fill member isLeg
    rw [← sameQty]
    exact (performable.fills _ _ (mem_fillsIn inside)).2.1
  refine ⟨?_, sums.worsening ranked, ?_, ?_, ?_, ?_⟩
  · intro summary member
    have balanced := sums.balanced summary member
    have nonneg : ∀ qty ∈ summary.legs.map Trade.qty, 0 ≤ qty := by
      intro qty inside
      obtain ⟨leg, isLeg, rfl⟩ := List.mem_map.mp inside
      exact (legQty summary member leg isLeg).le
    have part : ((summary.legs.filter fun leg => !(before.book.findOrder leg.orderId).isSome).map Trade.qty).Sublist
        (summary.legs.map Trade.qty) := List.filter_sublist.map _
    refine ⟨balanced, ?_, ?_, ?_⟩
    · rw [balanced.numOrders, balanced.trades, List.length_cons]
      have := List.length_pos_of_ne_nil balanced.some
      omega
    · rw [balanced.phantomQty]
      exact List.sum_nonneg fun qty inside => nonneg qty (part.subset inside)
    · rw [balanced.phantomQty, balanced.qty]
      exact part.sum_le_sum nonneg
  · intro summary member leg isLeg
    obtain ⟨fill, inside, sameId, samePrice, sameQty⟩ := sums.leg_fill member isLeg
    exact ⟨legQty summary member leg isLeg, fill.1, fillRests fill inside, sameId, samePrice⟩
  · rw [sums.legIds]
    exact fillIds
  · intro order member foreign
    have named : namedQty ctx.summaries order.orderId =
        (((fillsIn acts).filter fun fill => decide (fill.1.orderId = order.orderId)).map Prod.snd).sum := by
      unfold namedQty
      rw [sums.legs, List.filter_map, List.map_map]
      rfl
    unfold MatchState.restingQty
    rw [named, run.entry start performable member]
    have distinct := OrderBookL3.restingOrders_distinct before.book.l3 side
    by_cases acted : ∃ act ∈ acts, order.orderId = act.item.orderId
    · obtain ⟨act, inside, sameId⟩ := acted
      obtain rfl := eq_of_key distinct (performable.rests act inside) member sameId.symm
      rw [leftBy_of_mem performable.distinct inside rfl]
      cases act with
      | fill order qty =>
          have filled : (order, qty) ∈ fillsIn acts := List.mem_filterMap.mpr ⟨_, inside, rfl⟩
          rw [show Act.item (.fill order qty) = order from rfl,
            show (fillsIn acts).filter (fun fill => decide (fill.1.orderId = order.orderId)) = _ from
              filter_key fillIds filled, leftOf]
          split
          · rename_i whole
            simp [whole]
          · simp [BookOrder.reduce]
      | withdraw order =>
          have mine := performable.withdraws order inside
          rw [show own order.orderId = false from foreign] at mine
          cases mine
    · rw [leftBy_of_absent fun act inside sameId => acted ⟨act, inside, sameId⟩, List.filter_eq_nil_iff.mpr]
      · exact (Int.sub_zero _).symm
      · intro fill inside same
        exact acted ⟨_, mem_fillsIn inside, (of_decide_eq_true same).symm⟩
  · rw [sums.total, sum_fillsIn]

end Run

/-! ## Match calls -/

section Match

variable {β : Type} [OrderBookL3 β] {side : BookSide} {own : Nat → Bool} {aggressorId ref : Nat}
  {executed limit qty leaves : Int} {summaries : List TradeSummaryInfo} {state before after reported : MatchState β}

private theorem AccountsFor.nothing (same : after.book.l3 = before.book.l3) (none : executed = 0) :
    AccountsFor side own aggressorId executed before after [] := by
  refine ⟨by rintro _ ⟨⟩, .nil, by rintro _ ⟨⟩, .nil, ?_, none.symm⟩
  intro order member _
  have rests : after.ledger.entry order.orderId = some order := by
    show OrderBookL3.findOrder after.book.l3 order.orderId = some order
    rw [same]
    exact OrderBookL3.findOrder_of_mem member
  rw [MatchState.restingQty, rests]
  exact (Int.sub_zero _).symm

private theorem AccountsFor.congr (accounts : AccountsFor side own aggressorId executed before after summaries)
    (l3 : state.book.l3 = before.book.l3) (orders : state.book.orders = before.book.orders)
    (l3After : reported.book.l3 = after.book.l3) :
    AccountsFor side own aggressorId executed state reported summaries where
  balanced := by
    unfold OrderBook.findOrder
    rw [orders]
    exact accounts.balanced
  worsening := accounts.worsening
  named := by
    rw [l3]
    exact accounts.named
  distinct := accounts.distinct
  gave := by
    intro order member foreign
    rw [l3] at member
    refine Eq.trans ?_ (accounts.gave order member foreign)
    unfold MatchState.restingQty
    rw [show reported.ledger.entry order.orderId = OrderBookL3.findOrder reported.book.l3 order.orderId from rfl,
      l3After]
    rfl
  executed := accounts.executed

private theorem matchOrder_idle (engine : MatchingEngine) (env : Environment) (requestTime eventTime : Nat)
    (smpMode : SelfMatchPreventionMode) (incoming : Incoming state ref limit qty leaves)
    (idle : (smpMode = .cancelNewest ∧
        (engine.orderPlan state ref limit leaves smpMode).any Act.isWithdraw = true) ∨
      MatchingEngine.CannotFill state.book smpMode (state.order ref) limit qty ∨ leaves ≤ 0) :
    let matched := engine.matchOrder env ref limit qty requestTime eventTime 0 smpMode state
    matched.2.1 = [] ∧ matched.2.2.book.l3 = state.book.l3 ∧
      (matched.2.2.order ref).cumQuantity = (state.order ref).cumQuantity := by
  intro matched
  have isMatched : matched = _ := engine.matchOrder_planned env requestTime eventTime smpMode incoming
  rw [isMatched]
  unfold MatchingEngine.planned
  dsimp only
  split
  · exact ⟨rfl, rfl, rfl⟩
  rename_i clear
  split
  · exact ⟨rfl, MatchState.present_l3, MatchState.present_cum⟩
  rename_i fillable
  split
  · exact ⟨rfl, MatchState.present_l3, MatchState.present_cum⟩
  have done : leaves ≤ 0 := (idle.resolve_left clear).resolve_left fillable
  rw [show engine.orderPlan state ref limit leaves smpMode = [] from sweep_of_nonpos done]
  refine ⟨rfl, ?_, ?_⟩
  · rw [MatchState.cancelUnrestableRemainder_book]
    exact MatchState.present_l3
  · unfold MatchState.order
    rw [MatchState.cancelUnrestableRemainder_book]
    exact MatchState.present_cum

end Match

variable {β : Type} [OrderBookL3 β]

/-- The summaries of a match call account for every fill: for an order that comes in, whatever the
engine and its self-match prevention, and for an aggressor from the feed. -/
theorem summaries_account (env : Environment) (engine : MatchingEngine) (state : MatchState β)
    (real : ∀ side, ∀ order ∈ restingOrders state.book.l3 side, order.price ≠ nullPrice) :
    (∀ ref limit qty leaves requestTime eventTime smpMode, Incoming state ref limit qty leaves →
      let matched := engine.matchOrder env ref limit qty requestTime eventTime 0 smpMode state
      AccountsFor (sweptSide (state.order ref).side) (state.book.ownOrders smpMode (state.order ref))
        (state.order ref).id ((matched.2.2.order ref).cumQuantity - (state.order ref).cumQuantity) state matched.2.2
        matched.2.1) ∧
    (state.ledger.Represents .none → ∀ side orderId price qty eventTime seqNum,
      let matched := engine.matchFeed env side orderId price qty eventTime seqNum state
      AccountsFor (sweptSide side) (fun _ => false) orderId (qty - matched.1) state matched.2.2 matched.2.1) := by
  constructor
  · intro ref limit qty leaves requestTime eventTime smpMode incoming
    dsimp only
    by_cases idle : (smpMode = .cancelNewest ∧
        (engine.orderPlan state ref limit leaves smpMode).any Act.isWithdraw = true) ∨
      MatchingEngine.CannotFill state.book smpMode (state.order ref) limit qty ∨ leaves ≤ 0
    · obtain ⟨none, l3, cum⟩ := matchOrder_idle engine env requestTime eventTime smpMode incoming idle
      rw [none, cum]
      exact .nothing l3 (Int.sub_self _)
    · rw [not_or, not_or] at idle
      obtain ⟨clear, fillable, more⟩ := idle
      obtain ⟨hand, ctx, after, shown, matched, -, executed, run⟩ := engine.matchOrder_performs env requestTime
        eventTime incoming (fun newest => by
          rw [← Bool.not_eq_true]
          exact fun withdraws => clear ⟨newest, withdraws⟩) fillable (not_le.mp more)
      obtain ⟨_, ready⟩ := MatchingEngine.incoming_sweepable incoming
      have ranked : (fillsIn (engine.orderPlan state ref limit leaves smpMode)).Pairwise _ :=
        plan_ranked engine _ leaves (OrderBookL3.ranked state.book.l3 (sweptSide (state.order ref).side))
          fun order member => ready.inv.agrees.positive (MatchState.entry_of_mem member)
      have accounts := run.accountsFor shown.ready (engine.orderPlan_performable shown) ranked
        (shown.l3 ▸ real _)
      rw [matched]
      have book := after.cancelUnrestableRemainder_book env ref
        (leaves - filledQty (engine.orderPlan state ref limit leaves smpMode)) requestTime
      have executedIs : ((after.cancelUnrestableRemainder env ref
          (leaves - filledQty (engine.orderPlan state ref limit leaves smpMode)) requestTime).order ref).cumQuantity -
          (state.order ref).cumQuantity = filledQty (engine.orderPlan state ref limit leaves smpMode) := by
        unfold MatchState.order at executed ⊢
        rw [book, executed]
        omega
      rw [executedIs]
      exact accounts.congr shown.l3.symm MatchState.present_orders.symm (congrArg OrderBook.l3 book)
  · intro inv side orderId price qty eventTime seqNum
    dsimp only
    by_cases stale : Regresses state.book.l3 seqNum
    · obtain ⟨remaining, none, l3⟩ := engine.matchFeed_stale env inv side orderId price qty eventTime stale
      rw [none, remaining]
      exact .nothing l3 (Int.sub_self _)
    · obtain ⟨ctx, after, matched, run⟩ := engine.matchFeed_run env inv side orderId price qty eventTime seqNum stale
      have ready : state.Sweepable .none (sweptSide side) seqNum := ⟨inv, stale, fun _ _ _ => by rintro ⟨⟩⟩
      rw [matched]
      have accounts := run.accountsFor ready (MatchingEngine.plan_performable engine (fun _ => false) price qty ready)
        (plan_ranked engine _ qty (OrderBookL3.ranked _ _) fun order member =>
          inv.agrees.positive (MatchState.entry_of_mem member)) (real _)
      convert accounts using 1
      omega

/-- An offer of a client's behind the venue's at one price, and the venue's at the next: an order that
takes from all three, and a trade from the feed. -/
theorem summaries_account_twoPrices :
    let env : Environment := .counted fun _ => default
    let exchange := (Exchange.new (fun _ => default) true : Exchange ReferenceBook).run env (.reference .none)
      [.l2Snapshot ⟨1, [], [⟨100, 3⟩, ⟨101, 3⟩]⟩, .limit 1 .sell 100 4]
    let state := (exchange.acceptOrder env (.reference .none) Input.header
      (buyMessage .goodTillCancel 101 8)).matching
    let ref := env.pool exchange.book.live
    let matched := MatchingEngine.fifo.matchOrder env ref 101 8 0 0 0 .none state
    let printed := MatchingEngine.fifo.matchFeed env .buy 9 100 5 0 0 exchange.matching
    (matched.2.1.map TradeSummaryInfo.qty = [7, 1] ∧ matched.2.1.map TradeSummaryInfo.phantomQty = [3, 1]) ∧
      AccountsFor (sweptSide (state.order ref).side) (state.book.ownOrders .none (state.order ref))
        (state.order ref).id ((matched.2.2.order ref).cumQuantity - (state.order ref).cumQuantity) state matched.2.2
        matched.2.1 ∧
      AccountsFor (sweptSide .buy) (fun _ => false) 9 (5 - printed.1) exchange.matching printed.2.2 printed.2.1 := by
  intro env exchange state ref
  have start : Exchange.Reachable env (.reference .none) (fun _ _ => True) (Exchange.new (fun _ => default) true :
      Exchange ReferenceBook) := .new _ _
  have reachable : Exchange.Reachable env (.reference .none) (fun _ _ => True) exchange :=
    start.run (by decide +kernel)
  have incoming : Incoming state ref 101 8 8 :=
    Exchange.incoming_accepted reachable.represents.1 (by decide +kernel) (by decide +kernel)
  have real : ∀ side, ∀ order ∈ restingOrders state.book.l3 side, order.price ≠ nullPrice := by
    rintro (_ | _) <;> decide +kernel
  have realBefore : ∀ side, ∀ order ∈ restingOrders exchange.matching.book.l3 side, order.price ≠ nullPrice := by
    rintro (_ | _) <;> decide +kernel
  exact ⟨by decide +kernel, (summaries_account env .fifo state real).1 ref 101 8 8 0 0 .none incoming,
    (summaries_account env .fifo exchange.matching realBefore).2 reachable.represents.1 .buy 9 100 5 0 0⟩

end SlickSim
