import SlickSim.Ledger.FifoFills
import SlickSim.Ledger.Reachable
import SlickSim.OrderBook.Reference

/-!
# FIFO matches by price and time

What a FIFO match fills is the front part of the other side's queue, best level first,
within the limit and up to the quantity there is to trade. Only a fill-or-kill order that
this does not cover fills nothing.
-/

set_option autoImplicit false

namespace SlickSim

open Serving
open OrderBookL3 (Regresses restingOrders)
open MatchingEngine (CannotFill LoopStart sweptSide amendedQty)

/-- What a queue offers within a limit. -/
def qtyWithinLimit (side : BookSide) (limit : Int) (orders : List BookOrder) : Int :=
  ((withinLimit side limit orders).map BookOrder.quantity).sum

theorem qtyWithinLimit_nonneg {side : BookSide} {limit : Int} {orders : List BookOrder}
    (positive : ∀ resting ∈ orders, 0 < resting.quantity) : 0 ≤ qtyWithinLimit side limit orders := by
  apply List.sum_nonneg
  intro qty member
  obtain ⟨resting, inside, rfl⟩ := List.mem_map.mp member
  exact (positive resting (List.takeWhile_subset _ inside)).le

/-! ## The fill-or-kill check -/

namespace OrderBook

variable {β : Type} {book : OrderBook β} {order : Order} {side : BookSide} {limit : Int}

/-- Without self-match prevention one level counts up to what is asked. -/
private theorem countLevel_none {orders : List BookOrder} {remaining : Int}
    (positive : ∀ resting ∈ orders, 0 < resting.quantity) (more : 0 < remaining) :
    book.countLevel .none order orders remaining =
      if remaining ≤ (orders.map BookOrder.quantity).sum then .error true
      else .ok (remaining - (orders.map BookOrder.quantity).sum) := by
  induction orders generalizing remaining with
  | nil =>
      rw [if_neg (show ¬ remaining ≤ ([].map BookOrder.quantity).sum from not_le.mpr more)]
      exact congrArg Except.ok (sub_zero remaining).symm
  | cons front rest ih =>
      have size := positive front List.mem_cons_self
      have others : ∀ resting ∈ rest, 0 < resting.quantity :=
        fun resting member => positive resting (List.mem_cons_of_mem _ member)
      have restNonneg : 0 ≤ (rest.map BookOrder.quantity).sum := by
        apply List.sum_nonneg
        intro qty member
        obtain ⟨resting, inside, rfl⟩ := List.mem_map.mp member
        exact (others resting inside).le
      unfold countLevel
      rw [if_neg (fun both => both.1 rfl), List.map_cons, List.sum_cons]
      dsimp only
      by_cases covered : remaining ≤ front.quantity
      · rw [if_pos (by omega), if_pos (by omega)]
      · rw [if_neg (by omega), ih others (by omega), Int.min_eq_left (by omega)]
        split <;> rename_i enough
        · rw [if_pos (by omega)]
        · rw [if_neg (by omega)]
          exact congrArg Except.ok (by omega)

private theorem countLevels_none {levels : List PriceLevelL3} {remaining : Int}
    (filled : ∀ level ∈ levels, level.orders ≠ [])
    (prices : ∀ level ∈ levels, ∀ resting ∈ level.orders, resting.price = level.price)
    (positive : ∀ level ∈ levels, ∀ resting ∈ level.orders, 0 < resting.quantity)
    (more : 0 < remaining) :
    book.countLevels side .none order limit levels remaining =
      decide (remaining ≤ qtyWithinLimit side limit (levels.flatMap PriceLevelL3.orders)) := by
  induction levels generalizing remaining with
  | nil =>
      show decide (remaining = 0) = decide (remaining ≤ 0)
      exact decide_eq_decide.mpr ⟨by omega, by omega⟩
  | cons level rest ih =>
      unfold countLevels
      rw [List.flatMap_cons]
      cases beyond : beyondLimit side level.price limit with
      | true =>
          obtain ⟨front, queue, isQueue⟩ := List.exists_cons_of_ne_nil (filled level List.mem_cons_self)
          have stops : beyondLimit side front.price limit = true := by
            rw [prices level List.mem_cons_self front (by rw [isQueue]; exact List.mem_cons_self)]
            exact beyond
          have nothing : qtyWithinLimit side limit (level.orders ++ rest.flatMap PriceLevelL3.orders) = 0 := by
            unfold qtyWithinLimit withinLimit
            rw [isQueue, List.cons_append, List.takeWhile_cons_of_neg (by simp [stops])]
            rfl
          rw [nothing]
          exact decide_eq_decide.mpr ⟨by omega, by omega⟩
      | false =>
          have all : ∀ resting ∈ level.orders, (!beyondLimit side resting.price limit) = true := by
            intro resting member
            rw [prices level List.mem_cons_self resting member, beyond]
            rfl
          have whole : qtyWithinLimit side limit (level.orders ++ rest.flatMap PriceLevelL3.orders) =
              (level.orders.map BookOrder.quantity).sum +
                qtyWithinLimit side limit (rest.flatMap PriceLevelL3.orders) := by
            unfold qtyWithinLimit withinLimit
            rw [List.takeWhile_append_of_pos all, List.map_append, List.sum_append]
          have others : ∀ left, 0 < left → book.countLevels side .none order limit rest left =
              decide (left ≤ qtyWithinLimit side limit (rest.flatMap PriceLevelL3.orders)) :=
            fun _ left => ih (fun other member => filled other (List.mem_cons_of_mem _ member))
              (fun other member => prices other (List.mem_cons_of_mem _ member))
              (fun other member => positive other (List.mem_cons_of_mem _ member)) left
          have later : 0 ≤ qtyWithinLimit side limit (rest.flatMap PriceLevelL3.orders) := by
            apply qtyWithinLimit_nonneg
            intro resting member
            obtain ⟨other, inside, member⟩ := List.mem_flatMap.mp member
            exact positive other (List.mem_cons_of_mem _ inside) resting member
          rw [whole, if_neg (by decide), countLevel_none (positive level List.mem_cons_self) more]
          split <;> rename_i answer left step
          · -- This level covers what is asked.
            split at step <;> rename_i enough
            · rw [← Except.error.inj step]
              exact (decide_eq_true (by omega)).symm
            · cases step
          · split at step <;> rename_i enough
            · cases step
            · rw [← Except.ok.inj step, others _ (by omega)]
              exact decide_eq_decide.mpr ⟨by omega, by omega⟩

/-- Without self-match prevention the check asks whether the offer covers the quantity. -/
theorem canFillCompletely_none [OrderBookL3 β] {qty : Int} (more : 0 < qty)
    (positive : ∀ resting ∈ restingOrders book.l3 side, 0 < resting.quantity) :
    book.canFillCompletely side order limit qty .none =
      decide (qty ≤ qtyWithinLimit side limit (restingOrders book.l3 side)) := by
  unfold canFillCompletely OrderBookL3.getLevelsL3
  rw [countLevels_none, flatMap_priceLevels]
  · exact fun level member => (mem_priceLevels member).1
  · exact fun level member => (mem_priceLevels member).2.2
  · exact fun level member resting inside => positive resting ((mem_priceLevels member).2.1.subset inside)
  · exact more

end OrderBook

/-! ## Matches -/

variable {β : Type} [OrderBookL3 β]

/-- A match has followed price and time. -/
structure PriceTime (aggressor : Option Nat) (side : BookSide) (limit want : Int)
    (before after : MatchState β) (summaries : List TradeSummaryInfo) (fills : List (BookOrder × Int)) : Prop where
  serves : Serving.Serves BookOrder.quantity
    (withinLimit side limit (restingOrders before.book.l3 side)) want fills
  filled : MatchState.Filled aggressor side fills before after
  legs : (∀ fill ∈ fills, fill.1.price ≠ nullPrice) →
    tradeLegs summaries = fills.map fun fill => (fill.1.orderId, fill.1.price, fill.2)
  booked : ∀ resting ∈ restingOrders after.book.l3 side, ∀ owner,
    after.book.findOrder resting.orderId = some owner →
      (after.order owner).leavesQuantity = resting.quantity

section Match

variable {env : Environment} {hand : Hand} {side : BookSide} {ref requestTime seqNum : Nat}
  {limit qty leaves : Int} {aggressor : Option Nat} {state prepared after : MatchState β}
  {summaries : List TradeSummaryInfo} {fills : List (BookOrder × Int)}

/-- What a queue serves, it serves by price and time. -/
theorem fifoFills_serves (ready : state.Sweepable hand side seqNum) (nonneg : 0 ≤ qty) :
    Serving.Serves BookOrder.quantity (withinLimit side limit (restingOrders state.book.l3 side)) qty
      (fifoFills side limit (restingOrders state.book.l3 side) qty) := by
  refine serve_serves ?_ nonneg
  intro resting member
  exact ready.inv.agrees.positive (MatchState.entry_of_mem (List.takeWhile_subset _ member))

theorem PriceTime.nothing (ready : state.Sweepable hand side seqNum) (l3 : after.book.l3 = state.book.l3)
    (orders : after.book.orders = state.book.orders) (heap : after.book.heap = state.book.heap)
    (trades : after.trades = state.trades) : PriceTime aggressor side limit 0 state after [] [] where
  serves := by
    have served : Serving.Serves _ (withinLimit side limit _) 0 _ := fifoFills_serves ready le_rfl
    rwa [show fifoFills side limit (restingOrders state.book.l3 side) 0 = [] from serve_of_nonpos le_rfl]
      at served
  filled := MatchState.Filled.nil.congr rfl rfl rfl l3 trades
  legs := fun _ => rfl
  booked := by
    intro resting member owner ours
    rw [l3] at member
    unfold OrderBook.findOrder at ours
    rw [orders] at ours
    show (after.book.heap owner).leavesQuantity = _
    rw [heap]
    exact ready.booked member ours

omit [OrderBookL3 β] in
theorem cancelUnrestableRemainder_same (state : MatchState β) (remaining : Int) :
    let after := state.cancelUnrestableRemainder env ref remaining requestTime
    after.book = state.book ∧ after.trades = state.trades := by
  unfold MatchState.cancelUnrestableRemainder
  dsimp only
  split
  · exact ⟨rfl, (state.publish_trades env _).trans (List.append_nil _)⟩
  · exact ⟨rfl, rfl⟩

theorem LoopStart.priceTime
    (start : LoopStart .fifo env hand ref limit qty requestTime .none state prepared)
    (orders : prepared.book.orders = state.book.orders) (trades : prepared.trades = state.trades)
    (id : (prepared.order ref).id = (state.order ref).id) (eventTime : Nat) :
    ∃ summaries after fills, MatchingEngine.fifo.matchOrder env ref limit qty requestTime eventTime 0 .none state =
        (.none, summaries, after) ∧
      PriceTime (some (state.order ref).id) (sweptSide (state.order ref).side) limit
        (prepared.order ref).leavesQuantity state after summaries fills ∧
      (after.order ref).leavesQuantity = (prepared.order ref).leavesQuantity - (fills.map Prod.snd).sum := by
  let side := sweptSide (state.order ref).side
  obtain ⟨matched, delivers, left, -⟩ := start.matchOrder_eq MatchState.matchKeeps_trivial eventTime trivial
  let result := MatchingEngine.fifo.matchLoop env side ref limit requestTime .none (.start eventTime 0)
    (prepared.order ref).leavesQuantity prepared
  let after := result.state.cancelUnrestableRemainder env ref result.remaining requestTime
  have served : Fifo.Serves (some (prepared.order ref).id) side limit (.start eventTime 0)
      (prepared.order ref).leavesQuantity prepared result :=
    Fifo.matchLoop_fifo start.held _ (.start eventTime 0) _ prepared rfl start.ready rfl
      (fun _ => Nat.lt_succ_self _)
  have ready : result.state.Sweepable hand side 0 := start.ready.sweeps delivers.sweeps delivers.current
  obtain ⟨sameBook, sameTrades⟩ : after.book = result.state.book ∧ after.trades = result.state.trades :=
    cancelUnrestableRemainder_same ..
  refine ⟨_, after, fifoFills side limit (restingOrders prepared.book.l3 side) (prepared.order ref).leavesQuantity,
    matched, ⟨?_, ?_, ?_, ?_⟩, ?_⟩
  · rw [← start.l3]
    exact fifoFills_serves start.ready start.positive.le
  · rw [← id]
    exact served.filled.congr start.l3.symm trades.symm orders.symm (congrArg OrderBook.l3 sameBook) sameTrades
  · intro real
    exact (served.gains rfl real).2
  · intro resting member owner ours
    rw [sameBook] at member ours
    show (after.book.heap owner).leavesQuantity = _
    rw [sameBook]
    exact ready.booked member ours
  · show (after.book.heap ref).leavesQuantity = _
    rw [sameBook, ← served.remaining]
    exact left

private theorem incoming_priceTime (incoming : Incoming state ref limit qty leaves) (more : 0 < leaves)
    (eventTime : Nat) :
    ∃ reason summaries after fills,
      MatchingEngine.fifo.matchOrder env ref limit qty requestTime eventTime 0 .none state =
        (reason, summaries, after) ∧
      PriceTime (some (state.order ref).id) (sweptSide (state.order ref).side) limit
        (if (state.order ref).timeInForce = .fillOrKill ∧ qtyWithinLimit (sweptSide (state.order ref).side) limit
          (restingOrders state.book.l3 (sweptSide (state.order ref).side)) < qty then 0 else leaves)
        state after summaries fills ∧
      (after.order ref).leavesQuantity = leaves - (fills.map Prod.snd).sum := by
  have goesOn : ∀ order price qty, ¬ MatchingEngine.fifo.Refuses state.book .none order price qty :=
    fun _ _ _ refused => by cases refused.1
  cases incoming with
  | new inv isNew =>
      let acked := state.publishOrderAck env ref requestTime
      have whole := (inv.agrees.at_ ref).whole rfl
      have filled := (inv.agrees.at_ ref).filled_nonneg (.inr rfl)
      change (state.order ref).quantity = (state.order ref).leavesQuantity + (state.order ref).cumQuantity at whole
      change 0 ≤ (state.order ref).cumQuantity at filled
      have ready : state.Sweepable (.pending ref) (sweptSide (state.order ref).side) 0 :=
        MatchingEngine.sweepable_of_hand inv (.inl rfl) (fun stale => stale.1.false)
      have ackedTrades : acked.trades = state.trades :=
        (state.publish_trades env _).trans (List.append_nil _)
      have checks : CannotFill state.book .none (state.order ref) (state.order ref).price
            (state.order ref).quantity ↔
          (state.order ref).timeInForce = .fillOrKill ∧ qtyWithinLimit (sweptSide (state.order ref).side)
            (state.order ref).price (restingOrders state.book.l3 (sweptSide (state.order ref).side)) <
              (state.order ref).quantity := by
        unfold CannotFill
        rw [OrderBook.canFillCompletely_none (by omega)
          fun resting member => inv.agrees.positive (MatchState.entry_of_mem member)]
        rw [decide_eq_false_iff_not, not_le]
      by_cases cannot : CannotFill state.book .none (state.order ref) (state.order ref).price
        (state.order ref).quantity
      · obtain ⟨reason, matched, -⟩ := MatchingEngine.matchOrder_new_done .fifo env requestTime .none eventTime
          isNew (goesOn _ _ _) (.inl cannot)
        refine ⟨reason, [], _, [], matched, ?_, (sub_zero _).symm⟩
        rw [if_pos (checks.mp cannot)]
        exact .nothing ready rfl rfl rfl
          (((acked.publish_trades env _).trans (List.append_nil _)).trans ackedTrades)
      · have start := MatchingEngine.loopStart_new .fifo env requestTime .none inv isNew (goesOn _ _ _) cannot more
        obtain ⟨summaries, after, fills, matched, priceTime, left⟩ :=
          LoopStart.priceTime start rfl ackedTrades rfl eventTime
        rw [if_neg fun short => cannot (checks.mpr short)]
        exact ⟨_, summaries, after, fills, matched, priceTime, left⟩
  | amended inv isAmend =>
      let replaced := state.replaceOrder env ref limit qty requestTime
      have start : LoopStart .fifo env (.amended ref) ref limit qty requestTime .none state replaced :=
        MatchingEngine.loopStart_amend .fifo env requestTime .none inv isAmend (goesOn _ _ _) more
      have leavesIs : (replaced.order ref).leavesQuantity = amendedQty (state.order ref) qty :=
        MatchingEngine.replaceOrder_leaves env requestTime inv
      have sameId : (replaced.order ref).id = (state.order ref).id := by
        rw [MatchState.replaceOrder_order]
        rfl
      obtain ⟨summaries, after, fills, matched, priceTime, left⟩ := LoopStart.priceTime start rfl
        ((MatchState.publish_trades _ env _).trans (List.append_nil _)) sameId eventTime
      rw [leavesIs] at priceTime left
      rw [if_neg fun short => MatchingEngine.not_fillOrKill_of_amending inv short.1]
      exact ⟨_, summaries, after, fills, matched, priceTime, left⟩

private theorem feed_priceTime (inv : state.ledger.Represents .none) (aggressorSide : Side) (orderId : Nat)
    (price qty : Int) (eventTime seqNum : Nat) :
    ∃ left summaries after fills,
      MatchingEngine.fifo.matchFeed env aggressorSide orderId price qty eventTime seqNum state =
        (left, summaries, after) ∧
      PriceTime none (sweptSide aggressorSide) price (if Regresses state.book.l3 seqNum then 0 else max 0 qty)
        state after summaries fills ∧ left = qty - (fills.map Prod.snd).sum := by
  let side := sweptSide aggressorSide
  have sweepable : ∀ {seqNum}, ¬ Regresses state.book.l3 seqNum → state.Sweepable .none side seqNum :=
    fun current => ⟨inv, current, fun _ _ _ => by rintro ⟨⟩⟩
  let result := Fifo.feedLoop env side orderId price (state.sweepFuel side) (.start eventTime seqNum) qty state
  refine ⟨result.remaining, result.ctx.summaries, result.state, ?_⟩
  by_cases stale : Regresses state.book.l3 seqNum
  · rw [if_pos stale]
    obtain ⟨left, sameCtx, isAfter⟩ : result.remaining = qty ∧ result.ctx = .start eventTime seqNum ∧ _ :=
      Fifo.feedLoop_stale orderId (.start eventTime seqNum) qty state stale _
    refine ⟨[], rfl, ?_, left.trans (sub_zero _).symm⟩
    rw [sameCtx]
    have ready : state.Sweepable .none side 0 := sweepable fun regresses => regresses.1.false
    rcases isAfter with same | same <;> rw [same] <;> exact .nothing ready rfl rfl rfl rfl
  · rw [if_neg stale]
    have ready := sweepable stale
    have served : Fifo.Serves none side price (.start eventTime seqNum) qty state result :=
      Fifo.feedLoop_fifo orderId _ (.start eventTime seqNum) qty state rfl ready (fun _ => Nat.lt_succ_self _)
    have delivers : result.Delivers env .none side price (fun _ => false) seqNum state qty :=
      (Fifo.feedLoop_delivers MatchState.feedKeeps_trivial orderId (state.sweepFuel side) (.start eventTime seqNum)
        qty state rfl ready (fun _ => Nat.lt_succ_self _) trivial).1
    have readyAfter : result.state.Sweepable .none side seqNum := ready.sweeps delivers.sweeps delivers.current
    have asked : fifoFills side price (restingOrders state.book.l3 side) qty =
        fifoFills side price (restingOrders state.book.l3 side) (max 0 qty) := by
      by_cases nonneg : 0 ≤ qty
      · rw [max_eq_right nonneg]
      · rw [fifoFills, fifoFills, serve_of_nonpos (by omega), serve_of_nonpos (by omega)]
    refine ⟨fifoFills side price (restingOrders state.book.l3 side) qty, rfl, ⟨?_, served.filled, ?_, ?_⟩,
      served.remaining⟩
    · rw [asked]
      exact fifoFills_serves ready (le_max_left ..)
    · intro real
      exact (served.gains rfl real).2
    · exact fun resting member owner ours => readyAfter.booked member ours

/-- FIFO matches by price and time: a client order, new or amended, fills the front part of
the queue that its limit and its quantity reach, unless it is a fill-or-kill order that this
does not cover, and an aggressor from the feed does the same unless the book has moved on. -/
theorem fifo_priceTime (env : Environment) (state : MatchState β) :
    (∀ ref limit qty leaves requestTime eventTime, Incoming state ref limit qty leaves → 0 < leaves →
      ∃ reason summaries after fills,
        MatchingEngine.fifo.matchOrder env ref limit qty requestTime eventTime 0 .none state =
          (reason, summaries, after) ∧
        PriceTime (some (state.order ref).id) (sweptSide (state.order ref).side) limit
          (if (state.order ref).timeInForce = .fillOrKill ∧
              qtyWithinLimit (sweptSide (state.order ref).side) limit
                (restingOrders state.book.l3 (sweptSide (state.order ref).side)) < qty
            then 0 else leaves)
          state after summaries fills ∧
        (after.order ref).leavesQuantity = leaves - (fills.map Prod.snd).sum) ∧
    (state.ledger.Represents .none → ∀ side orderId price qty eventTime seqNum,
      ∃ left summaries after fills,
        MatchingEngine.fifo.matchFeed env side orderId price qty eventTime seqNum state =
          (left, summaries, after) ∧
        PriceTime none (sweptSide side) price (if Regresses state.book.l3 seqNum then 0 else max 0 qty)
          state after summaries fills ∧
        left = qty - (fills.map Prod.snd).sum) :=
  ⟨fun _ _ _ _ _ eventTime incoming more => incoming_priceTime incoming more eventTime, feed_priceTime⟩

end Match

/-! ## A sweep and a killed order -/

/-- An order for more than the best level offers, and a trade from the feed for more than that level. -/
theorem fifo_priceTime_twoLevels :
    let env : Environment := .counted fun _ => default
    let config : SymbolConfig := .reference .none
    let exchange := (Exchange.new (fun _ => default) true : Exchange ReferenceBook).run env config
      [.limit 1 .sell 100 4, .limit 2 .sell 101 3]
    let state := (exchange.acceptOrder env config Input.header (buyMessage .goodTillCancel 101 6)).matching
    let ref := env.pool exchange.book.live
    (∃ reason summaries after fills,
      MatchingEngine.fifo.matchOrder env ref 101 6 0 0 0 .none state = (reason, summaries, after) ∧
      PriceTime (some 3) .sell 101 6 state after summaries fills ∧
      (after.order ref).leavesQuantity = 6 - (fills.map Prod.snd).sum) ∧
    ∃ left summaries after fills,
      MatchingEngine.fifo.matchFeed env .buy 9 100 5 0 0 exchange.matching = (left, summaries, after) ∧
      PriceTime none .sell 100 5 exchange.matching after summaries fills ∧
      left = 5 - (fills.map Prod.snd).sum := by
  intro env config exchange state ref
  have start : Exchange.Reachable env config (fun _ _ => True) (Exchange.new (fun _ => default) true :
      Exchange ReferenceBook) := .new _ _
  have reachable : Exchange.Reachable env config (fun _ _ => True) exchange := start.run (by decide +kernel)
  have incoming : Incoming state ref 101 6 6 :=
    Exchange.incoming_accepted reachable.represents.1 (by decide +kernel) (by decide +kernel)
  have isOrder : (state.order ref).id = 3 ∧ (state.order ref).side = .buy ∧
      (state.order ref).timeInForce = .goodTillCancel := by
    decide +kernel
  have matched := (fifo_priceTime env state).1 ref 101 6 6 0 0 incoming (by decide)
  have fed := (fifo_priceTime env exchange.matching).2 reachable.represents.1 .buy 9 100 5 0 0
  rw [isOrder.1, isOrder.2.1, isOrder.2.2, if_neg (by rintro ⟨⟨⟩, -⟩)] at matched
  rw [if_neg (fun stale => stale.1.false)] at fed
  exact ⟨matched, fed⟩

/-- A fill-or-kill order for more than is qtyWithinLimit fills nothing, although some of it crosses. -/
theorem not_priceTime_killed :
    let env : Environment := .counted fun _ => default
    let config : SymbolConfig := .reference .none
    let exchange := (Exchange.new (fun _ => default) true : Exchange ReferenceBook).run env config
      [.limit 1 .sell 100 4]
    let state := (exchange.acceptOrder env config Input.header (buyMessage .fillOrKill 100 5)).matching
    let ref := env.pool exchange.book.live
    Incoming state ref 100 5 5 ∧ ¬ ∃ reason summaries after fills,
      MatchingEngine.fifo.matchOrder env ref 100 5 0 0 0 .none state = (reason, summaries, after) ∧
      PriceTime (some 2) .sell 100 5 state after summaries fills := by
  intro env config exchange state ref
  have start : Exchange.Reachable env config (fun _ _ => True) (Exchange.new (fun _ => default) true :
      Exchange ReferenceBook) := .new _ _
  have reachable : Exchange.Reachable env config (fun _ _ => True) exchange := start.run (by decide +kernel)
  refine ⟨Exchange.incoming_accepted reachable.represents.1 (by decide +kernel) (by decide +kernel), ?_⟩
  rintro ⟨reason, summaries, after, fills, matched, priceTime⟩
  have untraded : (MatchingEngine.fifo.matchOrder env ref 100 5 0 0 0 .none state).2.2.trades = [] := by
    decide +kernel
  rw [matched] at untraded
  have told : [] = state.trades ++ fills.flatMap _ := untraded.symm.trans priceTime.filled.trades
  have total := priceTime.serves.total
  cases fills with
  | nil =>
      have offers : min 5 ((withinLimit .sell 100 (restingOrders state.book.l3 .sell)).map
          BookOrder.quantity).sum = 4 := by
        decide +kernel
      rw [offers] at total
      cases total
  | cons fill rest =>
      have silent := (List.append_eq_nil_iff.mp told.symm).2
      cases (List.append_eq_nil_iff.mp (List.append_eq_nil_iff.mp silent).1).1

end SlickSim
