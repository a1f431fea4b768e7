import SlickSim.Ledger.Plans

/-!
# The checks before a match

What `wouldSelfMatch` and `canFillCompletely` find out by walking the book is what the
plan of the match says.
-/

set_option autoImplicit false

namespace SlickSim

open Sweeping
open OrderBookL3 (Regresses restingOrders)

namespace OrderBook

variable {β : Type} {book : OrderBook β} {order : Order} {side : BookSide} {limit qty : Int}
  {own : Nat → Bool} {orders : List BookOrder} {engine : MatchingEngine} {level : PriceLevelL3}
  {levels : List PriceLevelL3}

/-! ## Self-matches -/

private theorem scanLevel_queue (qty : Int)
    (resolves : ∀ resting ∈ orders, isSelfMatch order (book.resolve resting.orderId) = own resting.orderId) :
    let acts := inOrder BookOrder.quantity (own ∘ BookOrder.orderId) orders qty
    (acts.any Act.isWithdraw = true → book.scanLevel .queue order orders qty = .error true) ∧
    (acts.any Act.isWithdraw = false →
      book.scanLevel .queue order orders qty = .ok (qty - filledQty acts) ∨
      book.scanLevel .queue order orders qty = .error false ∧ qty - filledQty acts ≤ 0) := by
  induction orders generalizing qty with
  | nil =>
      refine ⟨by rintro ⟨⟩, fun _ => .inl ?_⟩
      show _ = Except.ok (qty - 0)
      rw [Int.sub_zero]
      rfl
  | cons front rest ih =>
      unfold scanLevel
      dsimp only
      by_cases done : qty ≤ 0
      · rw [if_pos ⟨rfl, done⟩, inOrder_of_nonpos done]
        exact ⟨by rintro ⟨⟩, fun _ => .inr ⟨rfl, (Int.sub_zero qty).trans_le done⟩⟩
      have resolved : isSelfMatch order (book.resolve front.orderId) = (own ∘ BookOrder.orderId) front :=
        resolves front List.mem_cons_self
      rw [if_neg (fun both => done both.2), resolved]
      cases mine : (own ∘ BookOrder.orderId) front with
      | true =>
          rw [inOrder_own (not_le.mp done) mine, if_pos rfl]
          exact ⟨fun _ => rfl, by rintro ⟨⟩⟩
      | false =>
          have below := ih (qty - min front.quantity qty)
            fun resting member => resolves resting (List.mem_cons_of_mem _ member)
          rw [inOrder_foreign (not_le.mp done) mine, if_neg (by decide), if_pos rfl, min_comm]
          rw [filledQty_cons, ← Int.sub_sub]
          exact below

private theorem scanLevel_level (qty : Int)
    (resolves : ∀ resting ∈ orders, isSelfMatch order (book.resolve resting.orderId) = own resting.orderId) :
    book.scanLevel .level order orders qty =
      if orders.any (own ∘ BookOrder.orderId) then .error true else .ok qty := by
  induction orders with
  | nil => rfl
  | cons front rest ih =>
      have resolved : isSelfMatch order (book.resolve front.orderId) = (own ∘ BookOrder.orderId) front :=
        resolves front List.mem_cons_self
      unfold scanLevel
      rw [if_neg (by rintro ⟨⟨⟩, -⟩), resolved, List.any_cons]
      cases mine : (own ∘ BookOrder.orderId) front with
      | true => rfl
      | false => exact ih fun resting member => resolves resting (List.mem_cons_of_mem _ member)

/-- What the scan of one level says of what the engine does with the level. -/
private theorem scanLevel_splitLevel (engine : MatchingEngine) (more : 0 < qty)
    (positive : ∀ resting ∈ level.orders, 0 < resting.quantity)
    (resolves : ∀ resting ∈ level.orders,
      isSelfMatch order (book.resolve resting.orderId) = own resting.orderId) :
    let acts := engine.splitLevel own level.orders qty
    (acts.any Act.isWithdraw = true → book.scanLevel engine.reach order level.orders qty = .error true) ∧
    (acts.any Act.isWithdraw = false →
      (∃ left, book.scanLevel engine.reach order level.orders qty = .ok left ∧
        (if engine.reach = .level then left - min level.totalQuantity left else left) = qty - filledQty acts) ∨
      book.scanLevel engine.reach order level.orders qty = .error false ∧ qty - filledQty acts ≤ 0) := by
  cases engine with
  | fifo =>
      obtain ⟨met, clear⟩ := scanLevel_queue qty resolves
      refine ⟨met, fun none_met => ?_⟩
      rcases clear none_met with scanned | done
      · exact .inl ⟨_, scanned, rfl⟩
      · exact .inr done
  | proRata config =>
      have total := (MatchingEngine.splitLevel_splits (.proRata config) own).total positive more
      have met : (MatchingEngine.splitLevel (.proRata config) own level.orders qty).any Act.isWithdraw =
          level.orders.any (own ∘ BookOrder.orderId) := by
        show (_ ++ fillsOf _).any Act.isWithdraw = _
        rw [List.any_append, any_withdraws, any_fillsOf, Bool.or_false]
      dsimp only
      rw [met, show MatchingEngine.reach (.proRata config) = .level from rfl, scanLevel_level qty resolves, total]
      refine ⟨fun some_met => if_pos some_met, fun none_met => .inl ⟨qty, ?_, ?_⟩⟩
      · rw [if_neg (by rw [none_met]; decide)]
      · have foreign : ∀ resting ∈ level.orders, (own ∘ BookOrder.orderId) resting = false := by
          intro resting member
          rw [← Bool.not_eq_true]
          exact List.any_eq_false.mp none_met resting member
        rw [if_pos rfl, foreignQty_of_foreign foreign, min_comm]
        rfl

private theorem scanLevels_plan (engine : MatchingEngine)
    (positive : ∀ level ∈ levels, ∀ resting ∈ level.orders, 0 < resting.quantity)
    (resolves : ∀ level ∈ levels, ∀ resting ∈ level.orders,
      isSelfMatch order (book.resolve resting.orderId) = own resting.orderId) :
    book.scanLevels engine.reach side order limit levels qty =
      (sweep (engine.splitLevel own) ((levels.takeWhile fun level => !beyondLimit side level.price limit).map
        PriceLevelL3.orders) qty).any Act.isWithdraw := by
  induction levels generalizing qty with
  | nil => rfl
  | cons level rest ih =>
      obtain ⟨here, others⟩ := List.forall_mem_cons.mp positive
      obtain ⟨resolved, below⟩ := List.forall_mem_cons.mp resolves
      unfold scanLevels
      by_cases done : qty ≤ 0
      · rw [if_pos done, sweep_of_nonpos done]
        rfl
      rw [if_neg done]
      cases beyond : beyondLimit side level.price limit with
      | true =>
          rw [List.takeWhile_cons_of_neg (by rw [beyond]; decide)]
          rfl
      | false =>
          rw [List.takeWhile_cons_of_pos (by rw [beyond]; rfl), List.map_cons, sweep_cons (not_le.mp done),
            List.any_append, if_neg (by decide)]
          obtain ⟨met, clear⟩ := scanLevel_splitLevel engine (not_le.mp done) here resolved
          cases any : (engine.splitLevel own level.orders qty).any Act.isWithdraw with
          | true =>
              rw [met any]
              rfl
          | false =>
              rw [Bool.false_or]
              rcases clear any with ⟨left, scanned, next⟩ | ⟨scanned, spent⟩
              · rw [scanned]
                dsimp only
                rw [next]
                exact ih others below
              · rw [scanned, sweep_of_nonpos spent]
                rfl

/-! ## Fill or kill -/

section Count

variable {smpMode : SelfMatchPreventionMode}

/-- The answer of a count that a quantity's acts in order give. -/
private def covers (smpMode : SelfMatchPreventionMode) (acts : List (Act BookOrder)) (qty : Int) : Bool :=
  !(decide (smpMode = .cancelNewest) && acts.any Act.isWithdraw) && decide (qty ≤ filledQty acts)

private theorem countLevel_inOrder (more : 0 < qty) (positive : ∀ resting ∈ orders, 0 < resting.quantity)
    (mine : ∀ resting ∈ orders,
      (smpMode ≠ .none ∧ isSelfMatch order (book.resolve resting.orderId) = true) ↔ own resting.orderId = true) :
    let acts := inOrder BookOrder.quantity (own ∘ BookOrder.orderId) orders qty
    book.countLevel smpMode order orders qty =
      if smpMode = .cancelNewest ∧ acts.any Act.isWithdraw = true then .error false
      else if qty ≤ filledQty acts then .error true
      else .ok (qty - filledQty acts) := by
  induction orders generalizing qty with
  | nil =>
      show _ = if smpMode = .cancelNewest ∧ false = true then _ else if qty ≤ 0 then _ else _
      rw [if_neg (by rintro ⟨-, ⟨⟩⟩), if_neg (by omega)]
      show _ = Except.ok (qty - 0)
      rw [Int.sub_zero]
      rfl
  | cons front rest ih =>
      obtain ⟨size, others⟩ := List.forall_mem_cons.mp positive
      obtain ⟨here, elsewhere⟩ := List.forall_mem_cons.mp mine
      unfold countLevel
      cases isOwn : (own ∘ BookOrder.orderId) front with
      | true =>
          rw [inOrder_own more isOwn, if_pos (here.mpr isOwn)]
          by_cases newest : smpMode = .cancelNewest
          · rw [if_pos newest]
            exact (if_pos ⟨newest, rfl⟩).symm
          · have below := ih more others elsewhere
            simp only [newest, false_and, if_false] at below ⊢
            rw [below, filledQty_cons, show (Act.withdraw front).qty = 0 from rfl, Int.zero_add]
      | false =>
          have foreign : ¬ (smpMode ≠ .none ∧ isSelfMatch order (book.resolve front.orderId) = true) := by
            rw [here]
            exact Bool.eq_false_iff.mp isOwn
          rw [inOrder_foreign more isOwn, if_neg foreign]
          dsimp only
          rw [min_comm front.quantity, List.any_cons, filledQty_cons,
            show (Act.fill front (min qty front.quantity)).isWithdraw = false from rfl, Bool.false_or,
            show (Act.fill front (min qty front.quantity)).qty = min qty front.quantity from rfl, ← Int.sub_sub]
          by_cases covered : qty - min qty front.quantity = 0
          · rw [if_pos covered, covered, inOrder_of_nonpos le_rfl, filledQty_nil,
              if_neg (by rintro ⟨-, ⟨⟩⟩), if_pos (by omega)]
          · have below := ih (show 0 < qty - min qty front.quantity by omega) others elsewhere
            dsimp only at below
            rw [if_neg covered, below]
            congr 1
            exact if_congr (by omega) rfl rfl

private theorem countLevels_sweep (more : 0 < qty)
    (positive : ∀ level ∈ levels, ∀ resting ∈ level.orders, 0 < resting.quantity)
    (mine : ∀ level ∈ levels, ∀ resting ∈ level.orders,
      (smpMode ≠ .none ∧ isSelfMatch order (book.resolve resting.orderId) = true) ↔ own resting.orderId = true) :
    book.countLevels side smpMode order limit levels qty =
      covers smpMode (sweep (inOrder BookOrder.quantity (own ∘ BookOrder.orderId))
        ((levels.takeWhile fun level => !beyondLimit side level.price limit).map PriceLevelL3.orders) qty) qty := by
  have uncovered : ∀ {qty : Int}, 0 < qty → decide (qty = 0) = covers smpMode [] qty := by
    intro qty more
    show _ = (!(decide (smpMode = .cancelNewest) && false) && decide (qty ≤ 0))
    rw [Bool.and_false, decide_eq_false (by omega), decide_eq_false (by omega)]
    rfl
  induction levels generalizing qty with
  | nil => exact uncovered more
  | cons level rest ih =>
      obtain ⟨here, others⟩ := List.forall_mem_cons.mp positive
      obtain ⟨mineHere, mineBelow⟩ := List.forall_mem_cons.mp mine
      unfold countLevels
      cases beyond : beyondLimit side level.price limit with
      | true =>
          rw [if_pos rfl, List.takeWhile_cons_of_neg (by rw [beyond]; decide)]
          exact uncovered more
      | false =>
          rw [List.takeWhile_cons_of_pos (by rw [beyond]; rfl), List.map_cons, sweep_cons more,
            if_neg (by decide), countLevel_inOrder more here mineHere]
          generalize inOrder BookOrder.quantity (own ∘ BookOrder.orderId) level.orders qty = acts
          unfold covers
          rw [List.any_append, filledQty_append]
          by_cases met : smpMode = .cancelNewest ∧ acts.any Act.isWithdraw = true
          · rw [if_pos met, met.1, met.2]
            rfl
          rw [if_neg met]
          have unmet : (decide (smpMode = .cancelNewest) && acts.any Act.isWithdraw) = false := by
            rw [← Bool.not_eq_true, Bool.and_eq_true, decide_eq_true_eq]
            exact met
          by_cases covered : qty ≤ filledQty acts
          · rw [if_pos covered, sweep_of_nonpos (by omega), List.any_nil, Bool.or_false, unmet, filledQty_nil,
              Int.add_zero, decide_eq_true covered]
            rfl
          · rw [if_neg covered]
            dsimp only
            rw [ih (by omega) others mineBelow, covers, Bool.and_or_distrib_left, unmet, Bool.false_or]
            congr 1
            exact decide_eq_decide.mpr ⟨by omega, by omega⟩

end Count

variable [OrderBookL3 β]

/-- `wouldSelfMatch` answers whether the plan of the match withdraws an order. -/
theorem wouldSelfMatch_plan (engine : MatchingEngine)
    (positive : ∀ resting ∈ restingOrders book.l3 side, 0 < resting.quantity)
    (resolves : ∀ resting ∈ restingOrders book.l3 side,
      isSelfMatch order (book.resolve resting.orderId) = own resting.orderId) :
    book.wouldSelfMatch side engine.reach order limit qty =
      (engine.plan side limit own (restingOrders book.l3 side) qty).any Act.isWithdraw := by
  have inside := fun (level : PriceLevelL3) (member : level ∈ priceLevels (restingOrders book.l3 side)) =>
    (mem_priceLevels member).2.1.subset
  exact scanLevels_plan engine (fun level member resting within => positive resting (inside level member within))
    (fun level member resting within => resolves resting (inside level member within))

/-- `canFillCompletely` answers whether a plan in queue order fills all that is asked. Under
`CANCEL_NEWEST` it has to do so without an own order. -/
theorem canFillCompletely_plan {smpMode : SelfMatchPreventionMode} (more : 0 < qty)
    (positive : ∀ resting ∈ restingOrders book.l3 side, 0 < resting.quantity)
    (mine : ∀ resting ∈ restingOrders book.l3 side,
      (smpMode ≠ .none ∧ isSelfMatch order (book.resolve resting.orderId) = true) ↔ own resting.orderId = true) :
    let acts := MatchingEngine.fifo.plan side limit own (restingOrders book.l3 side) qty
    book.canFillCompletely side order limit qty smpMode =
      (!(decide (smpMode = .cancelNewest) && acts.any Act.isWithdraw) && decide (qty ≤ filledQty acts)) := by
  have inside := fun (level : PriceLevelL3) (member : level ∈ priceLevels (restingOrders book.l3 side)) =>
    (mem_priceLevels member).2.1.subset
  exact countLevels_sweep more (fun level member resting within => positive resting (inside level member within))
    (fun level member resting within => mine resting (inside level member within))

end OrderBook

end SlickSim
