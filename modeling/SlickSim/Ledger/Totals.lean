import Mathlib.Algebra.BigOperators.Group.Finset.Basic
import Mathlib.Algebra.Order.BigOperators.Group.Finset
import SlickSim.Ledger.Preservation

/-!
# Phantom totals

The total kept for a price is the quantity of the orders resting there that are
not ours. Every effect of the ledger machine keeps it so, because the observers
look up who owns an order at the moment they are told of it.
-/

set_option autoImplicit false

namespace SlickSim

open OrderBookL3 (afterExecution)

namespace Ledger

def phantom (ledger : Ledger) (id : Nat) : Option BookOrder :=
  if (ledger.owner id).isSome then none else ledger.entry id

/-- What rests under an id and is not ours adds so much to the total of a price. -/
def phantomQty (ledger : Ledger) (price : Int) (id : Nat) : Int :=
  ((ledger.phantom id).map fun order => order.qtyAt price).getD 0

/-- The totals are exact. -/
def Totalled (ledger : Ledger) : Prop :=
  ∀ price, (ledger.totals price).getD 0 =
    ∑ id ∈ Finset.range ledger.globals.nextOrderId, ledger.phantomQty price id

end Ledger

/-! ## One callback -/

/-- A callback takes the old quantity off the old price and puts the new one on the new
price, as long as a price that loses quantity has a total. -/
theorem moveTotals_getD {totals : Int → Option Int} {update : OrderUpdate}
    (known : update.oldQty ≠ 0 → (totals update.oldPrice).isSome = true) (price : Int) :
    (moveTotals totals update price).getD 0 =
      (totals price).getD 0 - (if update.oldPrice = price then update.oldQty else 0) +
        (if update.price = price then update.quantity else 0) := by
  have put : ∀ (totals : Int → Option Int) (change : Int),
      ((totals update.price).isNone = true → change = update.quantity) →
      (putTotals totals update.price update.quantity change price).getD 0 =
        (totals price).getD 0 + (if update.price = price then change else 0) := by
    intro totals change fresh
    unfold putTotals
    by_cases here : update.price = price
    · subst here
      cases found : totals update.price with
      | some total => simp
      | none =>
          rw [found] at fresh
          by_cases none_left : update.quantity = 0
          · simp [none_left, found, fresh rfl]
          · simp [none_left, fresh rfl]
    · have elsewhere : price ≠ update.price := fun same => here same.symm
      cases found : totals update.price with
      | some total => simp [here, Function.update_of_ne elsewhere]
      | none =>
          by_cases none_left : update.quantity = 0
          · simp [none_left, here]
          · simp [none_left, here, Function.update_of_ne elsewhere]
  unfold moveTotals
  by_cases moves : update.price = update.oldPrice
  · rw [if_neg (by simpa using moves)]
    rw [put]
    · rw [← moves]
      split <;> omega
    · intro absent
      rw [moves] at absent
      by_cases nothing : update.oldQty = 0
      · omega
      · have := known nothing
        simp_all
  · rw [if_pos moves, put _ _ (fun _ => rfl)]
    congr 1
    by_cases here : update.oldPrice = price
    · subst here
      cases found : totals update.oldPrice with
      | some total => simp
      | none =>
          by_cases nothing : update.oldQty = 0
          · simp [nothing, found]
          · have := known nothing
            simp_all
    · have elsewhere : price ≠ update.oldPrice := fun same => here same.symm
      cases found : totals update.oldPrice with
      | some total => simp [here, Function.update_of_ne elsewhere]
      | none => simp [here]

/-- Exchanging what rests under an id moves the totals by what it added and what it adds. -/
theorem exchangeUpdates_getD {totals : Int → Option Int} {before after : Option BookOrder}
    {timestamp : Nat}
    (known : ∀ order, before = some order → (totals order.price).isSome = true) (price : Int) :
    ((exchangeUpdates before after timestamp).foldl moveTotals totals price).getD 0 =
      (totals price).getD 0 - ((before.map fun order => order.qtyAt price).getD 0) +
        ((after.map fun order => order.qtyAt price).getD 0) := by
  unfold exchangeUpdates
  cases before with
  | none =>
      cases after with
      | none => simp
      | some next =>
          show (moveTotals totals (next.added timestamp) price).getD 0 = _
          rw [moveTotals_getD (fun nonzero => absurd rfl nonzero)]
          have nothing : (if (0 : Int) = price then (0 : Int) else 0) = 0 := ite_self 0
          show _ - (if (0 : Int) = price then (0 : Int) else 0) + next.qtyAt price = _ - 0 + next.qtyAt price
          rw [nothing]
  | some order =>
      cases after with
      | none =>
          show (moveTotals totals (order.removed timestamp) price).getD 0 = _
          rw [moveTotals_getD (fun _ => known order rfl)]
          simp only [BookOrder.removed, BookOrder.qtyAt, Option.map_none, Option.map_some,
            Option.getD_none, Option.getD_some]
          split <;> omega
      | some next =>
          dsimp only
          split <;> rename_i same
          · subst same
            simp
          · show (moveTotals totals (order.changed next timestamp) price).getD 0 = _
            rw [moveTotals_getD (fun _ => known order rfl)]
            rfl

namespace Ledger.Totalled

variable {ledger after : Ledger} {hand : Hand} {env : Environment}

theorem phantomQty_nonneg (inv : ledger.Represents hand) (price : Int) (id : Nat) :
    0 ≤ ledger.phantomQty price id := by
  unfold phantomQty
  cases found : ledger.phantom id with
  | none => exact Int.le_refl 0
  | some order =>
      have rests : ledger.entry id = some order := by
        unfold phantom at found
        split at found
        · cases found
        · exact found
      have positive := inv.agrees.positive rests
      show 0 ≤ order.qtyAt price
      unfold BookOrder.qtyAt
      split <;> omega

theorem nonneg (totalled : ledger.Totalled) (inv : ledger.Represents hand) (price : Int) :
    0 ≤ (ledger.totals price).getD 0 := by
  rw [totalled price]
  exact Finset.sum_nonneg fun id _ => phantomQty_nonneg inv price id

theorem known (totalled : ledger.Totalled) (inv : ledger.Represents hand) {id : Nat} {order : BookOrder}
    (isPhantom : ledger.phantom id = some order) : (ledger.totals order.price).isSome = true := by
  have rests : ledger.entry id = some order := by
    unfold phantom at isPhantom
    split at isPhantom
    · cases isPhantom
    · exact isPhantom
  have positive := inv.agrees.positive rests
  have part : ledger.phantomQty order.price id ≤
      ∑ id ∈ Finset.range ledger.globals.nextOrderId, ledger.phantomQty order.price id :=
    Finset.single_le_sum (fun other _ => phantomQty_nonneg inv order.price other)
      (Finset.mem_range.mpr (inv.indexed.entry_bound rests))
  rw [← totalled] at part
  have adds : ledger.phantomQty order.price id = order.quantity := by
    unfold phantomQty
    rw [isPhantom]
    simp [BookOrder.qtyAt]
  cases total : ledger.totals order.price with
  | some total => rfl
  | none =>
      rw [total, adds] at part
      simp only [Option.getD_none] at part
      omega

theorem unmoved (totalled : ledger.Totalled) (inv : ledger.Represents hand)
    (samePhantom : ∀ id, after.phantom id = ledger.phantom id) (sameTotals : after.totals = ledger.totals)
    (later : ledger.globals.nextOrderId ≤ after.globals.nextOrderId) : after.Totalled := by
  intro price
  have same : ∀ id, after.phantomQty price id = ledger.phantomQty price id := by
    intro id
    unfold phantomQty
    rw [samePhantom]
  rw [sameTotals, totalled price]
  refine (Finset.sum_congr rfl fun id _ => (same id).symm).trans ?_
  refine Finset.sum_subset (Finset.range_mono later) ?_
  intro id _ beyond
  rw [same]
  unfold phantomQty phantom
  split
  · rfl
  · cases rests : ledger.entry id with
    | none => rfl
    | some order => exact absurd (Finset.mem_range.mpr (inv.indexed.entry_bound rests)) beyond

theorem setPhantom {id timestamp : Nat} {next : Option BookOrder} (totalled : ledger.Totalled)
    (inv : ledger.Represents hand) (numbered : id < ledger.globals.nextOrderId)
    (isPhantom : ledger.owner id = none) (keyed : ∀ order, next = some order → order.orderId = id) :
    (ledger.setEntry id next timestamp).Totalled := by
  rw [setEntry_phantom (fun _ found => inv.indexed.entry_id found) keyed isPhantom]
  have phantomAt : ledger.phantom id = ledger.entry id := by
    unfold phantom
    rw [isPhantom]
    rfl
  intro price
  have moved := @exchangeUpdates_getD ledger.totals (ledger.entry id) next timestamp
    (fun order rests => totalled.known inv (phantomAt.trans rests)) price
  refine moved.trans ?_
  rw [totalled price]
  have member : id ∈ Finset.range ledger.globals.nextOrderId := Finset.mem_range.mpr numbered
  set after : Ledger := { ledger.placeEntry id next timestamp with
    totals := (exchangeUpdates (ledger.entry id) next timestamp).foldl moveTotals ledger.totals }
    with isAfter
  have here : after.phantomQty price id = (next.map fun order => order.qtyAt price).getD 0 := by
    have : after.phantom id = next := by
      unfold phantom
      rw [show after.owner id = none from isPhantom]
      exact Function.update_self ..
    unfold phantomQty
    rw [this]
  have elsewhere : ∀ other ∈ (Finset.range ledger.globals.nextOrderId).erase id,
      after.phantomQty price other = ledger.phantomQty price other := by
    intro other inside
    have : after.phantom other = ledger.phantom other := by
      unfold phantom
      rw [show after.entry other = ledger.entry other from
        Function.update_of_ne (Finset.mem_erase.mp inside).1 ..]
      rfl
    unfold phantomQty
    rw [this]
  have was : ledger.phantomQty price id =
      ((ledger.entry id).map fun order => order.qtyAt price).getD 0 := by
    unfold phantomQty
    rw [phantomAt]
  have before := Finset.add_sum_erase _ (ledger.phantomQty price) member
  have now := Finset.add_sum_erase _ (after.phantomQty price) member
  have others : ∑ other ∈ (Finset.range ledger.globals.nextOrderId).erase id,
      after.phantomQty price other = ∑ other ∈ (Finset.range ledger.globals.nextOrderId).erase id,
        ledger.phantomQty price other := Finset.sum_congr rfl elsewhere
  show _ = ∑ other ∈ Finset.range ledger.globals.nextOrderId, after.phantomQty price other
  rw [was] at before
  rw [here] at now
  omega

theorem changeOwn (totalled : ledger.Totalled) (inv : ledger.Represents hand) (id : Nat)
    (before : ledger.phantom id = none) (now : after.phantom id = none)
    (owner : ∀ other, other ≠ id → after.owner other = ledger.owner other)
    (entry : ∀ other, other ≠ id → after.entry other = ledger.entry other)
    (sameTotals : after.totals = ledger.totals)
    (later : ledger.globals.nextOrderId ≤ after.globals.nextOrderId) : after.Totalled := by
  refine totalled.unmoved inv ?_ sameTotals later
  intro other
  by_cases same : other = id
  · rw [same, before, now]
  · unfold phantom
    rw [owner other same, entry other same]

end Ledger.Totalled

open Ledger

namespace Ledger

variable {ledger : Ledger} {id : Nat}

theorem phantom_of_owner {ref : Nat} (ours : ledger.owner id = some ref) : ledger.phantom id = none := by
  unfold phantom
  rw [ours]
  rfl

theorem phantom_of_absent (absent : ledger.entry id = none) : ledger.phantom id = none := by
  unfold phantom
  rw [absent]
  split <;> rfl

end Ledger

theorem Sweep.totalled {env : Environment} {hand : Hand} {side : BookSide} {before after : Ledger}
    (step : Sweep env hand side before after) (inv : before.Represents hand)
    (totalled : before.Totalled) : after.Totalled := by
  cases step with
  | tick later => exact totalled.unmoved inv (fun _ => rfl) rfl later.nextOrderId
  | @hitPhantom resting qty timestamp rests swept phantom positive within =>
      refine totalled.setPhantom inv (inv.indexed.entry_bound rests) phantom ?_
      intro order left
      rw [(afterExecution_eq_some left).2]
  | @hitPartly resting ref qty timestamp rests swept ours apart positive within =>
      have now : (before.fillPartly env ref resting qty timestamp).owner resting.orderId = some ref := ours
      exact totalled.changeOwn inv resting.orderId (phantom_of_owner ours) (phantom_of_owner now)
        (fun _ _ => rfl) (fun _ different => Function.update_of_ne different ..) rfl le_rfl
  | @hitFully resting ref timestamp rests swept ours apart =>
      have sameId : ((before.updateOrder ref fun order =>
          order.execute order.price resting.quantity timestamp).heap ref).id = resting.orderId := by
        rw [updateOrder_heap_self, Order.execute_id]
        exact inv.indexed.owner_id ours
      refine totalled.changeOwn inv resting.orderId (phantom_of_owner ours)
        (phantom_of_absent (Function.update_self ..)) ?_
        (fun _ different => Function.update_of_ne different ..) rfl le_rfl
      intro other different
      refine Function.update_of_ne ?_ ..
      intro same
      exact different (same.trans sameId)
  | @cancelOwn ref timestamp requestTime resting rests swept ours apart =>
      have sameId := inv.indexed.owner_id ours
      have removedId : (((before.placeEntry (before.heap ref).id none timestamp).updateOrder ref
          Order.withoutLeaves).heap ref).id = resting.orderId := by
        rw [updateOrder_heap_self]
        exact sameId
      refine totalled.changeOwn inv resting.orderId (phantom_of_owner ours) (phantom_of_absent ?_) ?_ ?_
        rfl le_rfl
      · show Function.update before.entry (before.heap ref).id none resting.orderId = none
        rw [sameId]
        exact Function.update_self ..
      · intro other different
        refine Function.update_of_ne ?_ ..
        intro same
        exact different (same.trans removedId)
      · intro other different
        refine Function.update_of_ne ?_ ..
        rw [sameId]
        exact different
  | aggress held positive within => exact totalled.unmoved inv (fun _ => rfl) rfl le_rfl

private theorem amend_own {ledger after : Ledger} {hand : Hand} {ref : Nat} (next : Option BookOrder)
    (totalled : ledger.Totalled) (inv : ledger.Represents hand)
    (held : hand = .amended ref ∨ hand = .closing ref)
    (now : after.phantom (ledger.heap ref).id = none)
    (owner : ∀ other, other ≠ (ledger.heap ref).id → after.owner other = ledger.owner other)
    (entry : after.entry = Function.update ledger.entry (ledger.heap ref).id next)
    (sameTotals : after.totals = ledger.totals)
    (later : ledger.globals.nextOrderId ≤ after.globals.nextOrderId) : after.Totalled := by
  have inside : ledger.Registered ref := by
    apply inv.indexed.resting_registered
    rcases held with rfl | rfl <;> rfl
  refine totalled.changeOwn inv (ledger.heap ref).id (phantom_of_owner inside) now owner ?_ sameTotals
    later
  intro other different
  rw [entry, Function.update_of_ne different]

section Cases

variable {ledger ranked : Ledger} {hand : Hand} {ref timestamp priority : Nat} {globals : Globals} {joined : List Nat}

private theorem rest_totalled (totalled : ledger.Totalled) (inv : ledger.Represents (.working ref))
    (later : ledger.globals.Le globals)
    (isRanked : ranked = { ledger with globals }.updateOrder ref (Order.withPriority globals.nextPriority)) :
    ((ranked.registerOrder ref).placeEntry (ledger.heap ref).id (some (ranked.entryOf ref)) timestamp).Totalled := by
  have absent := inv.indexed.fresh_absent (show (Hand.working ref).fresh = some ref from rfl)
  have unowned := inv.indexed.fresh_unregistered (show (Hand.working ref).fresh = some ref from rfl)
  have rankedId : (ranked.heap ref).id = (ledger.heap ref).id := by
    rw [isRanked, updateOrder_heap_self]
    rfl
  have free : ranked.owner (ranked.heap ref).id = none := by
    rw [rankedId, isRanked]
    exact unowned
  have owner : (ranked.registerOrder ref).owner =
      Function.update ledger.owner (ledger.heap ref).id (some ref) := by
    rw [Indexed.registerOrder_owner free, rankedId, isRanked]
    rfl
  refine totalled.changeOwn inv (ledger.heap ref).id (phantom_of_absent absent)
    (@phantom_of_owner _ _ ref ?_) ?_ ?_ (by rw [isRanked]; rfl) ?_
  · show (ranked.registerOrder ref).owner _ = _
    rw [owner, Function.update_self]
  · intro other different
    show (ranked.registerOrder ref).owner other = _
    rw [owner, Function.update_of_ne different]
  · intro other different
    rw [placeEntry_entry_of_ne different, isRanked]
    rfl
  · show _ ≤ ranked.globals.nextOrderId
    rw [isRanked]
    exact later.nextOrderId

private theorem amendRests_totalled (totalled : ledger.Totalled) (inv : ledger.Represents hand)
    (held : hand = .amended ref ∨ hand = .closing ref) (later : ledger.globals.Le globals)
    (isRanked : ranked = { ledger with globals, joins := ledger.joins ++ joined }.updateOrder ref
      (Order.withPriority priority)) :
    (ranked.placeEntry (ledger.heap ref).id (some (ranked.entryOf ref)) timestamp).Totalled := by
  have inside : ledger.Registered ref := by
    apply inv.indexed.resting_registered
    rcases held with rfl | rfl <;> rfl
  refine amend_own (some (ranked.entryOf ref)) totalled inv held (@phantom_of_owner _ _ ref ?_) ?_ ?_ ?_ ?_
  · rw [isRanked]
    exact inside
  · intro other _
    rw [isRanked]
    rfl
  · rw [isRanked]
    rfl
  · rw [isRanked]
    rfl
  · rw [isRanked]
    exact later.nextOrderId

private theorem amendGone_totalled (totalled : ledger.Totalled) (inv : ledger.Represents hand)
    (held : hand = .amended ref ∨ hand = .closing ref) (later : ledger.globals.Le globals)
    (isRanked : ranked = { ledger with globals, joins := ledger.joins ++ joined }.updateOrder ref
      (Order.withPriority priority)) :
    (((ranked.placeEntry (ledger.heap ref).id none timestamp).unregisterOrder ref).freeOrder ref).Totalled := by
  have rankedId : (ranked.heap ref).id = (ledger.heap ref).id := by
    rw [isRanked, updateOrder_heap_self]
    rfl
  refine amend_own none totalled inv held (phantom_of_absent (Function.update_self ..)) ?_ ?_ ?_ ?_
  · intro other different
    show Function.update ranked.owner (ranked.heap ref).id none other = _
    rw [rankedId, Function.update_of_ne different, isRanked]
    rfl
  · show Function.update ranked.entry _ none = _
    rw [isRanked]
    rfl
  · show ranked.totals = _
    rw [isRanked]
    rfl
  · show _ ≤ ranked.globals.nextOrderId
    rw [isRanked]
    exact later.nextOrderId

end Cases

theorem Micro.totalled {env : Environment} {permit : Permit} {before after : Hand × Ledger}
    (step : Micro env permit before after) (inv : before.2.Represents before.1)
    (totalled : before.2.Totalled) : after.2.Totalled := by
  obtain ⟨hand, ledger⟩ := before
  obtain ⟨hand', ledger'⟩ := after
  dsimp only at inv totalled ⊢
  cases step with
  | sweep swept => exact swept.totalled inv totalled
  | reject permitted => exact totalled.unmoved inv (fun _ => rfl) rfl le_rfl
  | touch => exact totalled.unmoved inv (fun _ => rfl) rfl le_rfl
  | accept unused numbered later drawn clientFree named orderFree whole unfilled unpriced permitted =>
      exact totalled.unmoved inv (fun _ => rfl) rfl later.nextOrderId
  | ack => exact totalled.unmoved inv (fun _ => rfl) rfl le_rfl
  | refuse permitted => exact totalled.unmoved inv (fun _ => rfl) rfl le_rfl
  | rejectRefused permitted => exact totalled.unmoved inv (fun _ => rfl) rfl le_rfl
  | cancelHand unrestable unfinished => exact totalled.unmoved inv (fun _ => rfl) rfl le_rfl
  | dropDone => exact totalled.unmoved inv (fun _ => rfl) rfl le_rfl
  | dropFilled filled traded => exact totalled.unmoved inv (fun _ => rfl) rfl le_rfl
  | rest later drawn left restable clear isRanked permitted => exact rest_totalled totalled inv later isRanked
  | startAmend registered permitted isMarked =>
      subst isMarked
      exact totalled.unmoved inv (fun _ => rfl) rfl le_rfl
  | abortAmend permitted => exact totalled
  | replace permitted isReplaced =>
      subst isReplaced
      exact totalled.unmoved inv (fun _ => rfl) rfl le_rfl
  | cancelAmended unrestable => exact totalled.unmoved inv (fun _ => rfl) rfl le_rfl
  | amendRests held later left clear isRanked place permitted =>
      exact amendRests_totalled totalled inv held later isRanked
  | amendGone held later filled mine isRanked => exact amendGone_totalled totalled inv held later isRanked
  | startCancel registered permitted isMarked =>
      subst isMarked
      exact totalled.unmoved inv (fun _ => rfl) rfl le_rfl
  | finishCancel =>
      obtain ⟨idle, swept⟩ := inv.cancelling_sweep _ _
      exact swept.totalled idle totalled
  | addPhantom absent foreign numbered positive clear permitted =>
      exact totalled.setPhantom inv numbered (owner_eq_none_of_not_owned inv foreign)
        (by rintro _ ⟨⟩; rfl)
  | resizePhantom rests phantom positive within ranked =>
      exact totalled.setPhantom inv (inv.indexed.entry_bound rests) phantom (by rintro _ ⟨⟩; rfl)
  | movePhantom rests phantom positive sameId sameSide permitted =>
      exact totalled.setPhantom inv (inv.indexed.entry_bound rests) phantom
        (by rintro _ ⟨⟩; exact sameId)
  | dropPhantom rests phantom =>
      exact totalled.setPhantom inv (inv.indexed.entry_bound rests) phantom (by rintro _ ⟨⟩)
  | clearMD =>
      intro price
      symm
      apply Finset.sum_eq_zero
      intro id _
      unfold phantomQty phantom
      dsimp only
      split <;> rfl

theorem Micros.totalled {env : Environment} {permit : Permit} {before after : Hand × Ledger}
    (run : Micros env permit before after) (inv : before.2.Represents before.1)
    (totalled : before.2.Totalled) : after.2.Totalled := by
  induction run with
  | refl => exact totalled
  | tail earlier step ih => exact step.totalled (Micros.represents earlier inv) ih

/-! ## The totals of a book -/

namespace OrderBook

variable {β : Type} [OrderBookL3 β]

/-- The orders resting at a price that are not the simulator's own, on either side. -/
def phantomOrders (book : OrderBook β) (price : Int) : List BookOrder :=
  (OrderBookL3.allOrders book.l3).filter fun order =>
    (book.findOrder order.orderId).isNone && decide (order.price = price)

private theorem sum_filter_quantity (orders : List BookOrder) (keep : BookOrder → Bool) :
    ((orders.filter keep).map BookOrder.quantity).sum =
      (orders.map fun order => if keep order then order.quantity else 0).sum := by
  induction orders with
  | nil => rfl
  | cons order rest ih =>
      rw [List.filter_cons, List.map_cons, List.sum_cons, ← ih]
      split <;> simp

theorem getMDLevelQty_eq {book : OrderBook β} {responses : List OrderResponse} {hand : Hand}
    (inv : (book.ledger responses).Represents hand) (totalled : (book.ledger responses).Totalled)
    (price : Int) :
    book.getMDLevelQty price = ((book.phantomOrders price).map BookOrder.quantity).sum := by
  let ledger := book.ledger responses
  let orders := OrderBookL3.allOrders book.l3
  have entryOf : ∀ order ∈ orders, ledger.entry order.orderId = some order := fun order member =>
    OrderBookL3.findOrder_eq_some.mpr ⟨member, rfl⟩
  have each : ∀ order ∈ orders, ledger.phantomQty price order.orderId =
      if (book.findOrder order.orderId).isNone && decide (order.price = price) then order.quantity
      else 0 := by
    intro order member
    unfold phantomQty phantom
    rw [entryOf order member]
    cases ours : book.findOrder order.orderId with
    | some ref =>
        rw [show ledger.owner order.orderId = some ref from ours]
        rfl
    | none =>
        rw [show ledger.owner order.orderId = none from ours]
        simp [BookOrder.qtyAt]
  have distinct : (orders.map BookOrder.orderId).Nodup := OrderBookL3.allOrders_distinct book.l3
  have inside : (orders.map BookOrder.orderId).toFinset ⊆ Finset.range ledger.globals.nextOrderId := by
    intro id member
    obtain ⟨order, rests, rfl⟩ := List.mem_map.mp (List.mem_toFinset.mp member)
    exact Finset.mem_range.mpr (inv.indexed.entry_bound (entryOf order rests))
  have outside : ∀ id ∈ Finset.range ledger.globals.nextOrderId,
      id ∉ (orders.map BookOrder.orderId).toFinset → ledger.phantomQty price id = 0 := by
    intro id _ absent
    have nothing : ledger.entry id = none := by
      apply OrderBookL3.findOrder_eq_none.mpr
      intro order rests same
      exact absent (List.mem_toFinset.mpr (List.mem_map.mpr ⟨order, rests, same⟩))
    unfold phantomQty
    rw [phantom_of_absent nothing]
    rfl
  calc book.getMDLevelQty price
      = ∑ id ∈ Finset.range ledger.globals.nextOrderId, ledger.phantomQty price id := totalled price
    _ = ∑ id ∈ (orders.map BookOrder.orderId).toFinset, ledger.phantomQty price id :=
        (Finset.sum_subset inside outside).symm
    _ = ((orders.map BookOrder.orderId).map (ledger.phantomQty price)).sum :=
        List.sum_toFinset _ distinct
    _ = (orders.map fun order => if (book.findOrder order.orderId).isNone &&
          decide (order.price = price) then order.quantity else 0).sum := by
        rw [List.map_map]
        exact congrArg List.sum (List.map_congr_left each)
    _ = ((book.phantomOrders price).map BookOrder.quantity).sum := (sum_filter_quantity ..).symm

end OrderBook

end SlickSim
