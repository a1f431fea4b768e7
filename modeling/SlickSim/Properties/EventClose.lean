import SlickSim.Engine.EventFlags
import SlickSim.Exchange.Trail
import SlickSim.Exchange.Reports
import SlickSim.Ledger.Reachable
import SlickSim.OrderBook.Reference

/-!
# How a request's level frame closes its event

The level rows of a request end in the one row that is flagged, unless flagged rows were
left in the cache, or the request is an amendment that fills its order completely, or one
that changes nothing about its order and cancels others.
-/

set_option autoImplicit false

namespace SlickSim

open KeyedList
open OrderBookL3 (restingOrders FlagsBatches)
open MatchingEngine (sweptSide amendedQty)
open OrderBook (Caches)

/-! ## Fills -/

/-- A fill lowers the level of the order it takes from. -/
theorem levelQty_takeFromQueue {orders : List BookOrder} {resting : BookOrder} (qty : Int)
    (distinct : (orders.map BookOrder.orderId).Nodup) (member : resting ∈ orders) :
    levelQty (takeFromQueue resting qty orders) resting.price = levelQty orders resting.price - qty := by
  have here : resting.qtyAt resting.price = resting.quantity := if_pos rfl
  refine sum_takeFromQueue _ distinct member (fun full => by rw [here, full]) ?_
  rw [here]
  exact if_pos rfl

/-- The rows of a match so far, for what its order has left. -/
def MatchFlags (left : Int) (flags : List Bool) : Prop :=
  if 0 < left then Unflagged flags else Closing flags

namespace MatchState

variable {β : Type} [OrderBookL3 β] {env : Environment} {config : SymbolConfig} {hand : Hand}
  {side : BookSide} {seqNum ref requestTime : Nat} {state : MatchState β} {newPrice newQty : Int}

/-- Every fill but the one that finishes the order is in the middle of the event. -/
theorem matchKeeps_flags (law : FlagsBatches β) (start : OrderBook β) :
    MatchKeeps env hand side seqNum ref requestTime fun _ left (state : MatchState β) =>
      ∃ flags, Caches flags start state.book ∧ MatchFlags left flags where
  fill := by
    rintro ctx ctx' state state' resting qty left ready member positive within enough filled takes
      ⟨flags, caches, soFar⟩
    have quiet : Unflagged flags := (if_pos (show 0 < left by omega)).mp soFar
    have batches := state.fillResting_batches env law ctx side ref resting.orderId
      (state.book.findOrder resting.orderId) resting.price qty (left - qty)
    have tells := state.fillResting_tells env ctx side ref resting.orderId
      (state.book.findOrder resting.orderId) resting.price qty (left - qty)
    rw [filled] at batches tells
    obtain ⟨rows, batch, more⟩ := batches
    refine ⟨flags ++ rows, caches.trans more, ?_⟩
    unfold MatchFlags
    split <;> rename_i still
    · rw [decide_eq_false (show ¬ left - qty = 0 by omega)] at batch
      exact unflagged_append.mpr ⟨quiet, batch.unflagged⟩
    · rw [decide_eq_true (show left - qty = 0 by omega)] at batch
      have distinct := OrderBookL3.restingOrders_distinct state.book.l3 side
      have lowered : levelQty (restingOrders state'.book.l3 side) resting.price ≠
          levelQty (restingOrders state.book.l3 side) resting.price := by
        rw [takes.queue, levelQty_takeFromQueue qty distinct member]
        omega
      have some : rows ≠ [] := more.ne_nil tells lowered
      exact (closing_append some).mpr ⟨quiet, batch.closing some⟩
  cancel := by
    rintro ctx state state' resting bookRef left ready member more cancelled takes ⟨flags, caches, soFar⟩
    have quiet : Unflagged flags := (if_pos more).mp soFar
    have batches := state.handleSelfMatch_batches env law bookRef requestTime ctx.eventTime seqNum .cancelResting
    rw [cancelled] at batches
    obtain ⟨rows, batch, later⟩ := batches
    exact ⟨flags ++ rows, caches.trans later,
      (if_pos more).mpr (unflagged_append.mpr ⟨quiet, batch.unflagged⟩)⟩

/-- What a client order that can match caches on its way. -/
theorem loopStart_flags (law : FlagsBatches β) {prepared : MatchState β} {engine : MatchingEngine}
    {limit qty : Int} {smpMode : SelfMatchPreventionMode}
    (start : engine.LoopStart env hand ref limit qty requestTime smpMode state prepared) (eventTime : Nat) :
    ∃ (summaries : List TradeSummaryInfo) (swept : MatchState β) (left : Int) (flags : List Bool),
      engine.matchOrder env ref limit qty requestTime eventTime 0 smpMode state =
        (.none, summaries, swept.cancelUnrestableRemainder env ref left requestTime) ∧
      Sweeps env hand (sweptSide (state.order ref).side) prepared.ledger swept.ledger ∧
      (swept.order ref).leavesQuantity = left ∧
      left = (prepared.order ref).leavesQuantity - min (prepared.order ref).leavesQuantity
        (crossableQty (sweptSide (state.order ref).side) limit
          (state.book.ownOrders smpMode (state.order ref))
          (restingOrders state.book.l3 (sweptSide (state.order ref).side))) ∧
      Caches flags state.book swept.book ∧ MatchFlags left flags := by
  have sameCache : prepared.book.mdLevelUpdateCache = state.book.mdLevelUpdateCache := by
    have kept := state.prepareOrder_cache env (sweptSide (state.order ref).side) engine.reach ref limit qty
      requestTime smpMode
    rwa [start.prepares] at kept
  obtain ⟨matched, delivers, leaves, flags, caches, isFlags⟩ := start.matchOrder_eq
    (matchKeeps_flags law state.book) eventTime
    ⟨[], .of_same sameCache, (if_pos start.positive).mpr .nil⟩
  refine ⟨_, _, _, flags, matched, delivers.sweeps, leaves, ?_, caches, isFlags⟩
  rw [← start.l3]
  exact delivers.remaining_eq start.ready start.positive.le

/-! ## New orders -/

theorem addOrder_caches (law : FlagsBatches β) (book : OrderBook β) (timestamp : Nat)
    (absent : OrderBookL3.findOrder book.l3 (book.heap ref).id = none)
    (left : 0 < (book.heap ref).leavesQuantity) :
    ∃ flags, Closing flags ∧ Caches flags book (book.addOrder ref timestamp 0 true) := by
  obtain ⟨flags, batch, caches⟩ := book.addOrder_batches law ref timestamp 0 true
  have priority : effectivePriority (book.globals.nextPriority + 1) timestamp =
      book.globals.nextPriority + 1 := if_neg (Nat.succ_ne_zero _)
  obtain ⟨-, -, inserted, -, -⟩ := OrderBookL3.addOrder_accepted book.l3
    { (book.heap ref).bookEntry with priority := book.globals.nextPriority + 1 } timestamp
    (book.globals.nextPriority + 1) 0 true (fun stale => stale.1.false)
    (fun other member => OrderBookL3.findOrder_eq_none.mp absent other member) left priority.symm
  have l3Is : (book.addOrder ref timestamp 0 true).l3 = (OrderBookL3.addOrder book.l3 (book.heap ref).id
      (toBookSide (book.heap ref).side) (book.heap ref).price (book.heap ref).leavesQuantity timestamp
      (book.globals.nextPriority + 1) 0 true).book := by
    unfold OrderBook.addOrder
    dsimp only
    rw [OrderBook.absorb_l3]
    simp [OrderBook.registerOrder, OrderBook.updateOrder, OrderBook.noteDeclined, OrderBook.nextOrderPriority]
  have total : levelQty (restingOrders (book.addOrder ref timestamp 0 true).l3
      (toBookSide (book.heap ref).side)) (book.heap ref).price =
      (book.heap ref).leavesQuantity +
        levelQty (restingOrders book.l3 (toBookSide (book.heap ref).side)) (book.heap ref).price := by
    rw [l3Is]
    have sums := (inserted.perm.map fun order => order.qtyAt (book.heap ref).price).sum_eq
    rw [List.map_cons, List.sum_cons] at sums
    have here : BookOrder.qtyAt { (book.heap ref).bookEntry with
      priority := book.globals.nextPriority + 1 } (book.heap ref).price =
        (book.heap ref).leavesQuantity := if_pos rfl
    rw [here] at sums
    exact sums
  have raised : levelQty (restingOrders (book.addOrder ref timestamp 0 true).l3
      (toBookSide (book.heap ref).side)) (book.heap ref).price ≠
      levelQty (restingOrders book.l3 (toBookSide (book.heap ref).side)) (book.heap ref).price := by
    omega
  exact ⟨flags, batch.closing (caches.ne_nil (book.addOrder_tells ref timestamp 0 true) raised), caches⟩

theorem closeEvent_closes {rows : List MDLevel} {before flags : List Bool}
    (isFlags : rows.map (fun row => row.flags.endEvent) = before ++ flags) (some : flags ≠ [])
    (tail : Unflagged flags ∨ Closing flags) :
    Closing ((closeEvent rows).map fun row => row.flags.endEvent) ↔ Unflagged before := by
  obtain ⟨early, last, rfl⟩ := (List.eq_nil_or_concat' flags).resolve_left some
  have quiet : Unflagged early := by
    rcases tail with quiet | ⟨earlier, whole, quiet⟩
    · exact (unflagged_append.mp quiet).1
    · rwa [(List.append_inj' whole rfl).1]
  have filled : rows ≠ [] := by
    rintro rfl
    exact some (List.append_eq_nil_iff.mp isFlags.symm).2
  obtain ⟨init, row, rfl⟩ := (List.eq_nil_or_concat' rows).resolve_left filled
  rw [List.map_append, ← List.append_assoc] at isFlags
  rw [closeEvent_concat, List.map_append, (List.append_inj' isFlags rfl).1,
    show [MDLevel.mk _ _ _ _ _ _ _ _ _ _].map (fun row => row.flags.endEvent) = [true] from rfl,
    closing_append (List.cons_ne_nil _ _), unflagged_append]
  exact ⟨fun both => both.1.1, fun clear => ⟨⟨clear, quiet⟩, [], rfl, .nil⟩⟩

/-- What the match of a new order caches. An order about to rest has flagged no row. -/
private theorem matchOrder_new_flags (law : FlagsBatches β) {engine : MatchingEngine}
    {smpMode : SelfMatchPreventionMode} (limit qty : Int) (eventTime : Nat)
    (inv : state.ledger.Represents (.pending ref)) (isNew : (state.order ref).status = .pendingNew) :
    ∃ reason summaries between flags,
      engine.matchOrder env ref limit qty requestTime eventTime 0 smpMode state =
        (reason, summaries, between) ∧
      Caches flags state.book between.book ∧ (Unflagged flags ∨ Closing flags) ∧
      (reason = .none ∧ 0 < (between.order ref).leavesQuantity ∧
          (between.order ref).restsRemainder = true →
        Unflagged flags ∧ OrderBookL3.findOrder between.book.l3 (between.order ref).id = none) := by
  by_cases refuses : engine.Refuses state.book smpMode (state.order ref) limit
      (state.order ref).leavesQuantity
  · refine ⟨_, _, _, [], MatchingEngine.matchOrder_new_refused engine env requestTime smpMode eventTime isNew
      refuses, .of_same rfl, .inl .nil, ?_⟩
    rintro ⟨⟨⟩, -⟩
  by_cases done : MatchingEngine.CannotFill state.book smpMode (state.order ref) limit qty ∨
      (state.order ref).leavesQuantity = 0
  · obtain ⟨reason, matched, isReason⟩ := MatchingEngine.matchOrder_new_done engine env requestTime smpMode
      eventTime isNew refuses done
    refine ⟨_, _, _, [], matched, .of_same rfl, .inl .nil, ?_⟩
    rintro ⟨rfl, left, -⟩
    rcases isReason with ⟨⟨⟩, -⟩ | ⟨-, empty⟩
    have left : 0 < (state.order ref).leavesQuantity := left
    omega
  obtain ⟨fillable, some⟩ := not_or.mp done
  by_cases negative : (state.order ref).leavesQuantity < 0
  · refine ⟨_, _, _, [], MatchingEngine.matchOrder_new_negative engine env requestTime smpMode eventTime isNew
      refuses fillable negative, .of_same rfl, .inl .nil, ?_⟩
    rintro ⟨-, left, -⟩
    have left : 0 < (state.order ref).leavesQuantity := left
    omega
  have start := MatchingEngine.loopStart_new engine env requestTime smpMode inv isNew refuses fillable
    (by omega)
  obtain ⟨summaries, swept, left, flags, matched, sweeps, isLeft, -, caches, isFlags⟩ :=
    loopStart_flags law start eventTime
  refine ⟨_, _, _, flags, matched, caches.quiet (cancelUnrestableRemainder_cache ..), ?_, ?_⟩
  · unfold MatchFlags at isFlags
    split at isFlags
    · exact .inl isFlags
    · exact .inr isFlags
  · rintro ⟨-, more, restable⟩
    have sweptInv := sweeps.represents start.ready.inv
    have same : (swept.cancelUnrestableRemainder env ref left requestTime).book = swept.book := by
      unfold cancelUnrestableRemainder
      split <;> rfl
    have sameOrder : (swept.cancelUnrestableRemainder env ref left requestTime).order ref = swept.order ref :=
      congrArg (fun book => book.heap ref) same
    rw [sameOrder, isLeft] at more
    rw [sameOrder, same]
    exact ⟨(if_pos more).mp isFlags, sweptInv.indexed.fresh_absent rfl⟩

theorem addOrder_closes (law : FlagsBatches β) (inv : state.ledger.Represents (.pending ref))
    (isNew : (state.order ref).status = .pendingNew) {price : Int}
    (changed : levelQty (restingOrders (state.addOrder env config ref requestTime).2.2.book.l3 side) price ≠
      levelQty (restingOrders state.book.l3 side) price) :
    Closing (state.addOrder env config ref requestTime).2.2.book.endFlags ↔
      Unflagged state.book.endFlags := by
  obtain ⟨reason, summaries, between, flags, matched, caches, tail, resting⟩ :=
    @matchOrder_new_flags _ _ env ref requestTime state law config.matchingEngine config.smpMode
      (state.order ref).price (state.order ref).quantity (state.order ref).createdTime inv isNew
  have tells := matchOrder_tells env state config.matchingEngine ref (state.order ref).price
    (state.order ref).quantity requestTime (state.order ref).createdTime 0 config.smpMode
  rw [matched] at tells
  rw [addOrder_eq matched] at changed ⊢
  dsimp only at changed ⊢
  split <;> rename_i rests
  · obtain ⟨quiet, absent⟩ := resting rests
    obtain ⟨rows, closing, more⟩ := addOrder_caches law between.book (between.order ref).createdTime absent
      rests.2.1
    have cached : Caches (flags ++ rows) state.book
        (between.book.addOrder ref (between.order ref).createdTime 0 true) := caches.trans more
    rw [show (between.onBook fun book => book.addOrder ref (between.order ref).createdTime 0 true).book.endFlags =
      _ from cached, closing_append (List.append_ne_nil_of_right_ne_nil _ closing.ne_nil),
      closing_append closing.ne_nil]
    exact ⟨fun both => both.1, fun clear => ⟨clear, quiet, closing⟩⟩
  · rw [if_neg rests] at changed
    exact closeEvent_closes caches (caches.ne_nil tells changed) tail

/-! ## Amendments -/

/-- What an amendment caches after it matched: nothing if it leaves the order's entry as
it is. -/
private theorem settleAmend_flags (env : Environment) (newPrice : Int) (law : FlagsBatches β) (requeue : Bool)
    (inv : state.ledger.Represents (.amended ref)) (price : (state.order ref).price = newPrice)
    (nonneg : 0 ≤ (state.order ref).leavesQuantity) {resting : BookOrder}
    (rests : state.ledger.entry (state.order ref).id = some resting) :
    ∃ settled, Batch true settled ∧ Caches settled state.book (state.settleAmend env ref newPrice requeue).book ∧
      (settled = [] ↔ (state.order ref).leavesQuantity ≠ 0 ∧
        resting = { (state.order ref).bookEntry with
          priority := if requeue then state.book.globals.nextPriority + 1 else (state.order ref).priority }) := by
  let ranked := if requeue then
      (state.touchOrder env ref).onBook fun book =>
        let book := book.nextOrderPriority
        (book.updateOrder ref fun order =>
          { order with priority := book.globals.nextPriority }).noteJoin (book.heap ref).id
    else state.touchOrder env ref
  have sameCache : ranked.book.mdLevelUpdateCache = state.book.mdLevelUpdateCache := by
    cases requeue <;> rfl
  have sameTrail : ranked.book.orderTrail = state.book.orderTrail := by
    cases requeue <;> rfl
  obtain ⟨settled, batch, caches, told⟩ := ranked.book.modifyOrder_batches law ref
    (ranked.order ref).lastUpdateTime 0 newPrice (ranked.order ref).quantity true
  let moved := ranked.onBook fun book => book.modifyOrder ref newPrice (ranked.order ref).quantity
    (ranked.order ref).lastUpdateTime 0 true
  have finalIs : state.settleAmend env ref newPrice requeue =
      if (moved.order ref).leavesQuantity = 0 then moved.onBook fun book => book.freeOrder ref else moved := rfl
  have moves : (state.settleAmend env ref newPrice requeue).book.mdLevelUpdateCache =
        moved.book.mdLevelUpdateCache ∧
      (state.settleAmend env ref newPrice requeue).ledger.trail = moved.book.orderTrail := by
    rw [finalIs]
    split <;> exact ⟨rfl, rfl⟩
  refine ⟨settled, batch, (caches.since sameCache).quiet moves.1, ?_⟩
  -- What the book tells of the order is what the ledger's trail gains.
  let ledger := state.ledger.touchOrder env ref
  let rankedLedger := if requeue then ledger.requeueOrder ref else ledger
  let stamp := (ledger.heap ref).lastUpdateTime
  have touchedSelf : ledger.heap ref =
      { state.order ref with lastUpdateTime := env.clock state.book.globals.clockReads } :=
    Function.update_self ..
  have self : ∃ stamp, rankedLedger.heap ref = { state.order ref with
      lastUpdateTime := stamp
      priority := if requeue then state.book.globals.nextPriority + 1 else (state.order ref).priority } := by
    cases requeue with
    | false => exact ⟨_, touchedSelf⟩
    | true =>
        have requeued : (ledger.requeueOrder ref).heap ref =
            { ledger.heap ref with priority := state.book.globals.nextPriority + 1 } := Function.update_self ..
        rw [touchedSelf] at requeued
        exact ⟨_, requeued⟩
  have entries : rankedLedger.entry = state.ledger.entry ∧ rankedLedger.trail = state.book.orderTrail := by
    show (if requeue then _ else ledger).entry = _ ∧ (if requeue then _ else ledger).trail = _
    split <;> exact ⟨rfl, rfl⟩
  obtain ⟨touched, self⟩ := self
  have trailIs : (rankedLedger.followOrder ref stamp).trail = state.book.orderTrail ++ exchangeUpdates
      (some resting) (if (state.order ref).leavesQuantity = 0 then none else
        some (rankedLedger.entryOf ref)) stamp := by
    unfold Ledger.followOrder
    rw [self]
    dsimp only
    rw [← rests, ← entries.1, ← entries.2]
    split <;> rfl
  have entryIs : rankedLedger.entryOf ref = { (state.order ref).bookEntry with
      priority := if requeue then state.book.globals.nextPriority + 1 else (state.order ref).priority } := by
    unfold Ledger.entryOf
    rw [self]
    rfl
  have settledLedger : (state.settleAmend env ref newPrice requeue).ledger = _ :=
    settleAmend_ledger requeue inv price nonneg
  have grown : moved.book.orderTrail = _ :=
    moves.2.symm.trans ((congrArg Ledger.trail settledLedger).trans trailIs)
  rw [told, show (ranked.book.modifyOrder ref newPrice (ranked.order ref).quantity
    (ranked.order ref).lastUpdateTime 0 true).orderTrail = _ from grown, sameTrail, List.append_right_eq_self,
    entryIs]
  generalize ({ (state.order ref).bookEntry with
    priority := if requeue then state.book.globals.nextPriority + 1 else (state.order ref).priority } :
      BookOrder) = next
  unfold exchangeUpdates
  by_cases drained : (state.order ref).leavesQuantity = 0
  · simp [drained]
  · rw [if_neg drained]
    dsimp only
    split <;> rename_i same
    · exact iff_of_true rfl ⟨drained, same.symm⟩
    · exact iff_of_false (List.cons_ne_nil _ _) (fun still => same still.2.symm)

private theorem publishOrderCancel_represents (inv : state.ledger.Represents (.amended ref)) :
    (state.publishOrderCancel env ref requestTime).ledger.Represents (.amended ref) := by
  show (state.ledger.publish env fun slot => slot.writeCancel (state.order ref) requestTime).Represents _
  exact inv.report (.inl (inv.indexed.resting_registered rfl)) (by intro _; rfl) rfl rfl (fun _ held => held)

/-- The rows of an accepted amendment: those of its match, then those of what becomes of
the order's entry. -/
private theorem modifyOrder_flags (env : Environment) (requestTime : Nat) (law : FlagsBatches β)
    (inv : state.ledger.Represents (.amending ref))
    (isAmend : (state.order ref).status = .pendingReplace)
    (goesOn : ¬ config.matchingEngine.Refuses state.book config.smpMode (state.order ref) newPrice
      (amendedQty (state.order ref) newQty)) {left reach : Int}
    (isLeft : left = amendedQty (state.order ref) newQty)
    (isReach : reach = crossableQty (sweptSide (state.order ref).side) newPrice
      (state.book.ownOrders config.smpMode (state.order ref))
      (restingOrders state.book.l3 (sweptSide (state.order ref).side))) :
    ∃ matched settled,
      Caches (matched ++ settled) state.book
        (state.modifyOrder env config ref newPrice newQty requestTime).2.2.book ∧
      Batch true settled ∧
      (left = 0 ∧ matched = [] ∧ settled ≠ [] ∨
        0 < left ∧ left ≤ reach ∧ Closing matched ∧ settled ≠ [] ∨
        reach < left ∧ Unflagged matched ∧ (settled = [] ↔ newPrice = (state.order ref).price ∧
          newQty = (state.order ref).quantity ∧ reach = 0)) := by
  have registered : state.ledger.Registered ref := inv.indexed.resting_registered rfl
  obtain ⟨rests, leavesPositive, whole⟩ := (inv.agrees.at_ ref).rests registered (by rintro ⟨⟩)
  obtain ⟨-, ranked⟩ := (inv.agrees.at_ ref).ranked registered
  have reachNonneg : 0 ≤ reach := by
    rw [isReach]
    exact crossableQty_nonneg fun order member => inv.agrees.positive (entry_of_mem member)
  have leftNonneg : 0 ≤ left := isLeft ▸ Int.le_max_left ..
  let replaced := state.replaceOrder env ref newPrice newQty requestTime
  have self : replaced.order ref = (state.order ref).replace newPrice newQty := replaceOrder_order ..
  have replacedInv : replaced.ledger.Represents (.amended ref) := by
    have represents : (state.ledger.replaceOrder env ref newPrice newQty requestTime).Represents
        (.amended ref) := Ledger.replaceOrder_represents requestTime inv
    rw [show replaced.ledger = _ from replaceOrder_ledger ..]
    exact represents
  by_cases empty : left = 0
  · have matched := MatchingEngine.matchOrder_amend_emptied config.matchingEngine env requestTime config.smpMode
      (state.order ref).lastUpdateTime inv isAmend goesOn (isLeft.symm.trans empty)
    have leaves : (replaced.order ref).leavesQuantity = 0 :=
      (MatchingEngine.replaceOrder_leaves env requestTime inv).trans (isLeft.symm.trans empty)
    have closedInv : (replaced.publishOrderCancel env ref requestTime).ledger.Represents (.amended ref) :=
      publishOrderCancel_represents replacedInv
    obtain ⟨settled, batch, caches, told⟩ := settleAmend_flags env newPrice law
      ((state.order ref).requeues newPrice newQty) closedInv
      (show (replaced.order ref).price = newPrice by rw [self]; rfl)
      (show 0 ≤ (replaced.order ref).leavesQuantity by omega)
      (show state.ledger.entry (replaced.order ref).id = some _ by rw [self]; exact rests)
    refine ⟨[], settled, ?_, batch, .inl ⟨empty, rfl, ?_⟩⟩
    · rw [modifyOrder_accepted matched]
      exact caches.since rfl
    · intro nothing
      exact (told.mp nothing).1 leaves
  have start := MatchingEngine.loopStart_amend config.matchingEngine env requestTime config.smpMode inv isAmend
    goesOn (isLeft ▸ show 0 < left by omega)
  obtain ⟨summaries, swept, remaining, rows, matched, sweeps, isRemaining, executed, cached, isFlags⟩ :=
    loopStart_flags law start (state.order ref).lastUpdateTime
  rw [MatchingEngine.replaceOrder_leaves env requestTime inv, ← isLeft, ← isReach] at executed
  let between := swept.cancelUnrestableRemainder env ref remaining requestTime
  have sameBook : between.book = swept.book := by
    show (if _ then _ else swept : MatchState β).book = _
    split <;> rfl
  have sweptInv := sweeps.represents replacedInv
  have frame := sweeps.takenFrom replacedInv
  have betweenInv : between.ledger.Represents (.amended ref) := by
    show (if _ then _ else swept : MatchState β).ledger.Represents _
    split
    · exact publishOrderCancel_represents sweptInv
    · exact sweptInv
  have sameOrder : between.order ref = swept.order ref := congrArg (fun book => book.heap ref) sameBook
  have terms : (between.order ref).SameTerms ((state.order ref).replace newPrice newQty) := by
    rw [sameOrder, ← self]
    exact frame.terms ref
  have leaves : (between.order ref).leavesQuantity = remaining := by rw [sameOrder]; exact isRemaining
  have later : state.book.globals.nextPriority ≤ between.book.globals.nextPriority := by
    rw [sameBook]
    exact frame.later.nextPriority
  have restsStill : between.ledger.entry (between.order ref).id = some (state.ledger.entryOf ref) := by
    rw [terms.id, show between.ledger.entry = swept.ledger.entry from
      congrArg (fun book : OrderBook β => OrderBookL3.findOrder book.l3) sameBook]
    refine frame.otherSide rests ?_
    rw [MatchingEngine.sweptSide_eq]
    exact (BookSide.opposite_ne _).symm
  obtain ⟨settled, batch, caches, told⟩ := settleAmend_flags env newPrice law
    ((state.order ref).requeues newPrice newQty) betweenInv terms.price (by omega) restsStill
  refine ⟨rows, settled, ?_, batch, .inr ?_⟩
  · rw [modifyOrder_accepted matched]
    exact (cached.quiet (cancelUnrestableRemainder_cache ..)).trans caches
  by_cases covered : left ≤ reach
  · refine .inl ⟨by omega, covered, (if_neg (by omega)).mp isFlags, ?_⟩
    intro nothing
    exact (told.mp nothing).1 (by omega)
  refine .inr ⟨by omega, (if_pos (show 0 < remaining by omega)).mp isFlags, told.trans ?_⟩
  have entryIs : state.ledger.entryOf ref = (state.order ref).bookEntry := rfl
  have whole : (state.order ref).quantity =
    (state.order ref).leavesQuantity + (state.order ref).cumQuantity := whole
  have leavesPositive : 0 < (state.order ref).leavesQuantity := leavesPositive
  have ranked : (state.order ref).priority ≤ state.book.globals.nextPriority := ranked
  unfold amendedQty at isLeft
  rw [entryIs]
  unfold Order.bookEntry
  rw [terms.id, terms.side, terms.price, terms.priority, leaves]
  dsimp only
  rw [BookOrder.mk.injEq]
  unfold Order.requeues
  have replacedPrice : ((state.order ref).replace newPrice newQty).price = newPrice := rfl
  have replacedPriority : ((state.order ref).replace newPrice newQty).priority = (state.order ref).priority :=
    rfl
  rw [replacedPrice, replacedPriority]
  constructor
  · rintro ⟨-, -, -, samePrice, sameLeaves, samePriority⟩
    split at samePriority <;> rename_i moves
    · omega
    · simp only [Bool.or_eq_true, decide_eq_true_eq, not_or, not_not] at moves
      exact ⟨samePrice.symm, by omega, by omega⟩
  · rintro ⟨samePrice, sameQty, nothing⟩
    refine ⟨by omega, rfl, rfl, samePrice.symm, by omega, ?_⟩
    rw [if_neg]
    simp [samePrice, sameQty]

/-- An accepted amendment closes its event once, unless it fills the order, which closes it
twice, or leaves the order as it is. -/
theorem modifyOrder_closes (law : FlagsBatches β) (inv : state.ledger.Represents (.amending ref))
    (isAmend : (state.order ref).status = .pendingReplace)
    (goesOn : ¬ config.matchingEngine.Refuses state.book config.smpMode (state.order ref) newPrice
      (amendedQty (state.order ref) newQty)) {left reach price : Int}
    (isLeft : left = amendedQty (state.order ref) newQty)
    (isReach : reach = crossableQty (sweptSide (state.order ref).side) newPrice
      (state.book.ownOrders config.smpMode (state.order ref))
      (restingOrders state.book.l3 (sweptSide (state.order ref).side)))
    (changed : levelQty (restingOrders (state.modifyOrder env config ref newPrice newQty
      requestTime).2.2.book.l3 side) price ≠ levelQty (restingOrders state.book.l3 side) price) :
    Closing (state.modifyOrder env config ref newPrice newQty requestTime).2.2.book.endFlags ↔
      Unflagged state.book.endFlags ∧ ¬ (0 < left ∧ left ≤ reach) ∧
        ¬ (newPrice = (state.order ref).price ∧ newQty = (state.order ref).quantity ∧ reach = 0) := by
  obtain ⟨matched, settled, caches, batch, outcome⟩ :=
    modifyOrder_flags env requestTime law inv isAmend goesOn isLeft isReach
  have some := caches.ne_nil (modifyOrder_tells ..) changed
  rw [show (state.modifyOrder env config ref newPrice newQty requestTime).2.2.book.endFlags = _ from caches,
    closing_append some]
  obtain ⟨-, leavesPositive, -⟩ := (inv.agrees.at_ ref).rests (inv.indexed.resting_registered rfl)
    (by rintro ⟨⟩)
  have leavesPositive : 0 < (state.order ref).leavesQuantity := leavesPositive
  unfold amendedQty at isLeft
  refine and_congr_right fun _ => ?_
  rcases outcome with ⟨empty, rfl, settles⟩ | ⟨more, covered, closing, settles⟩ | ⟨short, quiet, still⟩
  · refine iff_of_true (batch.closing settles) ⟨by omega, ?_⟩
    rintro ⟨-, sameQty, -⟩
    omega
  · rw [closing_append settles]
    exact iff_of_false (fun both => closing.not_unflagged both.1) (fun both => both.1 ⟨more, covered⟩)
  · by_cases settles : settled = []
    · rw [settles, List.append_nil]
      exact iff_of_false quiet.not_closing (fun both => both.2 (still.mp settles))
    · rw [closing_append settles]
      exact iff_of_true ⟨quiet, batch.closing settles⟩
        ⟨by omega, fun same => settles (still.mpr same)⟩

/-! ## Cancels -/

theorem cancelOrder_closes (law : FlagsBatches β) {price : Int}
    (changed : levelQty (restingOrders (state.cancelOrder env ref requestTime).book.l3 side) price ≠
      levelQty (restingOrders state.book.l3 side) price) :
    Closing (state.cancelOrder env ref requestTime).book.endFlags ↔ Unflagged state.book.endFlags := by
  have caches : ∃ flags, Batch true flags ∧ Caches flags state.book (state.cancelOrder env ref requestTime).book := by
    unfold cancelOrder
    dsimp only
    obtain ⟨flags, batch, caches⟩ := OrderBook.deleteOrder_batches law (state.touchOrder env ref).book ref
      ((state.touchOrder env ref).order ref).lastUpdateTime 0 true
    exact ⟨flags, batch, (caches.since rfl).quiet rfl⟩
  obtain ⟨flags, batch, caches⟩ := caches
  have some := caches.ne_nil (cancelOrder_tells ..) changed
  rw [show (state.cancelOrder env ref requestTime).book.endFlags = _ from caches, closing_append some]
  exact and_iff_left (batch.closing some)

end MatchState

/-! ## The reference book -/

namespace ReferenceBook

variable (book : ReferenceBook)

private theorem batch_row (row : PriceLevelUpdate) : Batch row.lastInBatch [row.lastInBatch] where
  ends := by
    intro earlier last whole
    obtain ⟨rfl, sameLast⟩ := List.append_inj' (show [] ++ [row.lastInBatch] = _ from whole) rfl
    exact ⟨(List.singleton_inj.mp sameLast).symm, .nil⟩

private theorem remove_flags (order : BookOrder) (timestamp seqNum : Nat) (isLast : Bool) :
    Batch isLast (book.remove order timestamp seqNum isLast).flags :=
  batch_row (levelRow _ _ _ _ _ isLast)

private theorem deleteOrder_flags (orderId timestamp seqNum : Nat) (isLast : Bool) :
    Batch isLast (book.deleteOrder orderId timestamp seqNum isLast).flags := by
  unfold deleteOrder
  split
  · exact .nil
  · split
    · exact .nil
    · exact book.remove_flags ..

theorem flagsBatches : FlagsBatches ReferenceBook where
  addOrder book orderId side price quantity timestamp priority seqNum isLast := by
    show Batch isLast (book.addOrder orderId side price quantity timestamp priority seqNum isLast).flags
    unfold addOrder
    split
    · exact .nil
    · split
      · exact .nil
      · exact batch_row (levelRow _ _ _ _ _ isLast)
  modifyOrder book orderId newPrice newQuantity timestamp priority seqNum isLast := by
    show Batch isLast (book.modifyOrder orderId newPrice newQuantity timestamp priority seqNum isLast).flags
    unfold modifyOrder
    split
    · exact book.deleteOrder_flags ..
    split
    · exact .nil
    split
    · exact .nil
    unfold L3Result.flags
    dsimp only
    split
    · exact .nil
    split
    · exact batch_row (levelRow _ _ _ _ _ isLast)
    · refine ⟨fun earlier last whole => ?_⟩
      obtain ⟨rfl, sameLast⟩ := List.append_inj' (show [false] ++ [isLast] = _ from whole) rfl
      exact ⟨(List.singleton_inj.mp sameLast).symm, by simp [Unflagged]⟩
  deleteOrder book orderId timestamp seqNum isLast := book.deleteOrder_flags ..
  executeOrder book orderId executedQuantity timestamp seqNum isLast := by
    show Batch isLast (book.executeOrder orderId executedQuantity timestamp seqNum isLast).flags
    unfold executeOrder
    split
    · exact .nil
    split
    · exact .nil
    split
    · exact book.remove_flags ..
    · exact batch_row (levelRow _ _ _ _ _ isLast)
  modifyOrder_told book orderId newPrice newQuantity timestamp priority seqNum isLast := by
    show (book.modifyOrder orderId newPrice newQuantity timestamp priority seqNum isLast).levelUpdates = [] ↔
      (book.modifyOrder orderId newPrice newQuantity timestamp priority seqNum isLast).orderUpdates = []
    unfold modifyOrder deleteOrder
    split
    · split
      · exact iff_of_true rfl rfl
      · split
        · exact iff_of_true rfl rfl
        · simp [remove]
    split
    · exact iff_of_true rfl rfl
    split
    · exact iff_of_true rfl rfl
    dsimp only
    split
    · simp
    · split <;> simp

end ReferenceBook

/-! ## The level frame of a request -/

def MDFrame.levelFrame : MDFrame → Option (List MDLevel)
  | .level rows => some rows
  | _ => none

/-- The last row carries `F_END_EVENT` and no earlier one. -/
def ClosesEvent (rows : List MDLevel) : Prop :=
  Closing (rows.map fun row => row.flags.endEvent)

namespace Exchange

variable {β : Type}

/-- The level frames that were published since. -/
def levelFramesSince (before after : Exchange β) : List (List MDLevel) :=
  (after.mdQueue.drop before.mdQueue.length).filterMap MDFrame.levelFrame

/-- One level frame was published, and it closes the event. -/
def FrameCloses (before after : Exchange β) : Prop :=
  ∃ rows, before.levelFramesSince after = [rows] ∧ ClosesEvent rows

/-- Only frames of other kinds were published since. -/
def NoLevelFrame (before after : Exchange β) : Prop :=
  ∃ frames, after.mdQueue = before.mdQueue ++ frames ∧ frames.filterMap MDFrame.levelFrame = []

variable {first second third : Exchange β}

theorem NoLevelFrame.of_same (same : second.mdQueue = first.mdQueue) : first.NoLevelFrame second :=
  ⟨[], by rw [same, List.append_nil], rfl⟩

theorem NoLevelFrame.trans (left : first.NoLevelFrame second) (right : second.NoLevelFrame third) :
    first.NoLevelFrame third := by
  obtain ⟨frames, isFrames, none⟩ := left
  obtain ⟨later, isLater, noneLater⟩ := right
  exact ⟨frames ++ later, by rw [isLater, isFrames, List.append_assoc],
    by rw [List.filterMap_append, none, noneLater, List.append_nil]⟩

theorem publishTradeSummaries_noLevelFrame (exchange : Exchange β) (summaries : List TradeSummaryInfo) :
    exchange.NoLevelFrame (exchange.publishTradeSummaries summaries) := by
  induction summaries generalizing exchange with
  | nil => exact .of_same rfl
  | cons summary rest ih =>
      have one : exchange.NoLevelFrame (exchange.publishTradeSummary summary) :=
        ⟨[.tradeSummary exchange.nextVenueTradeId summary], rfl, rfl⟩
      exact one.trans (ih _)

/-- A flush publishes the cached rows in one frame. -/
theorem flush_frameCloses {before between : Exchange β} (noFrame : before.NoLevelFrame between) :
    before.FrameCloses between.flushMarketDataCaches ↔ Closing between.book.endFlags := by
  obtain ⟨frames, isFrames, none⟩ := noFrame
  have published : before.levelFramesSince between.flushMarketDataCaches =
      if between.book.mdLevelUpdateCache.isEmpty then [] else [between.book.mdLevelUpdateCache] := by
    unfold levelFramesSince
    rw [flushMarketDataCaches_mdQueue, isFrames, List.append_assoc, List.drop_left, List.filterMap_append, none]
    split <;> split <;> rfl
  unfold FrameCloses
  rw [published]
  split <;> rename_i empty
  · refine iff_of_false (by simp) fun closing => closing.ne_nil ?_
    unfold OrderBook.endFlags
    rw [List.isEmpty_iff.mp empty, List.map_nil]
  · constructor
    · rintro ⟨_, isRows, closes⟩
      obtain ⟨rfl, -⟩ := List.cons.inj isRows
      exact closes
    · exact fun closing => ⟨_, rfl, closing⟩

variable [OrderBookL3 β]

/-- Some level holds another quantity than before. -/
def ChangesLevel (before after : Exchange β) : Prop :=
  ∃ side price, levelQty (restingOrders after.book.l3 side) price ≠
    levelQty (restingOrders before.book.l3 side) price

theorem not_changesLevel_of_same {before after : Exchange β} (same : after.book.l3 = before.book.l3) :
    ¬ before.ChangesLevel after := by
  rintro ⟨side, price, changed⟩
  rw [same] at changed
  exact changed rfl

/-! ## Requests -/

variable {exchange : Exchange β} {env : Environment} {config : SymbolConfig} {header : RequestHeader}

omit [OrderBookL3 β] in
/-- A request that matched publishes its prints, its reject if there is one, and then the
caches. -/
private theorem settled_frameCloses {begun : Exchange β} (unframed : exchange.NoLevelFrame begun)
    (matching : MatchState β) (summaries : List TradeSummaryInfo) (rejects : Prop) [Decidable rejects]
    (reject : Exchange β → Exchange β)
    (same : ∀ between : Exchange β, (reject between).mdQueue = between.mdQueue ∧
      (reject between).book.mdLevelUpdateCache = between.book.mdLevelUpdateCache ∧
      (reject between).book.l3 = between.book.l3) {after : Exchange β}
    (isAfter : after = (if rejects then reject ({ begun with matching }.publishTradeSummaries summaries)
      else { begun with matching }.publishTradeSummaries summaries).flushMarketDataCaches) :
    (exchange.FrameCloses after ↔ Closing matching.book.endFlags) ∧ after.book.l3 = matching.book.l3 := by
  let published := { begun with matching }.publishTradeSummaries summaries
  have isMatching : published.matching = matching := publishTradeSummaries_matching _
  have printed : exchange.NoLevelFrame published :=
    unframed.trans (publishTradeSummaries_noLevelFrame { begun with matching } summaries)
  have settled : ∀ between : Exchange β, exchange.NoLevelFrame between →
      between.book.mdLevelUpdateCache = matching.book.mdLevelUpdateCache →
      between.book.l3 = matching.book.l3 →
      (exchange.FrameCloses between.flushMarketDataCaches ↔ Closing matching.book.endFlags) ∧
        between.flushMarketDataCaches.book.l3 = matching.book.l3 := by
    intro between noFrame sameCache sameL3
    refine ⟨(flush_frameCloses noFrame).trans (Eq.to_iff ?_), ?_⟩
    · unfold OrderBook.endFlags
      rw [sameCache]
    · show between.flushMarketDataCaches.matching.book.l3 = _
      rw [flushMarketDataCaches_matching]
      exact sameL3
  rw [isAfter]
  split
  · obtain ⟨queue, cache, l3⟩ := same published
    refine settled _ (printed.trans (.of_same queue)) (cache.trans ?_) (l3.trans ?_)
    · rw [Exchange.book, isMatching]
    · rw [Exchange.book, isMatching]
  · refine settled _ printed ?_ ?_
    · rw [Exchange.book, isMatching]
    · rw [Exchange.book, isMatching]

section NewOrder

variable {msg : AddOrderMessage}

omit [OrderBookL3 β] in
private theorem acceptOrder_unframed (exchange : Exchange β) (env : Environment) (config : SymbolConfig)
    (header : RequestHeader) (msg : AddOrderMessage) :
    exchange.NoLevelFrame (exchange.acceptOrder env config header msg) ∧
      (exchange.acceptOrder env config header msg).book.mdLevelUpdateCache = exchange.book.mdLevelUpdateCache ∧
      (exchange.acceptOrder env config header msg).book.l3 = exchange.book.l3 := by
  unfold acceptOrder clientIdFor
  dsimp only
  split
  · exact ⟨.of_same rfl, rfl, rfl⟩
  · split <;> exact ⟨.of_same rfl, rfl, rfl⟩

/-- A new order closes its event unless flagged rows were left in the cache. -/
theorem newOrder_frameCloses (law : FlagsBatches β) (inv : exchange.ledger.Represents .none)
    (admitted : exchange.book.findOrderByOrderId (env.uuid exchange.book.globals.uuidDraws) = none)
    (changes : exchange.ChangesLevel (exchange.handleNewOrderRequest env config header msg)) :
    exchange.FrameCloses (exchange.handleNewOrderRequest env config header msg) ↔
      Unflagged exchange.book.endFlags := by
  by_cases wrong : header.symbol ≠ config.symbol ∨ exchange.ClientIdTaken msg.clientOrderId
  · obtain ⟨reason, rejected⟩ := @handleNewOrderRequest_rejects _ _ exchange env config header msg wrong
    rw [rejected] at changes
    exact absurd changes (not_changesLevel_of_same rfl)
  have listed : header.symbol = config.symbol := by
    by_contra unlisted
    exact wrong (.inl unlisted)
  have free : ¬ exchange.ClientIdTaken msg.clientOrderId := fun taken => wrong (.inr taken)
  have accepts : Micro env .all (.none, exchange.ledger)
      (.pending (env.pool exchange.book.live), (exchange.acceptOrder env config header msg).ledger) :=
    acceptOrder_micro header msg (byClient_of_free free) admitted trivial
  have isNew : ((exchange.acceptOrder env config header msg).matching.order
      (env.pool exchange.book.live)).status = .pendingNew := by
    rw [acceptOrder_order]
    rfl
  obtain ⟨unframed, sameCache, sameL3⟩ := acceptOrder_unframed exchange env config header msg
  let result := (exchange.acceptOrder env config header msg).matching.addOrder env config
    (env.pool exchange.book.live) header.timeStamp
  obtain ⟨frame, l3⟩ := settled_frameCloses unframed result.2.2 result.2.1
    (result.1 ≠ .none ∧ result.1 ≠ .fokCannotFill)
    (fun between => between.onMatching fun state => state.rejectNewOrderRequest env header msg result.1)
    (fun _ => ⟨rfl, rfl, rfl⟩) (handleNewOrderRequest_eq listed free)
  obtain ⟨side, price, changed⟩ := changes
  rw [l3, ← sameL3] at changed
  rw [frame, show exchange.book.endFlags = (exchange.acceptOrder env config header msg).book.endFlags from
    congrArg (List.map _) sameCache.symm]
  exact MatchState.addOrder_closes law (accepts.represents inv) isNew changed

end NewOrder

/-- An amendment for more than is filled, and for no more than it can trade, of the order
it names. -/
def FillsAmended (exchange : Exchange β) (config : SymbolConfig) (ref : Nat) (newPrice newQty : Int) : Prop :=
  0 < amendedQty (exchange.matching.order ref) newQty ∧
    amendedQty (exchange.matching.order ref) newQty ≤ exchange.crossable config ref newPrice

/-- An amendment to the terms an order has that can trade nothing. -/
def AmendsNothing (exchange : Exchange β) (config : SymbolConfig) (ref : Nat) (newPrice newQty : Int) : Prop :=
  newPrice = (exchange.matching.order ref).price ∧ newQty = (exchange.matching.order ref).quantity ∧
    exchange.crossable config ref newPrice = 0

/-- A request that would not close its event by itself. -/
def MisclosesEvent (exchange : Exchange β) (config : SymbolConfig) : Input → Prop
  | .amend _ msg => ∃ ref ∈ selectOrder exchange.book msg.clientOrderId msg.orderId,
      exchange.FillsAmended config ref msg.newPrice msg.newQty ∨
        exchange.AmendsNothing config ref msg.newPrice msg.newQty
  | _ => False

instance (input : Input) : Decidable (exchange.MisclosesEvent config input) :=
  match input with
  | .amend .. => inferInstanceAs (Decidable (∃ ref ∈ _, (_ ∧ _) ∨ _ ∧ _ ∧ _))
  | .newOrder .. | .cancel .. | .level2Snapshot .. | .coinbaseEvent .. | .l2Snapshot .. | .l2Diff ..
  | .trades .. | .marketOrder .. | .marketTrade .. | .flushMarketEvents | .subscribe .. | .subscribeServed | .elsewhere .. =>
      isFalse id

section Amend

variable {msg : ModifyOrderMessage}

theorem amend_frameCloses (law : FlagsBatches β) (inv : exchange.ledger.Represents .none)
    (changes : exchange.ChangesLevel (exchange.handleModifyOrderRequest env config header msg)) :
    exchange.FrameCloses (exchange.handleModifyOrderRequest env config header msg) ↔
      Unflagged exchange.book.endFlags ∧ ¬ exchange.MisclosesEvent config (.amend header msg) := by
  by_cases unknown : header.symbol ≠ config.symbol ∨
      selectOrder exchange.book msg.clientOrderId msg.orderId = none
  · obtain ⟨reason, -, rejected⟩ := @handleModifyOrderRequest_unknown _ _ exchange env config header msg unknown
    rw [rejected] at changes
    exact absurd changes (not_changesLevel_of_same rfl)
  obtain ⟨listed, known⟩ := not_or.mp unknown
  have listed : header.symbol = config.symbol := not_not.mp listed
  obtain ⟨ref, selected⟩ := Option.ne_none_iff_exists'.mp known
  have registered := selectOrder_registered inv selected
  let marked := exchange.markReplace env header ref
  have markedInv : marked.ledger.Represents (.amending ref) :=
    beginAmend_represents header.requestTag header.timeStamp inv registered
  have isAmend : (marked.matching.order ref).status = .pendingReplace := by
    rw [markReplace_self]
    rfl
  have sameOwn : marked.matching.book.ownOrders config.smpMode (marked.matching.order ref) =
      exchange.book.ownOrders config.smpMode (exchange.matching.order ref) :=
    MatchingEngine.ownOrders_congr rfl markReplace_order (markReplace_order ref)
  let result := marked.matching.modifyOrder env config ref msg.newPrice msg.newQty header.timeStamp
  obtain ⟨frame, l3⟩ := settled_frameCloses (show exchange.NoLevelFrame marked from .of_same rfl)
    result.2.2 result.2.1 (result.1 ≠ .none)
    (fun between => (between.onBook fun book => book.updateOrder ref fun order =>
      { order with requestTag := (exchange.matching.order ref).requestTag }).onMatching fun state =>
        state.rejectModifyOrderRequest env header msg result.1)
    (fun _ => ⟨rfl, rfl, rfl⟩) (handleModifyOrderRequest_eq listed selected)
  obtain ⟨side, price, changed⟩ := changes
  rw [l3] at changed
  have isResult : result = marked.matching.modifyOrder env config ref msg.newPrice msg.newQty
    header.timeStamp := rfl
  by_cases refuses : exchange.RefusesAmend config ref msg.newPrice msg.newQty
  · have left : (marked.matching.order ref).leavesQuantity ≠ 0 := by
      rw [markReplace_self]
      exact Int.ne_of_gt ((inv.agrees.at_ ref).rests registered (by rintro ⟨⟩)).2.1
    rw [isResult, MatchState.modifyOrder_refused env header.timeStamp isAmend left
      ((markReplace_refuses msg.newPrice msg.newQty).mpr refuses)] at changed
    exact absurd rfl changed
  have goesOn : ¬ config.matchingEngine.Refuses marked.matching.book config.smpMode
      (marked.matching.order ref) msg.newPrice (amendedQty (marked.matching.order ref) msg.newQty) :=
    fun refused => refuses ((markReplace_refuses msg.newPrice msg.newQty).mp refused)
  rw [frame, MatchState.modifyOrder_closes law markedInv isAmend goesOn rfl rfl changed, sameOwn,
    markReplace_self]
  refine and_congr (Eq.to_iff rfl) (not_or.symm.trans (not_congr ?_))
  constructor
  · exact fun miscloses => ⟨ref, selected, miscloses⟩
  · rintro ⟨other, sameOrder, miscloses⟩
    obtain rfl := Option.some.inj (selected.symm.trans sameOrder)
    exact miscloses

end Amend

section Cancel

variable {msg : CancelOrderMessage}

theorem cancel_frameCloses (law : FlagsBatches β)
    (changes : exchange.ChangesLevel (exchange.handleCancelOrderRequest env config header msg)) :
    exchange.FrameCloses (exchange.handleCancelOrderRequest env config header msg) ↔
      Unflagged exchange.book.endFlags := by
  by_cases unknown : header.symbol ≠ config.symbol ∨
      selectOrder exchange.book msg.clientOrderId msg.orderId = none
  · obtain ⟨reason, -, rejected⟩ := @handleCancelOrderRequest_unknown _ _ exchange env config header msg unknown
    rw [rejected] at changes
    exact absurd changes (not_changesLevel_of_same rfl)
  obtain ⟨listed, known⟩ := not_or.mp unknown
  have listed : header.symbol = config.symbol := not_not.mp listed
  obtain ⟨ref, selected⟩ := Option.ne_none_iff_exists'.mp known
  let begun := (exchange.onBook fun book => book.updateOrder ref (beginCancel header.requestTag)).matching
    |>.sendOrderCancelPending env ref header.timeStamp
  let between := exchange.onMatching fun _ => begun.cancelOrder env ref header.timeStamp
  have handled : exchange.handleCancelOrderRequest env config header msg = between.flushMarketDataCaches := by
    unfold handleCancelOrderRequest
    rw [if_neg (fun unlisted => unlisted listed), selected]
    rfl
  obtain ⟨side, price, changed⟩ := changes
  rw [handled] at changed ⊢
  rw [Exchange.book, flushMarketDataCaches_matching] at changed
  rw [flush_frameCloses (show exchange.NoLevelFrame between from .of_same rfl)]
  show Closing (begun.cancelOrder env ref header.timeStamp).book.endFlags ↔ Unflagged begun.book.endFlags
  exact MatchState.cancelOrder_closes law changed

end Cancel

/-! ## Every request -/

/-- The level frame of a request closes its event once, at its last row, exactly if no
flagged row was left in the cache and the request is none of the amendments that do not. -/
theorem request_frameCloses_iff (law : FlagsBatches β) {allowed : Exchange β → Input → Prop}
    (reachable : Reachable env config allowed exchange) {input : Input} (isRequest : input.isRequest = true)
    (admitted : exchange.Admits env input) (changes : exchange.ChangesLevel (exchange.step env config input)) :
    exchange.FrameCloses (exchange.step env config input) ↔
      Unflagged exchange.book.endFlags ∧ ¬ exchange.MisclosesEvent config input := by
  have inv := reachable.represents.1
  have harmless : ¬ False := id
  cases input with
  | newOrder header msg =>
      exact (newOrder_frameCloses law inv admitted changes).trans (and_iff_left harmless).symm
  | amend header msg => exact amend_frameCloses law inv changes
  | cancel header msg => exact (cancel_frameCloses law changes).trans (and_iff_left harmless).symm
  | level2Snapshot seqNum updates => cases isRequest
  | coinbaseEvent event => cases isRequest
  | l2Snapshot snapshot => cases isRequest
  | l2Diff diff => cases isRequest
  | trades trades => cases isRequest
  | marketOrder event => cases isRequest
  | marketTrade event => cases isRequest
  | flushMarketEvents => cases isRequest
  | subscribe level2 l2Book l2 => cases isRequest
  | subscribeServed => cases isRequest
  | elsewhere draws => cases isRequest

/-- An amendment that trades with an offer and rests with the remainder. -/
theorem frameCloses_amendedPartly :
    let env : Environment := .counted fun _ => default
    let config : SymbolConfig := .reference .cancelResting
    let exchange := (Exchange.new (fun _ => default) true : Exchange ReferenceBook).run env config
      [.limit 1 .buy 100 10, .limit 2 .sell 101 4]
    exchange.FrameCloses (exchange.step env config (.reprice 1 101 6)) := by
  intro env config exchange
  have start : Reachable env config (fun _ _ => True) (Exchange.new (fun _ => default) true :
      Exchange ReferenceBook) := .new _ _
  have reachable : Reachable env config (fun _ _ => True) exchange := start.run (by decide +kernel)
  have empty : exchange.book.endFlags = [] := by decide +kernel
  refine (request_frameCloses_iff ReferenceBook.flagsBatches reachable rfl (by decide +kernel)
    ⟨.sell, 101, by decide +kernel⟩).mpr ⟨?_, by decide +kernel⟩
  rw [empty]
  exact .nil

/-- An amendment that fills its order completely flags the row of the fill and the row of
the level its order leaves. -/
theorem not_frameCloses_amendedFully :
    let env : Environment := .counted fun _ => default
    let config : SymbolConfig := .reference .none
    let exchange := (Exchange.new (fun _ => default) true : Exchange ReferenceBook).run env config
      [.limit 1 .buy 100 4, .limit 2 .sell 101 4]
    let after := exchange.step env config (.reprice 1 101 4)
    exchange.ChangesLevel after ∧ ¬ exchange.FrameCloses after := by
  intro env config exchange after
  refine ⟨⟨.sell, 101, by decide +kernel⟩, ?_⟩
  have flags : (exchange.levelFramesSince after).map (List.map fun row => row.flags.endEvent) =
      [[true, true]] := by
    decide +kernel
  rintro ⟨rows, isRows, earlier, whole, quiet⟩
  rw [isRows] at flags
  have flags : rows.map (fun row => row.flags.endEvent) = [true, true] := List.singleton_inj.mp flags
  rw [flags] at whole
  obtain ⟨rfl, -⟩ := List.append_inj' (show [true] ++ [true] = _ from whole) rfl
  cases quiet true (List.mem_singleton_self _)

end Exchange

end SlickSim
