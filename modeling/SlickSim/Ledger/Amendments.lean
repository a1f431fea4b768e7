import SlickSim.Ledger.Requests

/-!
# Amendments and cancels on the ledger

The ledger counterparts of `Symbol::modifyOrder` and of the two handlers that
work on a resting order. An amendment that is not refused replaces the order's
terms, sweeps, and settles: the order rests again or leaves.
-/

set_option autoImplicit false

namespace SlickSim

open OrderBookL3 (Regresses restingOrders)
open MatchingEngine (SweptTo sweptSide amendedQty)

namespace Ledger

def beginAmend (ledger : Ledger) (env : Environment) (ref requestTag requestTime : Nat) : Ledger :=
  let marked := { ledger with globals := ledger.globals.readClock }.updateOrder ref
    (Order.touch .pendingReplace (env.clock ledger.globals.clockReads) requestTag)
  marked.publish env fun slot => slot.writeReplacePending (marked.heap ref) requestTime

def replaceOrder (ledger : Ledger) (env : Environment) (ref : Nat) (newPrice newQty : Int)
    (requestTime : Nat) : Ledger :=
  (ledger.updateOrder ref (Order.replace newPrice newQty)).publish env fun slot =>
    slot.writeModify ((ledger.heap ref).replace newPrice newQty) newPrice newQty requestTime

def reportCancel (ledger : Ledger) (env : Environment) (ref requestTime : Nat) : Ledger :=
  ledger.publish env fun slot => slot.writeCancel (ledger.heap ref) requestTime

def touchOrder (ledger : Ledger) (env : Environment) (ref : Nat) : Ledger :=
  { ledger with globals := ledger.globals.readClock }.updateOrder ref fun order =>
    { order with lastUpdateTime := env.clock ledger.globals.clockReads }

def requeueOrder (ledger : Ledger) (ref : Nat) : Ledger :=
  { ledger with
    globals := { ledger.globals with nextPriority := ledger.globals.nextPriority + 1 }
    joins := ledger.joins ++ [(ledger.heap ref).id] }.updateOrder ref
      (Order.withPriority (ledger.globals.nextPriority + 1))

/-- The L3 book and the maps follow an amended order. -/
def followOrder (ledger : Ledger) (ref timestamp : Nat) : Ledger :=
  if (ledger.heap ref).leavesQuantity = 0 then
    ((ledger.placeEntry (ledger.heap ref).id none timestamp).unregisterOrder ref).freeOrder ref
  else ledger.placeEntry (ledger.heap ref).id (some (ledger.entryOf ref)) timestamp

/-- What an amendment does once the order has matched. -/
def settleAmend (swept : Ledger) (env : Environment) (ref requestTime : Nat) (closes requeue : Bool) :
    Ledger :=
  let closed := if closes then swept.reportCancel env ref requestTime else swept
  let touched := closed.touchOrder env ref
  let ranked := if requeue then touched.requeueOrder ref else touched
  ranked.followOrder ref (touched.heap ref).lastUpdateTime

section Settled

variable (swept : Ledger) (env : Environment) (ref requestTime : Nat) (closes requeue : Bool)

private theorem settleAmend_ranked :
    ∃ (ranked : Ledger) (timestamp : Nat),
      swept.settleAmend env ref requestTime closes requeue = ranked.followOrder ref timestamp ∧
      ranked.entry = swept.entry ∧ ranked.owner = swept.owner ∧
      ranked.responses = (if closes then swept.reportCancel env ref requestTime else swept).responses ∧
      ∃ stamp priority, ranked.heap ref =
        { swept.heap ref with lastUpdateTime := stamp, priority } := by
  let closed := if closes then swept.reportCancel env ref requestTime else swept
  have same : closed.heap = swept.heap ∧ closed.entry = swept.entry ∧ closed.owner = swept.owner := by
    show Ledger.heap (if closes then _ else _) = _ ∧ Ledger.entry (if closes then _ else _) = _ ∧
      Ledger.owner (if closes then _ else _) = _
    split <;> exact ⟨rfl, rfl, rfl⟩
  have touched : (closed.touchOrder env ref).heap ref =
      { swept.heap ref with lastUpdateTime := env.clock closed.globals.clockReads } := by
    rw [← same.1]
    exact Function.update_self ..
  refine ⟨if requeue then (closed.touchOrder env ref).requeueOrder ref else closed.touchOrder env ref, _,
    rfl, ?_, ?_, ?_, ?_⟩
  · cases requeue <;> exact same.2.1
  · cases requeue <;> exact same.2.2
  · cases requeue <;> rfl
  · cases requeue with
    | false => exact ⟨_, (swept.heap ref).priority, touched⟩
    | true =>
        have requeued : ((closed.touchOrder env ref).requeueOrder ref).heap ref =
            { (closed.touchOrder env ref).heap ref with
              priority := (closed.touchOrder env ref).globals.nextPriority + 1 } := Function.update_self ..
        rw [touched] at requeued
        exact ⟨_, _, requeued⟩

theorem settleAmend_order :
    ∃ stamp priority, (swept.settleAmend env ref requestTime closes requeue).heap ref =
      { swept.heap ref with lastUpdateTime := stamp, priority } := by
  obtain ⟨ranked, timestamp, isRanked, -, -, -, stamp, priority, self⟩ :=
    settleAmend_ranked swept env ref requestTime closes requeue
  refine ⟨stamp, priority, ?_⟩
  rw [isRanked]
  unfold followOrder
  split <;> exact self

theorem settleAmend_responses :
    (swept.settleAmend env ref requestTime closes requeue).responses =
      (if closes then swept.reportCancel env ref requestTime else swept).responses := by
  obtain ⟨ranked, timestamp, isRanked, -, -, responses, -⟩ := settleAmend_ranked swept env ref requestTime closes requeue
  rw [isRanked, ← responses]
  unfold followOrder
  split <;> rfl

theorem settleAmend_gone (filled : (swept.heap ref).leavesQuantity = 0) :
    (swept.settleAmend env ref requestTime closes requeue).entry =
        Function.update swept.entry (swept.heap ref).id none ∧
      (swept.settleAmend env ref requestTime closes requeue).owner =
        Function.update swept.owner (swept.heap ref).id none := by
  obtain ⟨ranked, timestamp, isRanked, entry, owner, -, stamp, priority, self⟩ :=
    settleAmend_ranked swept env ref requestTime closes requeue
  rw [isRanked]
  unfold followOrder
  rw [self, if_pos filled]
  constructor
  · show Function.update ranked.entry _ none = _
    rw [entry]
  · show Function.update ranked.owner (ranked.heap ref).id none = _
    rw [owner, self]

theorem settleAmend_rests (left : (swept.heap ref).leavesQuantity ≠ 0) :
    (∃ resting, (swept.settleAmend env ref requestTime closes requeue).entry =
        Function.update swept.entry (swept.heap ref).id (some resting) ∧
        resting.price = (swept.heap ref).price) ∧
      (swept.settleAmend env ref requestTime closes requeue).owner = swept.owner := by
  obtain ⟨ranked, timestamp, isRanked, entry, owner, -, stamp, priority, self⟩ :=
    settleAmend_ranked swept env ref requestTime closes requeue
  rw [isRanked]
  unfold followOrder
  rw [self, if_neg left]
  refine ⟨⟨ranked.entryOf ref, ?_, ?_⟩, owner⟩
  · show Function.update ranked.entry _ _ = _
    rw [entry]
  · unfold entryOf
    rw [self]
    rfl

end Settled

section Micros

variable {env : Environment} {permit : Permit} {ledger : Ledger} {ref : Nat}

theorem replaceOrder_micro (requestTime : Nat) {newPrice newQty : Int}
    (permitted : permit.replace ledger ref newPrice newQty) :
    Micro env permit (.amending ref, ledger)
      (.replaced ref (decide (newQty ≤ (ledger.heap ref).cumQuantity)),
        ledger.replaceOrder env ref newPrice newQty requestTime) := by
  have replaces := @Micro.replace env permit ledger ref requestTime newPrice newQty permitted _ rfl
  rw [updateOrder_heap_self] at replaces
  exact replaces

theorem replaceOrder_represents (requestTime : Nat) {newPrice newQty : Int}
    (inv : ledger.Represents (.amending ref)) :
    (ledger.replaceOrder env ref newPrice newQty requestTime).Represents (.amended ref) := by
  have replaced := (replaceOrder_micro requestTime (show Permit.all.replace ledger ref newPrice newQty from
    trivial) : Micro env _ _ _).represents inv
  refine replaced.rehand (by simp; rfl) (by simp; rfl) ?_
  rintro _ ⟨⟩
  exact replaced.indexed.resting_registered (Hand.replaced_resting ..)

/-- Only the clock and the stamp move. -/
theorem touchOrder_micros (hand : Hand) :
    Micros env permit (hand, ledger) (hand, ledger.touchOrder env ref) := by
  have ticks : Micro env permit (hand, ledger)
      (hand, { ledger with globals := ledger.globals.readClock }) :=
    .sweep (show Sweep env hand .buy _ _ from .tick (Globals.le_readClock _))
  have touches := @Micro.touch env permit hand { ledger with globals := ledger.globals.readClock } ref
    (ledger.heap ref).status (env.clock ledger.globals.clockReads) (ledger.heap ref).requestTag
  exact .head ticks (.single touches)

private theorem followOrder_micro {hand : Hand} (timestamp : Nat) (requeue : Bool)
    (held : hand = .amended ref ∨ hand = .closing ref)
    (nonneg : 0 ≤ (ledger.heap ref).leavesQuantity)
    (settled : 0 < (ledger.heap ref).leavesQuantity →
      ledger.Beyond (toBookSide (ledger.heap ref).side).opposite (ledger.heap ref).price)
    (kept : requeue = false → ∀ resting, ledger.entry (ledger.heap ref).id = some resting →
      resting.price = (ledger.heap ref).price ∧ (ledger.heap ref).leavesQuantity ≤ resting.quantity)
    (mayRest : 0 < (ledger.heap ref).leavesQuantity → permit.amendRests ledger ref)
    (mayJoin : requeue = true → 0 < (ledger.heap ref).leavesQuantity →
      permit.join ledger ((ledger.requeueOrder ref).entryOf ref)) :
    Micro env permit (hand, ledger)
      (.none, (if requeue then ledger.requeueOrder ref else ledger).followOrder ref timestamp) := by
  -- Keeping one's place is taking the priority one has.
  have ranked : ∃ globals priority joined, ledger.globals.Le globals ∧
      (if requeue then ledger.requeueOrder ref else ledger) =
        { ledger with globals, joins := ledger.joins ++ joined }.updateOrder ref
          (Order.withPriority priority) ∧
      (requeue = false ∧ priority = (ledger.heap ref).priority ∧ joined = [] ∨
        requeue = true ∧ ledger.globals.nextPriority < globals.nextPriority ∧
          priority = globals.nextPriority ∧ joined = [(ledger.heap ref).id]) := by
    cases requeue with
    | false =>
        refine ⟨ledger.globals, (ledger.heap ref).priority, [], .refl _, ?_, .inl ⟨rfl, rfl, rfl⟩⟩
        rw [List.append_nil]
        exact (updateOrder_same rfl).symm
    | true =>
        exact ⟨{ ledger.globals with nextPriority := ledger.globals.nextPriority + 1 }, _,
          [(ledger.heap ref).id], ⟨Nat.le_succ _, le_rfl, le_rfl, le_rfl, le_rfl⟩, rfl,
          .inr ⟨rfl, Nat.lt_succ_self _, rfl, rfl⟩⟩
  obtain ⟨globals, priority, joined, later, isRanked, place⟩ := ranked
  generalize rankedIs : (if requeue then ledger.requeueOrder ref else ledger) = ranked at isRanked ⊢
  have self : ranked.heap ref = (ledger.heap ref).withPriority priority := by
    rw [isRanked]
    exact updateOrder_heap_self _
  have sameId : (ranked.heap ref).id = (ledger.heap ref).id := by
    rw [self]
    rfl
  unfold followOrder
  rw [sameId, show (ranked.heap ref).leavesQuantity = (ledger.heap ref).leavesQuantity by rw [self]; rfl]
  split <;> rename_i drained
  · refine .amendGone held later drained ?_ isRanked
    rcases place with ⟨-, -, rfl⟩ | ⟨-, -, -, rfl⟩
    · rintro _ ⟨⟩
    · intro id member
      exact List.mem_singleton.mp member
  · have left : 0 < (ledger.heap ref).leavesQuantity := by omega
    refine .amendRests held later left (settled left) isRanked ?_ (mayRest left)
    rcases place with ⟨stays, samePriority, none_joins⟩ | ⟨moves, drawn, isDrawn, joins⟩
    · exact .inl ⟨samePriority, none_joins, kept stays⟩
    · refine .inr ⟨drawn, isDrawn, joins, ?_⟩
      rw [if_pos moves] at rankedIs
      rw [← rankedIs]
      exact mayJoin moves left

theorem settleAmend_micros {swept : Ledger} {start : Hand} (requestTime : Nat) (closes requeue : Bool)
    (nonneg : 0 ≤ (swept.heap ref).leavesQuantity)
    (unrestable : closes = true → start = .emptied ref ∨ start = .amended ref ∧
      0 < (swept.heap ref).leavesQuantity ∧ (swept.heap ref).price = nullPrice)
    (restable : closes = false → start = .amended ref)
    (settled : 0 < (swept.heap ref).leavesQuantity →
      swept.Beyond (toBookSide (swept.heap ref).side).opposite (swept.heap ref).price)
    (kept : requeue = false → ∀ resting, swept.entry (swept.heap ref).id = some resting →
      resting.price = (swept.heap ref).price ∧ (swept.heap ref).leavesQuantity ≤ resting.quantity)
    {touched : Ledger}
    (isTouched : touched =
      (if closes then swept.reportCancel env ref requestTime else swept).touchOrder env ref)
    (mayRest : 0 < (swept.heap ref).leavesQuantity → permit.amendRests touched ref)
    (mayJoin : requeue = true → 0 < (swept.heap ref).leavesQuantity →
      permit.join touched ((touched.requeueOrder ref).entryOf ref)) :
    Micros env permit (start, swept)
      (.none, swept.settleAmend env ref requestTime closes requeue) := by
  generalize closedIs : (if closes then swept.reportCancel env ref requestTime else swept) = closed at isTouched
  have closing : ∃ hand, (hand = .amended ref ∨ hand = .closing ref) ∧
      Micros env permit (start, swept) (hand, closed) := by
    cases closes with
    | false => exact ⟨_, .inl (restable rfl), by rw [← closedIs]; exact .refl⟩
    | true => exact ⟨_, .inr rfl, by rw [← closedIs]; exact .single (.cancelAmended (unrestable rfl))⟩
  obtain ⟨hand, held, closing⟩ := closing
  have sameHeap : closed.heap = swept.heap := by rw [← closedIs]; split <;> rfl
  have sameEntry : touched.entry = swept.entry := by
    rw [isTouched, ← closedIs]
    split <;> rfl
  have self : touched.heap ref =
      { swept.heap ref with lastUpdateTime := env.clock closed.globals.clockReads } := by
    rw [isTouched, ← sameHeap]
    exact updateOrder_heap_self _
  have finish := @followOrder_micro env permit touched ref hand (touched.heap ref).lastUpdateTime requeue
    held (by rw [self]; exact nonneg)
    (by
      rw [self]
      intro left id resting found
      rw [sameEntry] at found
      exact settled left id resting found)
    (by rw [self, sameEntry]; exact kept) (by rw [self]; exact mayRest) (by rw [self]; exact mayJoin)
  have settledIs : swept.settleAmend env ref requestTime closes requeue =
      (if requeue then touched.requeueOrder ref else touched).followOrder ref
        (touched.heap ref).lastUpdateTime := by
    unfold settleAmend
    rw [closedIs, isTouched]
  rw [settledIs]
  rw [isTouched] at finish ⊢
  exact (closing.trans (touchOrder_micros hand)).tail finish

end Micros

end Ledger

namespace Order

/-- An amendment of the price or a larger quantity loses the order's place. -/
def requeues (order : Order) (newPrice newQty : Int) : Bool :=
  decide (newPrice ≠ order.price) || decide (newQty > order.quantity)

end Order

namespace MatchState

variable {β : Type} [OrderBookL3 β] {state : MatchState β} {env : Environment} {permit : Permit}
  {ref requestTime : Nat} {newPrice newQty : Int}

@[simp] theorem touchOrder_ledger (state : MatchState β) (env : Environment) (ref : Nat) :
    (state.touchOrder env ref).ledger = state.ledger.touchOrder env ref := rfl

def settleAmend (state : MatchState β) (env : Environment) (ref : Nat) (newPrice : Int)
    (requeue : Bool) : MatchState β :=
  let touched := state.touchOrder env ref
  let ranked := if requeue then
      touched.onBook fun book =>
        let book := book.nextOrderPriority
        (book.updateOrder ref fun order =>
          { order with priority := book.globals.nextPriority }).noteJoin (book.heap ref).id
    else touched
  let moved := ranked.onBook fun book => book.modifyOrder ref newPrice (ranked.order ref).quantity
    (ranked.order ref).lastUpdateTime 0 true
  if (moved.order ref).leavesQuantity = 0 then moved.onBook fun book => book.freeOrder ref else moved

theorem settleAmend_responses (state : MatchState β) (env : Environment) (ref : Nat) (newPrice : Int)
    (requeue : Bool) : (state.settleAmend env ref newPrice requeue).responses = state.responses := by
  unfold settleAmend
  dsimp only
  split <;> split <;> rfl

theorem settleAmend_ledger (requeue : Bool) (inv : state.ledger.Represents (.amended ref))
    (price : (state.order ref).price = newPrice) (nonneg : 0 ≤ (state.order ref).leavesQuantity) :
    (state.settleAmend env ref newPrice requeue).ledger =
      let ledger := state.ledger.touchOrder env ref
      (if requeue then ledger.requeueOrder ref else ledger).followOrder ref
        (ledger.heap ref).lastUpdateTime := by
  let touched := state.touchOrder env ref
  let ranked := if requeue then
      touched.onBook fun book =>
        let book := book.nextOrderPriority
        (book.updateOrder ref fun order =>
          { order with priority := book.globals.nextPriority }).noteJoin (book.heap ref).id
    else touched
  let moved := ranked.onBook fun book => book.modifyOrder ref newPrice (ranked.order ref).quantity
    (ranked.order ref).lastUpdateTime 0 true
  have registered : state.ledger.Registered ref := inv.indexed.resting_registered rfl
  obtain ⟨⟨resting, rests, sameSide⟩, -, -⟩ := (inv.agrees.at_ ref).lags rfl
  obtain ⟨somePriority, -⟩ := (inv.agrees.at_ ref).ranked registered
  have keyed : resting.orderId = (state.order ref).id := inv.indexed.entry_id rests
  let ledger := state.ledger.touchOrder env ref
  let rankedLedger := if requeue then ledger.requeueOrder ref else ledger
  have isRanked : ranked.ledger = rankedLedger := by
    show MatchState.ledger (if requeue then _ else touched) = if requeue then _ else ledger
    split <;> rfl
  -- The order as the book finds it: only its stamp and its priority moved.
  have self : ∃ stamp priority, 0 < priority ∧ ranked.order ref =
      { state.order ref with lastUpdateTime := stamp, priority } ∧
      stamp = (ledger.heap ref).lastUpdateTime := by
    have touchedSelf : touched.order ref =
        { state.order ref with lastUpdateTime := state.book.currentTime env } := Function.update_self ..
    have stampIs : state.book.currentTime env = (ledger.heap ref).lastUpdateTime :=
      (congrArg Order.lastUpdateTime touchedSelf).symm
    cases requeue with
    | false => exact ⟨_, (state.order ref).priority, somePriority, touchedSelf, stampIs⟩
    | true =>
        have rankedSelf : ranked.order ref =
            { touched.order ref with priority := touched.book.globals.nextPriority + 1 } :=
          Function.update_self ..
        rw [touchedSelf] at rankedSelf
        exact ⟨_, _, Nat.succ_pos _, rankedSelf, stampIs⟩
  obtain ⟨stamp, priority, positivePriority, self, stampIs⟩ := self
  have entries : ranked.ledger.entry = state.ledger.entry ∧ ranked.ledger.owner = state.ledger.owner := by
    rw [isRanked]
    show (if requeue then _ else ledger).entry = _ ∧ (if requeue then _ else ledger).owner = _
    split <;> exact ⟨rfl, rfl⟩
  have rankedIn : ranked.ledger.Registered ref := by
    show ranked.ledger.owner (ranked.order ref).id = some ref
    rw [entries.2, self]
    exact registered
  have rankedRests : ranked.ledger.entry (ranked.book.heap ref).id = some resting := by
    rw [entries.1, show ranked.book.heap ref = _ from self]
    exact rests
  have rankedHeap : rankedLedger.heap ref = ranked.order ref := by
    rw [← isRanked]
    rfl
  have rankedPrice : newPrice = (ranked.book.heap ref).price := by
    rw [show ranked.book.heap ref = _ from self, ← price]
  have current : ¬ Regresses ranked.book.l3 0 := fun stale => stale.1.false
  have timestamp : (ranked.order ref).lastUpdateTime = (ledger.heap ref).lastUpdateTime := by
    rw [self, stampIs]
  show MatchState.ledger (if (moved.order ref).leavesQuantity = 0 then
    moved.onBook fun book => book.freeOrder ref else moved) =
      rankedLedger.followOrder ref (ledger.heap ref).lastUpdateTime
  unfold Ledger.followOrder
  rw [rankedHeap, ← timestamp, ← isRanked]
  by_cases drained : (ranked.order ref).leavesQuantity = 0
  · have gone : moved.ledger =
        (ranked.ledger.placeEntry (ranked.order ref).id none
          (ranked.order ref).lastUpdateTime).unregisterOrder ref := by
      show (ranked.book.modifyOrder ref newPrice _ _ 0 true).ledger _ = _
      rw [rankedPrice]
      refine OrderBook.modifyOrder_gone true _ current rankedIn rankedRests ?_ drained
      rw [keyed, show ranked.book.heap ref = _ from self]
    have drainedStill : (moved.order ref).leavesQuantity = 0 := by
      rw [show moved.order ref = ranked.order ref from congrArg (fun ledger => ledger.heap ref) gone]
      exact drained
    rw [if_pos drainedStill, if_pos drained, ← gone]
    rfl
  · have kept : moved.ledger = ranked.ledger.placeEntry (ranked.order ref).id
        (some (ranked.ledger.entryOf ref)) (ranked.order ref).lastUpdateTime := by
      show (ranked.book.modifyOrder ref newPrice _ _ 0 true).ledger _ = _
      rw [rankedPrice]
      refine OrderBook.modifyOrder_rests true _ current rankedIn rankedRests ?_ ?_ ?_ ?_
      · rw [keyed, show ranked.book.heap ref = _ from self]
      · rw [sameSide, show ranked.book.heap ref = _ from self]
        rfl
      · have := congrArg Order.leavesQuantity self
        have : (ranked.book.heap ref).leavesQuantity = (state.order ref).leavesQuantity := this
        have : (ranked.book.heap ref).leavesQuantity ≠ 0 := drained
        omega
      · rw [show ranked.book.heap ref = _ from self]
        exact positivePriority
    have left : (moved.order ref).leavesQuantity ≠ 0 := by
      rw [show moved.order ref = ranked.order ref from congrArg (fun ledger => ledger.heap ref) kept]
      exact drained
    rw [if_neg left, if_neg drained, ← kept]

section ModifyOrder

variable {config : SymbolConfig}

/-- A refused amendment leaves a stamp. -/
theorem modifyOrder_refused (env : Environment) (requestTime : Nat) (isAmend : (state.order ref).status = .pendingReplace)
    (left : (state.order ref).leavesQuantity ≠ 0)
    (refused : config.matchingEngine.Refuses state.book config.smpMode (state.order ref) newPrice
      (amendedQty (state.order ref) newQty)) :
    state.modifyOrder env config ref newPrice newQty requestTime =
      (.smp, [], state.touchOrder env ref) := by
  have self : (state.touchOrder env ref).order ref =
      { state.order ref with lastUpdateTime := state.book.currentTime env } := Function.update_self ..
  unfold modifyOrder
  dsimp only
  rw [MatchingEngine.matchOrder_amend_refused config.matchingEngine env requestTime config.smpMode
    (state.order ref).lastUpdateTime isAmend refused]
  have notAccepted : ¬ OrdRejectReason.smp = .none := by rintro ⟨⟩
  simp only [if_neg notAccepted]
  rw [if_neg]
  rw [self]
  exact left

/-- What an accepted amendment does after it matched. -/
theorem modifyOrder_accepted {summaries : List TradeSummaryInfo} {between : MatchState β}
    (matched : config.matchingEngine.matchOrder env ref newPrice newQty requestTime
      (state.order ref).lastUpdateTime 0 config.smpMode state = (.none, summaries, between)) :
    state.modifyOrder env config ref newPrice newQty requestTime =
      (.none, summaries, between.settleAmend env ref newPrice
        ((state.order ref).requeues newPrice newQty)) := by
  unfold modifyOrder
  dsimp only
  rw [matched]
  exact (apply_ite (fun final => (OrdRejectReason.none, summaries, final)) _ _ _).symm

/-- An amendment that is not refused: what it swept to, and how it settled there. -/
theorem modifyOrder_spec (env : Environment) (requestTime : Nat)
    (inv : state.ledger.Represents (.amending ref))
    (isAmend : (state.order ref).status = .pendingReplace)
    (goesOn : ¬ config.matchingEngine.Refuses state.book config.smpMode (state.order ref) newPrice
      (amendedQty (state.order ref) newQty)) :
    ∃ summaries after swept,
      state.modifyOrder env config ref newPrice newQty requestTime = (.none, summaries, after) ∧
      SweptTo env (.amended ref) ref (sweptSide (state.order ref).side) newPrice
        (crossableQty (sweptSide (state.order ref).side) newPrice
          (state.book.ownOrders config.smpMode (state.order ref))
          (restingOrders state.book.l3 (sweptSide (state.order ref).side)))
        (state.ledger.replaceOrder env ref newPrice newQty requestTime) swept ∧
      (newQty ≤ (state.order ref).cumQuantity →
        swept = state.ledger.replaceOrder env ref newPrice newQty requestTime) ∧
      after.ledger = swept.settleAmend env ref requestTime
        (decide (newQty ≤ (state.order ref).cumQuantity) ||
          decide (0 < (swept.heap ref).leavesQuantity ∧ newPrice = nullPrice))
        ((state.order ref).requeues newPrice newQty) := by
  have registered : state.ledger.Registered ref := inv.indexed.resting_registered rfl
  let replaced := state.ledger.replaceOrder env ref newPrice newQty requestTime
  have replacedSelf : replaced.heap ref = (state.order ref).replace newPrice newQty :=
    Ledger.updateOrder_heap_self _
  have replacedInv : replaced.Represents (.amended ref) := Ledger.replaceOrder_represents requestTime inv
  obtain ⟨summaries, between, matched, outcome⟩ := MatchingEngine.matchOrder_amend
    config.matchingEngine env requestTime config.smpMode (state.order ref).lastUpdateTime inv isAmend
    goesOn (show replaced = _ from rfl)
  have reach : 0 ≤ crossableQty (sweptSide (state.order ref).side) newPrice
      (state.book.ownOrders config.smpMode (state.order ref))
      (restingOrders state.book.l3 (sweptSide (state.order ref).side)) :=
    crossableQty_nonneg fun order member => inv.agrees.positive (entry_of_mem member)
  have leavesIs : (replaced.heap ref).leavesQuantity =
      if (state.order ref).cumQuantity ≥ newQty then 0 else newQty - (state.order ref).cumQuantity := by
    rw [replacedSelf]
    rfl
  -- Both outcomes sweep somewhere and report a cancel there if the order may not rest.
  have swept : ∃ swept, SweptTo env (.amended ref) ref (sweptSide (state.order ref).side) newPrice
      (crossableQty (sweptSide (state.order ref).side) newPrice
        (state.book.ownOrders config.smpMode (state.order ref))
        (restingOrders state.book.l3 (sweptSide (state.order ref).side))) replaced swept ∧
      (newQty ≤ (state.order ref).cumQuantity → swept = replaced) ∧
      between.ledger = if (decide (newQty ≤ (state.order ref).cumQuantity) ||
          decide (0 < (swept.heap ref).leavesQuantity ∧ newPrice = nullPrice)) then
        swept.reportCancel env ref requestTime else swept := by
    rcases outcome with ⟨empty, closed⟩ | ⟨more, swept, done⟩
    · have covered : newQty ≤ (state.order ref).cumQuantity := by
        rw [leavesIs] at empty
        split at empty <;> omega
      refine ⟨replaced, ⟨.refl, by omega, by omega, reach, by omega, fun _ => rfl⟩, fun _ => rfl, ?_⟩
      rw [if_pos (by simp [covered]), closed]
      rfl
    · have uncovered : ¬ newQty ≤ (state.order ref).cumQuantity := by
        intro covered
        rw [leavesIs, if_pos covered] at more
        omega
      refine ⟨swept, done.toSweptTo, fun covered => absurd covered uncovered, ?_⟩
      have terms := (done.sweeps.takenFrom replacedInv).terms ref
      have priceIs : (swept.heap ref).price = newPrice := by
        rw [terms.price, replacedSelf]
        rfl
      have durable : (swept.heap ref).timeInForce.rests = true :=
        ((done.sweeps.represents replacedInv).agrees.at_ ref).durable
          ((done.sweeps.represents replacedInv).indexed.resting_registered rfl)
      have unrestable : (swept.heap ref).restsRemainder = false ↔ newPrice = nullPrice := by
        unfold Order.restsRemainder
        rw [durable, priceIs]
        simp
      rw [done.reported]
      simp only [unrestable, uncovered, decide_false, Bool.false_or, decide_eq_true_eq]
      rfl
  obtain ⟨swept, sweptTo, idle, betweenIs⟩ := swept
  have sweptInv := sweptTo.sweeps.represents replacedInv
  have closedInv : between.ledger.Represents (.amended ref) := by
    rw [betweenIs]
    split
    · exact sweptInv.report (.inl (sweptInv.indexed.resting_registered rfl)) (by intro _; rfl) rfl rfl
        (fun _ held => held)
    · exact sweptInv
  have heapIs : between.order ref = swept.heap ref := by
    have : between.ledger.heap ref = swept.heap ref := by
      rw [betweenIs]
      split <;> rfl
    exact this
  have price : (between.order ref).price = newPrice := by
    rw [heapIs, ((sweptTo.sweeps.takenFrom replacedInv).terms ref).price, replacedSelf]
    rfl
  have modified := modifyOrder_accepted matched
  refine ⟨summaries, _, swept, modified, sweptTo, idle, ?_⟩
  rw [settleAmend_ledger _ closedInv price (by rw [heapIs]; exact sweptTo.nonneg), betweenIs]
  rfl

end ModifyOrder

end MatchState

namespace OrderBook

variable {β : Type} {before after : OrderBook β} {reach : Reach} {side : BookSide} {order order' : Order}

private theorem scanLevel_congr
    (same : ∀ id, isSelfMatch order' (after.resolve id) = isSelfMatch order (before.resolve id))
    (orders : List BookOrder) (remaining : Int) :
    after.scanLevel reach order' orders remaining = before.scanLevel reach order orders remaining := by
  induction orders generalizing remaining with
  | nil => rfl
  | cons resting rest ih =>
      unfold scanLevel
      rw [same, ih]

private theorem scanLevels_congr
    (same : ∀ id, isSelfMatch order' (after.resolve id) = isSelfMatch order (before.resolve id))
    (limit : Int) (levels : List PriceLevelL3) (remaining : Int) :
    after.scanLevels reach side order' limit levels remaining =
      before.scanLevels reach side order limit levels remaining := by
  induction levels generalizing remaining with
  | nil => rfl
  | cons level rest ih =>
      unfold scanLevels
      rw [scanLevel_congr same]
      simp only [ih]

/-- Only who owns what decides whether an order would meet its own. -/
theorem wouldSelfMatch_congr [OrderBookL3 β] (sameL3 : after.l3 = before.l3)
    (same : ∀ id, isSelfMatch order' (after.resolve id) = isSelfMatch order (before.resolve id))
    (limit qty : Int) :
    after.wouldSelfMatch side reach order' limit qty =
      before.wouldSelfMatch side reach order limit qty := by
  unfold wouldSelfMatch
  rw [sameL3, scanLevels_congr same]

private theorem countLevel_congr {smpMode : SelfMatchPreventionMode}
    (same : ∀ id, isSelfMatch order' (after.resolve id) = isSelfMatch order (before.resolve id))
    (orders : List BookOrder) (remaining : Int) :
    after.countLevel smpMode order' orders remaining = before.countLevel smpMode order orders remaining := by
  induction orders generalizing remaining with
  | nil => rfl
  | cons resting rest ih =>
      unfold countLevel
      simp only [same, ih]

private theorem countLevels_congr {smpMode : SelfMatchPreventionMode}
    (same : ∀ id, isSelfMatch order' (after.resolve id) = isSelfMatch order (before.resolve id))
    (limit : Int) (levels : List PriceLevelL3) (remaining : Int) :
    after.countLevels side smpMode order' limit levels remaining =
      before.countLevels side smpMode order limit levels remaining := by
  induction levels generalizing remaining with
  | nil => rfl
  | cons level rest ih =>
      unfold countLevels
      rw [countLevel_congr same]
      simp only [ih]

/-- Only who owns what decides how much an order could fill. -/
theorem canFillCompletely_congr [OrderBookL3 β] {smpMode : SelfMatchPreventionMode}
    (sameL3 : after.l3 = before.l3)
    (same : ∀ id, isSelfMatch order' (after.resolve id) = isSelfMatch order (before.resolve id))
    (limit qty : Int) :
    after.canFillCompletely side order' limit qty smpMode =
      before.canFillCompletely side order limit qty smpMode := by
  unfold canFillCompletely
  rw [sameL3, countLevels_congr same]

end OrderBook

namespace Exchange

variable {β : Type} [OrderBookL3 β] {exchange : Exchange β} {env : Environment}
  {config : SymbolConfig} {permit : Permit} {header : RequestHeader} {ref : Nat}

/-- `CANCEL_NEWEST` turns an amendment away. -/
def RefusesAmend (exchange : Exchange β) (config : SymbolConfig) (ref : Nat) (newPrice newQty : Int) :
    Prop :=
  config.matchingEngine.Refuses exchange.book config.smpMode (exchange.matching.order ref) newPrice
    (amendedQty (exchange.matching.order ref) newQty)

instance (ref : Nat) (newPrice newQty : Int) :
    Decidable (exchange.RefusesAmend config ref newPrice newQty) :=
  inferInstanceAs (Decidable (MatchingEngine.Refuses ..))

/-- What an order could trade with at a limit. -/
def crossable (exchange : Exchange β) (config : SymbolConfig) (ref : Nat) (limit : Int) : Int :=
  let order := exchange.matching.order ref
  crossableQty (sweptSide order.side) limit (exchange.book.ownOrders config.smpMode order)
    (restingOrders exchange.book.l3 (sweptSide order.side))

/-- The exchange once it has marked an order for a replacement. -/
def markReplace (exchange : Exchange β) (env : Environment) (header : RequestHeader)
    (ref : Nat) : Exchange β :=
  (exchange.onBook fun book => book.readClock.updateOrder ref
    (beginReplace header.requestTag (exchange.book.currentTime env))).onMatching fun state =>
      state.sendOrderReplacePending env ref header.timeStamp

omit [OrderBookL3 β] in
theorem markReplace_order (other : Nat) :
    ((exchange.markReplace env header ref).matching.order other).clientId =
      (exchange.matching.order other).clientId := by
  show (Function.update exchange.book.heap ref _ other).clientId = _
  by_cases same : other = ref
  · subst same
    rw [Function.update_self]
    rfl
  · rw [Function.update_of_ne same]
    rfl

omit [OrderBookL3 β] in
theorem markReplace_self :
    (exchange.markReplace env header ref).matching.order ref =
      beginReplace header.requestTag (exchange.book.currentTime env) (exchange.matching.order ref) :=
  Function.update_self ..

theorem markReplace_refuses (newPrice newQty : Int) :
    config.matchingEngine.Refuses (exchange.markReplace env header ref).matching.book config.smpMode
        ((exchange.markReplace env header ref).matching.order ref) newPrice
        (amendedQty ((exchange.markReplace env header ref).matching.order ref) newQty) ↔
      exchange.RefusesAmend config ref newPrice newQty := by
  unfold RefusesAmend MatchingEngine.Refuses
  rw [OrderBook.wouldSelfMatch_congr (show (exchange.markReplace env header ref).matching.book.l3 =
    exchange.book.l3 from rfl), markReplace_self]
  · rfl
  · intro id
    refine MatchState.isSelfMatch_congr (markReplace_order ref) ?_
    unfold OrderBook.resolve
    cases found : exchange.book.findOrder id with
    | none =>
        rw [show (exchange.markReplace env header ref).matching.book.findOrder id = none from found]
        rfl
    | some other =>
        rw [show (exchange.markReplace env header ref).matching.book.findOrder id = some other from found]
        exact congrArg some (markReplace_order other)

/-! ## Amendments -/

section Modify

variable {msg : ModifyOrderMessage}

theorem selectOrder_registered {clientOrderId orderId : Name} (inv : exchange.ledger.Represents .none)
    (selected : selectOrder exchange.book clientOrderId orderId = some ref) :
    exchange.ledger.Registered ref := by
  unfold selectOrder at selected
  split at selected
  · exact (inv.indexed.byClient_iff.mp
      (show exchange.ledger.byClient clientOrderId = some ref from selected)).2.1
  · exact (inv.indexed.byOrder_iff.mp
      (show exchange.ledger.byOrder orderId = some ref from selected)).2.1

theorem beginAmend_micros (requestTag requestTime : Nat) (registered : exchange.ledger.Registered ref)
    (permitted : permit.startAmend { exchange.ledger with globals := exchange.ledger.globals.readClock }
      ref) :
    Micros env permit (.none, exchange.ledger)
      (.amending ref, exchange.ledger.beginAmend env ref requestTag requestTime) := by
  have ticks : Micro env permit (.none, exchange.ledger)
      (.none, { exchange.ledger with globals := exchange.ledger.globals.readClock }) :=
    .sweep (show Sweep env .none .buy _ _ from .tick (Globals.le_readClock _))
  have inside : { exchange.ledger with globals := exchange.ledger.globals.readClock }.Registered ref :=
    registered
  exact .head ticks (.single (.startAmend inside permitted rfl))

theorem beginAmend_order (requestTag requestTime : Nat) :
    (exchange.ledger.beginAmend env ref requestTag requestTime).heap ref =
      beginReplace requestTag (env.clock exchange.ledger.globals.clockReads) (exchange.matching.order ref) :=
  Function.update_self ..

theorem beginAmend_represents (requestTag requestTime : Nat) (inv : exchange.ledger.Represents .none)
    (registered : exchange.ledger.Registered ref) :
    (exchange.ledger.beginAmend env ref requestTag requestTime).Represents (.amending ref) :=
  (beginAmend_micros requestTag requestTime registered
    (show Permit.all.startAmend _ _ from trivial)).represents inv

/-- The ledger once an amendment has written the order's new terms. -/
def amendedLedger (exchange : Exchange β) (env : Environment) (header : RequestHeader)
    (msg : ModifyOrderMessage) (ref : Nat) : Ledger :=
  (exchange.ledger.beginAmend env ref header.requestTag header.timeStamp).replaceOrder env ref
    msg.newPrice msg.newQty header.timeStamp

theorem amendedLedger_order (header : RequestHeader) (msg : ModifyOrderMessage) :
    (exchange.amendedLedger env header msg ref).heap ref =
      (beginReplace header.requestTag (env.clock exchange.ledger.globals.clockReads)
        (exchange.matching.order ref)).replace msg.newPrice msg.newQty := by
  let begun := exchange.ledger.beginAmend env ref header.requestTag header.timeStamp
  show (begun.updateOrder ref (Order.replace msg.newPrice msg.newQty)).heap ref = _
  rw [Ledger.updateOrder_heap_self, beginAmend_order]

theorem amendedLedger_represents (header : RequestHeader) (msg : ModifyOrderMessage)
    (inv : exchange.ledger.Represents .none) (registered : exchange.ledger.Registered ref) :
    (exchange.amendedLedger env header msg ref).Represents (.amended ref) :=
  Ledger.replaceOrder_represents header.timeStamp
    (beginAmend_represents header.requestTag header.timeStamp inv registered)

/-- What an amendment that is not refused sweeps to. -/
structure AmendSweeps (exchange : Exchange β) (env : Environment) (config : SymbolConfig)
    (header : RequestHeader) (msg : ModifyOrderMessage) (ref : Nat) (swept : Ledger) : Prop
    extends SweptTo env (.amended ref) ref (sweptSide (exchange.matching.order ref).side) msg.newPrice
      (exchange.crossable config ref msg.newPrice) (exchange.amendedLedger env header msg ref) swept where
  idle : msg.newQty ≤ (exchange.matching.order ref).cumQuantity →
    swept = exchange.amendedLedger env header msg ref

/-- Whether a cancel is reported once an amendment has swept. -/
def amendCloses (exchange : Exchange β) (msg : ModifyOrderMessage) (ref : Nat) (swept : Ledger) : Bool :=
  decide (msg.newQty ≤ (exchange.matching.order ref).cumQuantity) ||
    decide (0 < (swept.heap ref).leavesQuantity ∧ msg.newPrice = nullPrice)

theorem amendedLedger_micros (header : RequestHeader) (msg : ModifyOrderMessage)
    (registered : exchange.ledger.Registered ref)
    (mayStart : permit.startAmend { exchange.ledger with globals := exchange.ledger.globals.readClock } ref)
    (mayReplace : permit.replace (exchange.ledger.beginAmend env ref header.requestTag header.timeStamp) ref
      msg.newPrice msg.newQty) :
    Micros env permit (.none, exchange.ledger)
      (.replaced ref (decide (msg.newQty ≤ (exchange.matching.order ref).cumQuantity)),
        exchange.amendedLedger env header msg ref) := by
  have replaces := (beginAmend_micros header.requestTag header.timeStamp registered mayStart).tail
    (Ledger.replaceOrder_micro header.timeStamp mayReplace)
  rw [beginAmend_order] at replaces
  exact replaces

def refusedAmend (exchange : Exchange β) (env : Environment) (header : RequestHeader)
    (msg : ModifyOrderMessage) (ref : Nat) : Ledger :=
  let touched := (exchange.ledger.beginAmend env ref header.requestTag header.timeStamp).touchOrder env ref
  let restored := touched.updateOrder ref fun order =>
    { order with requestTag := (exchange.matching.order ref).requestTag }
  { restored with globals := restored.globals.readClock }.publish env fun slot =>
    slot.writeRejectModify header msg .smp (env.clock restored.globals.clockReads)

private theorem rewrite_slot (heap : Nat → Order) (ref : Nat) (order : Order) (change : Order → Order) :
    Function.update (Function.update heap ref order) ref (change (Function.update heap ref order ref)) =
      Function.update heap ref (change order) := by
  rw [Function.update_self, Function.update_idem]

theorem refusedAmend_heap (msg : ModifyOrderMessage) :
    ∃ lastUpdateTime, (exchange.refusedAmend env header msg ref).heap = Function.update exchange.ledger.heap ref
      { exchange.matching.order ref with status := .pendingReplace, lastUpdateTime } := by
  let begun := exchange.ledger.beginAmend env ref header.requestTag header.timeStamp
  let touches (order : Order) : Order := { order with lastUpdateTime := env.clock begun.globals.clockReads }
  let restores (order : Order) : Order := { order with requestTag := (exchange.matching.order ref).requestTag }
  refine ⟨env.clock begun.globals.clockReads, ?_⟩
  refine (rewrite_slot begun.heap ref (touches (begun.heap ref)) restores).trans ?_
  exact rewrite_slot exchange.ledger.heap ref (Order.touch .pendingReplace _ header.requestTag (exchange.ledger.heap ref))
    (restores ∘ touches)

theorem handleModifyOrderRequest_unknown
    (unknown : header.symbol ≠ config.symbol ∨
      selectOrder exchange.book msg.clientOrderId msg.orderId = none) :
    ∃ reason, reason ≠ .none ∧ exchange.handleModifyOrderRequest env config header msg =
      exchange.onMatching fun state => state.rejectModifyOrderRequest env header msg reason := by
  unfold handleModifyOrderRequest
  by_cases listed : header.symbol = config.symbol
  · rw [if_neg (fun unlisted => unlisted listed)]
    rcases unknown with unlisted | nothing
    · exact absurd listed unlisted
    · rw [nothing]
      exact ⟨_, by decide, rfl⟩
  · rw [if_pos listed]
    exact ⟨_, by decide, rfl⟩

variable (listed : header.symbol = config.symbol)
  (selected : selectOrder exchange.book msg.clientOrderId msg.orderId = some ref)
  (inv : exchange.ledger.Represents .none)

include listed selected in
theorem handleModifyOrderRequest_eq :
    exchange.handleModifyOrderRequest env config header msg =
      let marked := exchange.markReplace env header ref
      let (rejectReason, summaries, matching) :=
        marked.matching.modifyOrder env config ref msg.newPrice msg.newQty header.timeStamp
      let published := { marked with matching }.publishTradeSummaries summaries
      (if rejectReason ≠ .none then
        (published.onBook fun book => book.updateOrder ref fun order =>
          { order with requestTag := (exchange.matching.order ref).requestTag }).onMatching fun state =>
            state.rejectModifyOrderRequest env header msg rejectReason
      else published).flushMarketDataCaches := by
  unfold handleModifyOrderRequest
  rw [if_neg (fun unlisted => unlisted listed), selected]
  rfl

include listed selected inv

/-- An amendment that is turned away has marked its order, and reports the reject. -/
theorem handleModifyOrderRequest_turnedAway
    (refuses : exchange.RefusesAmend config ref msg.newPrice msg.newQty) :
    (exchange.handleModifyOrderRequest env config header msg).matching =
        ((((exchange.markReplace env header ref).matching.touchOrder env ref).onBook fun book =>
          book.updateOrder ref fun order =>
            { order with requestTag := (exchange.matching.order ref).requestTag }).rejectModifyOrderRequest env
              header msg .smp).onBook OrderBook.clearCaches ∧
      (exchange.handleModifyOrderRequest env config header msg).tradeHistory = exchange.tradeHistory := by
  have registered := selectOrder_registered inv selected
  have left : ((exchange.markReplace env header ref).matching.order ref).leavesQuantity ≠ 0 := by
    rw [markReplace_self]
    have := ((inv.agrees.at_ ref).rests registered (by rintro ⟨⟩)).2.1
    exact Int.ne_of_gt this
  have modified := MatchState.modifyOrder_refused env header.timeStamp
    (show ((exchange.markReplace env header ref).matching.order ref).status = .pendingReplace by
      rw [markReplace_self]; rfl)
    left ((markReplace_refuses msg.newPrice msg.newQty).mpr refuses)
  rw [handleModifyOrderRequest_eq listed selected]
  dsimp only
  rw [modified]
  dsimp only
  rw [if_pos (by rintro ⟨⟩), flushMarketDataCaches_matching, flushMarketDataCaches_tradeHistory]
  let touched := (exchange.markReplace env header ref).matching.touchOrder env ref
  have published : ({ exchange.markReplace env header ref with matching := touched }.publishTradeSummaries
      []).matching = touched := publishTradeSummaries_matching []
  refine ⟨?_, ?_⟩
  · refine congrArg (fun state => MatchState.onBook state OrderBook.clearCaches) ?_
    refine congrArg (fun state => MatchState.rejectModifyOrderRequest state env header msg .smp) ?_
    exact congrArg (fun state => MatchState.onBook state fun book => book.updateOrder ref fun order =>
      { order with requestTag := (exchange.matching.order ref).requestTag }) published
  · show (exchange.markReplace env header ref).tradeHistory = _
    rfl

theorem handleModifyOrderRequest_refused
    (refuses : exchange.RefusesAmend config ref msg.newPrice msg.newQty) :
    (exchange.handleModifyOrderRequest env config header msg).ledger =
      exchange.refusedAmend env header msg ref := by
  let touched := ((exchange.markReplace env header ref).matching.touchOrder env ref).onBook fun book =>
    book.updateOrder ref fun order => { order with requestTag := (exchange.matching.order ref).requestTag }
  have rejected : (touched.rejectModifyOrderRequest env header msg .smp).ledger = _ :=
    MatchState.publishReject_ledger touched fun _ _ => rfl
  unfold Exchange.ledger
  rw [(handleModifyOrderRequest_turnedAway listed selected inv refuses).1]
  exact rejected

omit listed in
theorem incoming_marked (env : Environment) (header : RequestHeader) :
    Incoming (exchange.markReplace env header ref).matching ref msg.newPrice msg.newQty
      (amendedQty (exchange.matching.order ref) msg.newQty) := by
  have markedInv : (exchange.markReplace env header ref).ledger.Represents (.amending ref) :=
    beginAmend_represents header.requestTag header.timeStamp inv (selectOrder_registered inv selected)
  have incoming := Incoming.amended markedInv (by rw [markReplace_self]; rfl) msg.newPrice msg.newQty
  rw [markReplace_self] at incoming
  exact incoming

variable (env header) in
theorem handleModifyOrderRequest_amends
    (goesOn : ¬ exchange.RefusesAmend config ref msg.newPrice msg.newQty) :
    ∃ swept, exchange.AmendSweeps env config header msg ref swept ∧
      (exchange.handleModifyOrderRequest env config header msg).ledger =
        swept.settleAmend env ref header.timeStamp (exchange.amendCloses msg ref swept)
          ((exchange.matching.order ref).requeues msg.newPrice msg.newQty) := by
  have registered := selectOrder_registered inv selected
  have markedInv : (exchange.markReplace env header ref).ledger.Represents (.amending ref) :=
    beginAmend_represents header.requestTag header.timeStamp inv registered
  obtain ⟨summaries, after, swept, modified, sweptTo, idle, afterIs⟩ := MatchState.modifyOrder_spec env
    header.timeStamp markedInv
    (show ((exchange.markReplace env header ref).matching.order ref).status = .pendingReplace by
      rw [markReplace_self]; rfl)
    (fun refused => goesOn ((markReplace_refuses msg.newPrice msg.newQty).mp refused))
  have sameOwn : (exchange.markReplace env header ref).matching.book.ownOrders config.smpMode
      ((exchange.markReplace env header ref).matching.order ref) =
      exchange.book.ownOrders config.smpMode (exchange.matching.order ref) :=
    MatchingEngine.ownOrders_congr rfl markReplace_order (markReplace_order ref)
  rw [sameOwn, markReplace_self] at sweptTo
  rw [markReplace_self] at idle afterIs
  refine ⟨swept, ⟨sweptTo, idle⟩, ?_⟩
  rw [handleModifyOrderRequest_eq listed selected]
  dsimp only
  rw [modified]
  dsimp only
  rw [if_neg (by simp), flushMarketDataCaches_ledger, publishTradeSummaries_ledger]
  exact afterIs

omit listed in
theorem AmendSweeps.spec {swept : Ledger} (sweeps : exchange.AmendSweeps env config header msg ref swept) :
    swept.Represents (.amended ref) ∧
      exchange.ledger.SameSide (toBookSide (exchange.matching.order ref).side) swept ∧
      exchange.ledger.globals.Le swept.globals ∧
      (swept.heap ref).SameTerms
        ((beginReplace header.requestTag (env.clock exchange.ledger.globals.clockReads)
          (exchange.matching.order ref)).replace msg.newPrice msg.newQty) ∧
      (exchange.matching.order ref).cumQuantity ≤ (swept.heap ref).cumQuantity := by
  let replaced := exchange.amendedLedger env header msg ref
  have replacedInv : replaced.Represents (.amended ref) :=
    amendedLedger_represents header msg inv (selectOrder_registered inv selected)
  have frame := sweeps.sweeps.takenFrom replacedInv
  have self : replaced.heap ref = _ := amendedLedger_order header msg
  have terms := frame.terms ref
  have fills := frame.fills ref
  refine ⟨sweeps.sweeps.represents replacedInv, ?_, ?_, ?_, ?_⟩
  · refine frame.sameSide ?_
    rw [MatchingEngine.sweptSide_eq]
    exact (BookSide.opposite_ne _).symm
  · exact ⟨frame.later.nextPriority, frame.later.nextOrderId, frame.later.nextTradeId,
      frame.later.uuidDraws, Nat.le_of_succ_le frame.later.clockReads⟩
  · rw [← self]
    exact terms
  · refine Int.le_trans (Int.le_of_eq ?_) fills
    rw [self]
    rfl

/-- What an amendment needs of a permit. -/
structure ModifyLicence (permit : Permit) (env : Environment) (config : SymbolConfig)
    (exchange : Exchange β) (header : RequestHeader) (msg : ModifyOrderMessage) : Prop where
  unknown : header.symbol ≠ config.symbol ∨
      selectOrder exchange.book msg.clientOrderId msg.orderId = none →
    permit.reject { exchange.ledger with globals := exchange.ledger.globals.readClock } msg.orderId
  start : ∀ ref, header.symbol = config.symbol →
    selectOrder exchange.book msg.clientOrderId msg.orderId = some ref →
    permit.startAmend { exchange.ledger with globals := exchange.ledger.globals.readClock } ref
  refuse : ∀ ref, header.symbol = config.symbol →
    selectOrder exchange.book msg.clientOrderId msg.orderId = some ref →
    exchange.RefusesAmend config ref msg.newPrice msg.newQty →
    permit.abortAmend (exchange.ledger.beginAmend env ref header.requestTag header.timeStamp) ref ∧
      ∀ ledger : Ledger, ledger.byOrder = exchange.ledger.byOrder → permit.reject ledger msg.orderId
  replace : ∀ ref, header.symbol = config.symbol →
    selectOrder exchange.book msg.clientOrderId msg.orderId = some ref →
    ¬ exchange.RefusesAmend config ref msg.newPrice msg.newQty →
    permit.replace (exchange.ledger.beginAmend env ref header.requestTag header.timeStamp) ref
      msg.newPrice msg.newQty
  rests : ∀ ref swept, header.symbol = config.symbol →
    selectOrder exchange.book msg.clientOrderId msg.orderId = some ref →
    exchange.AmendSweeps env config header msg ref swept → 0 < (swept.heap ref).leavesQuantity →
    permit.amendRests ((if exchange.amendCloses msg ref swept then
      swept.reportCancel env ref header.timeStamp else swept).touchOrder env ref) ref
  join : ∀ ref, header.symbol = config.symbol →
    selectOrder exchange.book msg.clientOrderId msg.orderId = some ref →
    (exchange.matching.order ref).requeues msg.newPrice msg.newQty = true →
    ∀ after entry, exchange.ledger.SameSide entry.side after →
      exchange.ledger.globals.nextPriority < entry.priority →
      entry.side = toBookSide (exchange.matching.order ref).side → entry.price = msg.newPrice →
      entry.orderId = (exchange.matching.order ref).id → permit.join after entry

omit listed in
private theorem AmendSweeps.settle {swept : Ledger}
    (sweeps : exchange.AmendSweeps env config header msg ref swept)
    (mayRest : 0 < (swept.heap ref).leavesQuantity →
      permit.amendRests ((if exchange.amendCloses msg ref swept then
        swept.reportCancel env ref header.timeStamp else swept).touchOrder env ref) ref)
    (mayJoin : (exchange.matching.order ref).requeues msg.newPrice msg.newQty = true →
      ∀ after entry, exchange.ledger.SameSide entry.side after →
        exchange.ledger.globals.nextPriority < entry.priority →
        entry.side = toBookSide (exchange.matching.order ref).side → entry.price = msg.newPrice →
        entry.orderId = (exchange.matching.order ref).id → permit.join after entry) :
    Micros env permit
      (.replaced ref (decide (msg.newQty ≤ (exchange.matching.order ref).cumQuantity)), swept)
      (.none, swept.settleAmend env ref header.timeStamp (exchange.amendCloses msg ref swept)
        ((exchange.matching.order ref).requeues msg.newPrice msg.newQty)) := by
  obtain ⟨sweptInv, sameSide, later, terms, fills⟩ := AmendSweeps.spec selected inv sweeps
  have registered := selectOrder_registered inv selected
  obtain ⟨isEntry, -, whole⟩ := (inv.agrees.at_ ref).rests registered (by rintro ⟨⟩)
  have sideIs : (swept.heap ref).side = (exchange.matching.order ref).side := terms.side
  have priceIs : (swept.heap ref).price = msg.newPrice := terms.price
  have qtyIs : (swept.heap ref).quantity = msg.newQty := terms.quantity
  have idIs : (swept.heap ref).id = (exchange.matching.order ref).id := terms.id
  refine Ledger.settleAmend_micros header.timeStamp _ _ sweeps.nonneg ?_ ?_ ?_ ?_ rfl mayRest ?_
  · intro closes
    unfold amendCloses at closes
    cases covered : decide (msg.newQty ≤ (exchange.matching.order ref).cumQuantity) with
    | true => exact .inl rfl
    | false =>
        rw [covered, Bool.false_or, decide_eq_true_eq] at closes
        exact .inr ⟨rfl, closes.1, priceIs.trans closes.2⟩
  · intro rests
    unfold amendCloses at rests
    rw [Bool.or_eq_false_iff] at rests
    rw [rests.1]
    rfl
  · intro left
    rw [sideIs, priceIs, ← MatchingEngine.sweptSide_eq]
    exact sweeps.settled left
  · intro stays resting found
    have atOld : exchange.ledger.entry (exchange.matching.order ref).id = some resting := by
      obtain ⟨⟨entry, isThere, side⟩, -⟩ := (sweptInv.agrees.at_ ref).lags rfl
      rw [found] at isThere
      obtain rfl := Option.some.inj isThere
      rw [idIs] at found
      exact (sameSide _ _ (side.trans (congrArg toBookSide sideIs))).mp found
    obtain rfl : (exchange.matching.order ref).bookEntry = resting :=
      Option.some.inj (isEntry.symm.trans atOld)
    have keeps : msg.newPrice = (exchange.matching.order ref).price ∧
        ¬ msg.newQty > (exchange.matching.order ref).quantity := by
      simpa [Order.requeues] using stays
    refine ⟨keeps.1.symm.trans priceIs.symm, ?_⟩
    show (swept.heap ref).leavesQuantity ≤ (exchange.matching.order ref).leavesQuantity
    have whole : (exchange.matching.order ref).quantity =
      (exchange.matching.order ref).leavesQuantity + (exchange.matching.order ref).cumQuantity := whole
    have positive := ((inv.agrees.at_ ref).rests registered (by rintro ⟨⟩)).2.1
    have positive : 0 < (exchange.matching.order ref).leavesQuantity := positive
    by_cases left : 0 < (swept.heap ref).leavesQuantity
    · have := ((sweptInv.agrees.at_ ref).lags rfl).2.2 left
      omega
    · omega
  · intro moves left
    generalize isClosed : (if exchange.amendCloses msg ref swept then
      swept.reportCancel env ref header.timeStamp else swept) = closed
    have sameHeap : closed.heap = swept.heap := by rw [← isClosed]; split <;> rfl
    have sameEntry : closed.entry = swept.entry := by rw [← isClosed]; split <;> rfl
    have sameGlobals : closed.globals = swept.globals := by rw [← isClosed]; split <;> rfl
    have self : ((closed.touchOrder env ref).requeueOrder ref).heap ref =
        { (closed.touchOrder env ref).heap ref with
          priority := (closed.touchOrder env ref).globals.nextPriority + 1 } :=
      Ledger.updateOrder_heap_self _
    have touched : (closed.touchOrder env ref).heap ref =
        { swept.heap ref with lastUpdateTime := env.clock closed.globals.clockReads } := by
      rw [← sameHeap]
      exact Ledger.updateOrder_heap_self _
    rw [touched] at self
    refine mayJoin moves _ _ ?_ ?_ ?_ ?_ ?_
    · have side : (((closed.touchOrder env ref).requeueOrder ref).entryOf ref).side =
          toBookSide (exchange.matching.order ref).side := by
        unfold Ledger.entryOf
        rw [self]
        exact congrArg toBookSide sideIs
      rw [side]
      intro id resting isSide
      show closed.entry id = some resting ↔ _
      rw [sameEntry]
      exact sameSide id resting isSide
    · show _ < (((closed.touchOrder env ref).requeueOrder ref).heap ref).priority
      rw [self]
      show _ < closed.globals.nextPriority + 1
      rw [sameGlobals]
      exact Nat.lt_succ_of_le later.nextPriority
    · unfold Ledger.entryOf
      rw [self]
      exact congrArg toBookSide sideIs
    · unfold Ledger.entryOf
      rw [self]
      exact priceIs
    · unfold Ledger.entryOf
      rw [self]
      exact idIs

omit listed selected inv in
private theorem refusedAmend_micros
    (begins : Micros env permit (.none, exchange.ledger)
      (.amending ref, exchange.ledger.beginAmend env ref header.requestTag header.timeStamp))
    (mayAbort : permit.abortAmend
      (exchange.ledger.beginAmend env ref header.requestTag header.timeStamp) ref)
    (mayReject : ∀ ledger : Ledger, ledger.byOrder = exchange.ledger.byOrder →
      permit.reject ledger msg.orderId) :
    Micros env permit (.none, exchange.ledger) (.none, exchange.refusedAmend env header msg ref) := by
  let touched := (exchange.ledger.beginAmend env ref header.requestTag header.timeStamp).touchOrder env ref
  let restored := touched.updateOrder ref fun order =>
    { order with requestTag := (exchange.matching.order ref).requestTag }
  have restores := @Micro.touch env permit .none touched ref (touched.heap ref).status
    (touched.heap ref).lastUpdateTime (exchange.matching.order ref).requestTag
  have ticks : Micro env permit (.none, restored)
      (.none, { restored with globals := restored.globals.readClock }) :=
    .sweep (show Sweep env .none .buy _ _ from .tick (Globals.le_readClock _))
  have touches : Micros env permit (.none, exchange.ledger) (.none, touched) :=
    (begins.tail (.abortAmend mayAbort)).trans (Ledger.touchOrder_micros .none)
  exact ((touches.tail restores).tail ticks).tail (.reject (mayReject _ rfl))

omit listed selected in
theorem handleModifyOrderRequest_micros (licence : ModifyLicence permit env config exchange header msg) :
    Micros env permit (.none, exchange.ledger)
      (.none, (exchange.handleModifyOrderRequest env config header msg).ledger) := by
  by_cases unknown : header.symbol ≠ config.symbol ∨
      selectOrder exchange.book msg.clientOrderId msg.orderId = none
  · obtain ⟨reason, -, rejected⟩ := @handleModifyOrderRequest_unknown _ _ exchange env config header msg unknown
    rw [rejected]
    exact MatchState.publishReject_micros (fun _ _ => rfl) (licence.unknown unknown)
  have listed : header.symbol = config.symbol := by
    by_contra unlisted
    exact unknown (.inl unlisted)
  obtain ⟨ref, selected⟩ := Option.ne_none_iff_exists'.mp (fun nothing => unknown (.inr nothing))
  have registered := selectOrder_registered inv selected
  have begins : Micros env permit (.none, exchange.ledger)
      (.amending ref, exchange.ledger.beginAmend env ref header.requestTag header.timeStamp) :=
    beginAmend_micros header.requestTag header.timeStamp registered (licence.start ref listed selected)
  by_cases refuses : exchange.RefusesAmend config ref msg.newPrice msg.newQty
  · obtain ⟨mayAbort, mayReject⟩ := licence.refuse ref listed selected refuses
    rw [handleModifyOrderRequest_refused listed selected inv refuses]
    exact refusedAmend_micros begins mayAbort mayReject
  · obtain ⟨swept, sweeps, settled⟩ :=
      handleModifyOrderRequest_amends env header listed selected inv refuses
    rw [settled]
    have replaces : Micros env permit (.none, exchange.ledger) _ := amendedLedger_micros header msg
      registered (licence.start ref listed selected) (licence.replace ref listed selected refuses)
    refine (replaces.trans ?_).trans (AmendSweeps.settle selected inv sweeps
      (licence.rests ref swept listed selected sweeps) (licence.join ref listed selected))
    cases covered : decide (msg.newQty ≤ (exchange.matching.order ref).cumQuantity) with
    | true =>
        rw [sweeps.idle (of_decide_eq_true covered)]
    | false => exact sweeps.sweeps.micros

end Modify

/-! ## Cancels -/

section Cancel

variable {msg : CancelOrderMessage}

def cancelledLedger (exchange : Exchange β) (env : Environment) (header : RequestHeader) (ref : Nat) :
    Ledger :=
  let marked := exchange.ledger.updateOrder ref (beginCancel header.requestTag)
  let begun := marked.publish env fun slot =>
    slot.writeCancelPending (marked.heap ref) header.timeStamp
  let touched := begun.touchOrder env ref
  touched.cancelOrder env ref (touched.heap ref).lastUpdateTime header.timeStamp

theorem handleCancelOrderRequest_unknown
    (unknown : header.symbol ≠ config.symbol ∨
      selectOrder exchange.book msg.clientOrderId msg.orderId = none) :
    ∃ reason, reason ≠ .none ∧ exchange.handleCancelOrderRequest env config header msg =
      exchange.onMatching fun state => state.rejectCancelOrderRequest env header msg reason := by
  unfold handleCancelOrderRequest
  by_cases listed : header.symbol = config.symbol
  · rw [if_neg (fun unlisted => unlisted listed)]
    rcases unknown with unlisted | nothing
    · exact absurd listed unlisted
    · rw [nothing]
      exact ⟨_, by decide, rfl⟩
  · rw [if_pos listed]
    exact ⟨_, by decide, rfl⟩

/-- What a cancel needs of a permit. -/
structure CancelLicence (permit : Permit) (config : SymbolConfig) (exchange : Exchange β)
    (header : RequestHeader) (msg : CancelOrderMessage) : Prop where
  unknown : header.symbol ≠ config.symbol ∨
      selectOrder exchange.book msg.clientOrderId msg.orderId = none →
    permit.reject { exchange.ledger with globals := exchange.ledger.globals.readClock } msg.orderId
  cancel : ∀ ref, header.symbol = config.symbol →
    selectOrder exchange.book msg.clientOrderId msg.orderId = some ref →
    permit.cancel exchange.ledger ref

variable (listed : header.symbol = config.symbol)
  (selected : selectOrder exchange.book msg.clientOrderId msg.orderId = some ref)
  (inv : exchange.ledger.Represents .none)

include listed selected inv in
/-- A cancel of an order that is there takes it out, whatever the permit. -/
theorem handleCancelOrderRequest_cancels (permitted : permit.cancel exchange.ledger ref) :
    (exchange.handleCancelOrderRequest env config header msg).ledger =
        exchange.cancelledLedger env header ref ∧
      Micros env permit (.none, exchange.ledger)
        (.none, (exchange.handleCancelOrderRequest env config header msg).ledger) := by
  have registered := selectOrder_registered inv selected
  let begun := ((exchange.onBook fun book => book.updateOrder ref
    (beginCancel header.requestTag)).onMatching fun state =>
      state.sendOrderCancelPending env ref header.timeStamp).matching
  let touched := begun.touchOrder env ref
  have begins : Micro env permit (.none, exchange.ledger) (.cancelling ref, begun.ledger) :=
    .startCancel registered permitted rfl
  have path : Micros env permit (.none, exchange.ledger) (.cancelling ref, touched.ledger) :=
    .head begins (Ledger.touchOrder_micros _)
  have touchedInv : touched.ledger.Represents .none :=
    (path.represents inv).rehand rfl rfl (by rintro _ ⟨⟩)
  have sameId : (touched.order ref).id = (exchange.matching.order ref).id := by
    show (Function.update (Function.update exchange.ledger.heap ref _) ref _ ref).id = _
    rw [Function.update_self]
    show (Function.update exchange.ledger.heap ref _ ref).id = _
    rw [Function.update_self]
    rfl
  have touchedIn : touched.ledger.owner (touched.order ref).id = some ref := by
    rw [sameId]
    exact registered
  obtain ⟨isEntry, -⟩ := (touchedInv.agrees.at_ ref).rests touchedIn (by rintro ⟨⟩)
  obtain ⟨-, cancelled⟩ := MatchState.cancelOrder_takes touchedInv (fun stale => stale.1.false)
    (show touched.ledger.entry (touched.ledger.entryOf ref).orderId = some _ from isEntry) rfl touchedIn
    (by rintro ⟨⟩) (show begun.cancelOrder env ref header.timeStamp = _ from rfl)
  have handled : (exchange.handleCancelOrderRequest env config header msg).ledger =
      (begun.cancelOrder env ref header.timeStamp).ledger := by
    unfold handleCancelOrderRequest
    rw [if_neg (fun unlisted => unlisted listed), selected]
    exact flushMarketDataCaches_ledger
  have cancelledIs : (begun.cancelOrder env ref header.timeStamp).ledger =
      exchange.cancelledLedger env header ref := cancelled
  refine ⟨handled.trans cancelledIs, ?_⟩
  rw [handled, show (begun.cancelOrder env ref header.timeStamp).ledger = _ from cancelled]
  exact path.tail .finishCancel

include inv in
theorem handleCancelOrderRequest_micros (licence : CancelLicence permit config exchange header msg) :
    Micros env permit (.none, exchange.ledger)
      (.none, (exchange.handleCancelOrderRequest env config header msg).ledger) := by
  by_cases unknown : header.symbol ≠ config.symbol ∨
      selectOrder exchange.book msg.clientOrderId msg.orderId = none
  · obtain ⟨reason, -, rejected⟩ := @handleCancelOrderRequest_unknown _ _ exchange env config header msg unknown
    rw [rejected]
    exact MatchState.publishReject_micros (fun _ _ => rfl) (licence.unknown unknown)
  have listed : header.symbol = config.symbol := by
    by_contra unlisted
    exact unknown (.inl unlisted)
  obtain ⟨ref, selected⟩ := Option.ne_none_iff_exists'.mp (fun nothing => unknown (.inr nothing))
  exact (handleCancelOrderRequest_cancels listed selected inv (licence.cancel ref listed selected)).2

end Cancel

end Exchange

end SlickSim
