import SlickSim.OrderBook.Reference
import SlickSim.Ledger.Reachable

/-!
# The book is never crossed

Quantity comes to rest after a match that leaves nothing within its limit, or at a
level that is there already. The second is sound because no other path crosses the
book either: every effect of the ledger machine keeps bids below offers.
-/

set_option autoImplicit false

namespace SlickSim

/-- The two orders could not trade with each other. -/
def BookOrder.ClearOf (order other : BookOrder) : Prop :=
  match order.side with
  | .buy => order.price < other.price
  | .sell => other.price < order.price

namespace Ledger

def Uncrossed (ledger : Ledger) : Prop :=
  ∀ (left right : Nat) (bid ask : BookOrder), ledger.entry left = some bid →
    ledger.entry right = some ask → bid.side = .buy → ask.side = .sell → bid.price < ask.price

variable {ledger after : Ledger} {order : BookOrder} {id : Nat}

private theorem clearOf_of_beyond {other : BookOrder}
    (beyond : beyondLimit order.side.opposite other.price order.price = true) : order.ClearOf other := by
  unfold beyondLimit at beyond
  rw [Bool.and_eq_true, Bool.not_eq_true'] at beyond
  unfold BookOrder.ClearOf
  cases side : order.side <;>
    simp only [side, BookSide.opposite, isPriceBetterOrEqual, decide_eq_false_iff_not] at beyond ⊢ <;> omega

theorem Uncrossed.of_fewer (clear : ledger.Uncrossed)
    (fewer : ∀ {id resting}, after.entry id = some resting →
      ∃ old, ledger.entry id = some old ∧ resting.side = old.side ∧ resting.price = old.price) :
    after.Uncrossed := by
  intro left right bid ask isBid isAsk bidSide askSide
  obtain ⟨oldBid, wasBid, sameBidSide, sameBid⟩ := fewer isBid
  obtain ⟨oldAsk, wasAsk, sameAskSide, sameAsk⟩ := fewer isAsk
  rw [sameBid, sameAsk]
  exact clear _ _ _ _ wasBid wasAsk (sameBidSide.symm.trans bidSide) (sameAskSide.symm.trans askSide)

theorem Uncrossed.of_taken {side : BookSide} (clear : ledger.Uncrossed)
    (taken : ledger.TakenFrom side after) : after.Uncrossed := by
  apply clear.of_fewer
  intro id resting found
  obtain ⟨old, foundOld, smaller⟩ := taken.shrinks found
  exact ⟨old, foundOld, smaller.side, smaller.price⟩

theorem Uncrossed.place (clear : ledger.Uncrossed)
    (placed : after.entry = Function.update ledger.entry id (some order))
    (apart : ∀ other resting, ledger.entry other = some resting →
      resting.side = order.side.opposite → order.ClearOf resting) : after.Uncrossed := by
  have cases_ : ∀ {other resting}, after.entry other = some resting →
      resting = order ∨ ledger.entry other = some resting := by
    intro other resting found
    rw [placed] at found
    by_cases same : other = id
    · rw [same, Function.update_self] at found
      exact .inl (Option.some.inj found).symm
    · rw [Function.update_of_ne same] at found
      exact .inr found
  intro left right bid ask isBid isAsk bidSide askSide
  rcases cases_ isBid with rfl | wasBid
  · rcases cases_ isAsk with rfl | wasAsk
    · rw [bidSide] at askSide
      cases askSide
    · have apart := apart right ask wasAsk (by rw [bidSide, askSide]; rfl)
      unfold BookOrder.ClearOf at apart
      rwa [bidSide] at apart
  · rcases cases_ isAsk with rfl | wasAsk
    · have apart := apart left bid wasBid (by rw [bidSide, askSide]; rfl)
      unfold BookOrder.ClearOf at apart
      rwa [askSide] at apart
    · exact clear _ _ _ _ wasBid wasAsk bidSide askSide

theorem Uncrossed.rest (clear : ledger.Uncrossed)
    (placed : after.entry = Function.update ledger.entry id (some order))
    (beyond : ledger.Beyond order.side.opposite order.price) : after.Uncrossed :=
  clear.place placed fun other resting found opposite =>
    clearOf_of_beyond (beyond other resting found opposite)

/-- A level that is there already is clear of the other side. -/
theorem Uncrossed.join {peer : BookOrder} {other : Nat} (clear : ledger.Uncrossed)
    (placed : after.entry = Function.update ledger.entry id (some order))
    (rests : ledger.entry other = some peer) (sameSide : peer.side = order.side)
    (samePrice : peer.price = order.price) : after.Uncrossed := by
  apply clear.place placed
  intro opponent resting found opposite
  unfold BookOrder.ClearOf
  cases side : order.side with
  | buy =>
      rw [side] at sameSide opposite
      have below := clear _ _ _ _ rests found sameSide opposite
      show order.price < resting.price
      omega
  | sell =>
      rw [side] at sameSide opposite
      have below := clear _ _ _ _ found rests opposite sameSide
      show resting.price < order.price
      omega

end Ledger

open Ledger

/-- The permit under which a mirrored order stays at its price. -/
def Permit.inPlace : Permit :=
  { Permit.all with move := fun order next => next.price = order.price }

theorem Micro.uncrossed {env : Environment} {before after : Hand × Ledger}
    (step : Micro env Permit.inPlace before after) (inv : before.2.Represents before.1)
    (clear : before.2.Uncrossed) : after.2.Uncrossed := by
  have phantomEntry : ∀ {ledger : Ledger} {order : BookOrder} {next : Option BookOrder}
      {timestamp : Nat}, ledger.Represents .none → ledger.owner order.orderId = none →
      (∀ order', next = some order' → order'.orderId = order.orderId) →
      (ledger.setEntry order.orderId next timestamp).entry =
        Function.update ledger.entry order.orderId next := by
    intro ledger order next timestamp inv phantom keyed
    rw [setEntry_phantom (fun _ found => inv.indexed.entry_id found) keyed phantom]
    rfl
  cases step with
  | sweep swept => exact clear.of_taken (swept.takenFrom inv)
  | reject permitted => exact clear
  | touch => exact clear
  | accept unused numbered later drawn clientFree named orderFree whole unfilled unpriced permitted =>
      exact clear
  | ack => exact clear
  | refuse permitted => exact clear
  | rejectRefused permitted => exact clear
  | cancelHand unrestable unfinished => exact clear
  | dropDone => exact clear
  | dropFilled filled traded => exact clear
  | rest later drawn left restable beyond isRanked permitted =>
      subst isRanked
      refine clear.rest rfl ?_
      unfold entryOf
      rw [updateOrder_heap_self]
      exact beyond
  | startAmend registered permitted isMarked =>
      subst isMarked
      exact clear
  | abortAmend permitted => exact clear
  | replace permitted isReplaced =>
      subst isReplaced
      exact clear
  | cancelAmended unrestable => exact clear
  | amendRests held later left beyond isRanked place permitted =>
      subst isRanked
      refine clear.rest rfl ?_
      unfold entryOf
      rw [updateOrder_heap_self]
      exact beyond
  | @amendGone ledger _ ref timestamp globals priority joined held later filled mine ranked isRanked =>
      subst isRanked
      apply clear.of_fewer
      intro id resting found
      have kept : Function.update ledger.entry (ledger.heap ref).id none id = some resting := found
      by_cases same : id = (ledger.heap ref).id
      · rw [same, Function.update_self] at kept
        cases kept
      · rw [Function.update_of_ne same] at kept
        exact ⟨resting, kept, rfl, rfl⟩
  | startCancel registered permitted isMarked =>
      subst isMarked
      exact clear
  | finishCancel =>
      obtain ⟨idle, swept⟩ := inv.cancelling_sweep _ _
      exact clear.of_taken (swept.takenFrom idle)
  | @addPhantom ledger order timestamp absent foreign numbered positive beyond permitted =>
      have placed := @phantomEntry ledger order (some order) timestamp inv
        (owner_eq_none_of_not_owned inv foreign) (by rintro _ ⟨⟩; rfl)
      rcases beyond with beyond | ⟨id, peer, rests, sameSide, samePrice⟩
      · exact clear.rest placed beyond
      · exact clear.join placed rests sameSide samePrice
  | @resizePhantom ledger order qty priority timestamp rests phantom positive within ranked =>
      exact clear.join (phantomEntry inv phantom (by rintro _ ⟨⟩; rfl)) rests rfl rfl
  | @movePhantom ledger order next timestamp rests phantom positive sameId sameSide permitted =>
      exact clear.join (phantomEntry inv phantom (by rintro _ ⟨⟩; exact sameId)) rests sameSide.symm
        permitted.symm
  | @dropPhantom ledger order timestamp rests phantom =>
      have dropped := @phantomEntry ledger order none timestamp inv phantom (by rintro _ ⟨⟩)
      apply clear.of_fewer
      intro id resting found
      rw [dropped] at found
      by_cases same : id = order.orderId
      · rw [same, Function.update_self] at found
        cases found
      · rw [Function.update_of_ne same] at found
        exact ⟨resting, found, rfl, rfl⟩
  | @clearMD ledger =>
      apply clear.of_fewer
      intro id resting found
      dsimp only at found
      split at found
      · exact ⟨resting, found, rfl, rfl⟩
      · cases found

theorem Micros.uncrossed {env : Environment} {before after : Hand × Ledger}
    (run : Micros env Permit.inPlace before after) (inv : before.2.Represents before.1)
    (clear : before.2.Uncrossed) : after.2.Uncrossed := by
  induction run with
  | refl => exact clear
  | tail earlier step ih => exact step.uncrossed (Micros.represents earlier inv) ih

namespace Exchange

variable {β : Type} [OrderBookL3 β] {env : Environment} {config : SymbolConfig}
  {exchange : Exchange β}

/-- A mirrored change that keeps its place in the queue keeps its price too. -/
def MirrorsInPlace (exchange : Exchange β) : Input → Prop
  | .marketOrder event => event.action = .change → event.requeue = false →
      ∀ resting ∈ OrderBookL3.findOrder exchange.book.l3 event.bookOrderId,
        event.price = resting.price
  | _ => True

instance (exchange : Exchange β) (input : Input) : Decidable (exchange.MirrorsInPlace input) :=
  match input with
  | .marketOrder _ => inferInstanceAs (Decidable (_ → _ → ∀ resting ∈ _, _ = _))
  | .newOrder .. | .amend .. | .cancel .. | .level2Snapshot .. | .coinbaseEvent .. | .l2Snapshot ..
  | .l2Diff .. | .trades .. | .marketTrade .. | .flushMarketEvents | .subscribe .. | .subscribeServed | .elsewhere .. =>
      isTrue trivial

theorem Reachable.uncrossed (reachable : Reachable env config MirrorsInPlace exchange) :
    exchange.ledger.Uncrossed := by
  refine (@Reachable.invariant β _ env config .inPlace exchange MirrorsInPlace Ledger.Uncrossed
    ?_ ?_ ?_ reachable).2.2
  · intro pool publishOrderUpdates
    rw [new_ledger]
    rintro _ _ _ _ ⟨⟩
  · intro exchange input _ _ _ admitted inPlace
    refine stepLicence_of_joins (fun _ _ => trivial) admitted (requestLicence_of_moves ?_)
    rintro event rfl resting found isChange queued
    exact inPlace isChange queued resting found
  · intro before after inv _ clear run
    exact run.uncrossed inv clear

/-- The best bid stays below the best offer. -/
theorem bestBid_lt_bestAsk (reachable : Reachable env config MirrorsInPlace exchange)
    {bid ask : PriceLevelL3} (isBid : OrderBookL3.getBestLevel exchange.book.l3 .buy = some bid)
    (isAsk : OrderBookL3.getBestLevel exchange.book.l3 .sell = some ask) : bid.price < ask.price := by
  have front : ∀ {side : BookSide} {level : PriceLevelL3},
      OrderBookL3.getBestLevel exchange.book.l3 side = some level →
      ∃ order, exchange.ledger.entry order.orderId = some order ∧ order.side = side ∧
        order.price = level.price := by
    intro side level best
    obtain ⟨filled, inside, prices⟩ := mem_priceLevels (List.mem_of_head? best)
    obtain ⟨order, member⟩ := List.exists_mem_of_ne_nil _ filled
    have rests := inside.subset member
    exact ⟨order, OrderBookL3.findOrder_of_mem rests, OrderBookL3.side_of_mem rests, prices order member⟩
  obtain ⟨bidOrder, bidRests, bidSide, bidPrice⟩ := front isBid
  obtain ⟨askOrder, askRests, askSide, askPrice⟩ := front isAsk
  rw [← bidPrice, ← askPrice]
  exact reachable.uncrossed _ _ _ _ bidRests askRests bidSide askSide

/-- The venue's levels, then a client bid between them and one that trades. -/
theorem bestBid_lt_bestAsk_betweenLevels :
    let exchange := (Exchange.new (fun _ => default) true : Exchange ReferenceBook).run
      (.counted fun _ => default) (.reference .cancelResting)
      [.level2Snapshot 1
          [{ side := .buy, price := 100, newQuantity := 5, eventTime := 1, newQuantity_nonneg := by decide },
            { side := .sell, price := 103, newQuantity := 5, eventTime := 1
              newQuantity_nonneg := by decide }],
        .limit 1 .buy 101 4, .limit 2 .sell 101 3, .reprice 1 102 6]
    ((OrderBookL3.getBestLevel exchange.book.l3 .buy).map PriceLevelL3.price = some 102 ∧
      (OrderBookL3.getBestLevel exchange.book.l3 .sell).map PriceLevelL3.price = some 103) ∧
    ∀ bid ask, OrderBookL3.getBestLevel exchange.book.l3 .buy = some bid →
      OrderBookL3.getBestLevel exchange.book.l3 .sell = some ask → bid.price < ask.price := by
  have start : Reachable (.counted fun _ => default) (.reference .cancelResting) MirrorsInPlace
      (Exchange.new (fun _ => default) true : Exchange ReferenceBook) := .new _ _
  intro exchange
  refine ⟨by decide +kernel, fun bid ask isBid isAsk => ?_⟩
  exact bestBid_lt_bestAsk (start.run (by decide +kernel)) isBid isAsk

end Exchange

end SlickSim
