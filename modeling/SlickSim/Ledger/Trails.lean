import SlickSim.Ledger.Reachable

/-!
# The trail retells the book

Every effect tells the observers what it exchanges. Replayed from an empty book,
what they were told never fails and gives the orders that rest.
-/

set_option autoImplicit false

namespace SlickSim

open OrderBookL3 (afterExecution)

namespace Ledger

/-- A subscriber that was told the trail has the orders of the ledger. -/
def Retold (ledger : Ledger) : Prop :=
  Retells ledger.trail ledger.entry

variable {ledger after : Ledger} {hand : Hand} {id timestamp : Nat} {next : Option BookOrder}

theorem Retold.place (retold : ledger.Retold) (inv : ledger.Represents hand)
    (placed : ∀ order, next = some order → order.orderId = id ∧ 0 < order.quantity ∧
      ∀ old, ledger.entry id = some old → order.side = old.side)
    (entry : after.entry = Function.update ledger.entry id next)
    (trail : after.trail = ledger.trail ++ exchangeUpdates (ledger.entry id) next timestamp) :
    after.Retold := by
  unfold Retold
  rw [entry, trail]
  refine retold.append (replayOrders_exchange ?_ placed)
  intro order rests
  exact ⟨inv.indexed.entry_id rests, inv.agrees.positive rests⟩

theorem Retold.replace {old order : BookOrder} (retold : ledger.Retold) (inv : ledger.Represents hand)
    (rests : ledger.entry id = some old) (sameId : order.orderId = old.orderId)
    (sameSide : order.side = old.side) (positive : 0 < order.quantity)
    (entry : after.entry = Function.update ledger.entry id (some order))
    (trail : after.trail = ledger.trail ++ exchangeUpdates (ledger.entry id) (some order) timestamp) :
    after.Retold := by
  refine retold.place inv ?_ entry trail
  rintro _ ⟨⟩
  refine ⟨sameId.trans (inv.indexed.entry_id rests), positive, ?_⟩
  intro other found
  rw [rests] at found
  cases found
  exact sameSide

theorem Retold.remove (retold : ledger.Retold) (inv : ledger.Represents hand)
    (entry : after.entry = Function.update ledger.entry id none)
    (trail : after.trail = ledger.trail ++ exchangeUpdates (ledger.entry id) none timestamp) :
    after.Retold :=
  retold.place inv (by rintro _ ⟨⟩) entry trail

/-- Letting the observers know exchanges nothing more. -/
theorem foldl_onOrderUpdate_book (updates : List OrderUpdate) (ledger : Ledger) :
    (updates.foldl onOrderUpdate ledger).entry = ledger.entry ∧
      (updates.foldl onOrderUpdate ledger).trail = ledger.trail := by
  induction updates generalizing ledger with
  | nil => exact ⟨rfl, rfl⟩
  | cons update rest ih =>
      have same : (ledger.onOrderUpdate update).entry = ledger.entry ∧
          (ledger.onOrderUpdate update).trail = ledger.trail := by
        unfold onOrderUpdate
        split
        · exact ⟨rfl, rfl⟩
        · split <;> exact ⟨rfl, rfl⟩
      exact ⟨(ih _).1.trans same.1, (ih _).2.trans same.2⟩

@[simp] theorem setEntry_entry (ledger : Ledger) (id : Nat) (next : Option BookOrder) (timestamp : Nat) :
    (ledger.setEntry id next timestamp).entry = Function.update ledger.entry id next :=
  (foldl_onOrderUpdate_book _ _).1

@[simp] theorem setEntry_trail (ledger : Ledger) (id : Nat) (next : Option BookOrder) (timestamp : Nat) :
    (ledger.setEntry id next timestamp).trail =
      ledger.trail ++ exchangeUpdates (ledger.entry id) next timestamp :=
  (foldl_onOrderUpdate_book _ _).2

end Ledger

open Ledger

theorem Sweep.retold {env : Environment} {hand : Hand} {side : BookSide} {before after : Ledger}
    (step : Sweep env hand side before after) (inv : before.Represents hand) (retold : before.Retold) :
    after.Retold := by
  cases step with
  | tick later => exact retold
  | @hitPhantom resting qty timestamp rests swept phantom positive within =>
      refine retold.place inv ?_ (setEntry_entry ..) (setEntry_trail ..)
      intro order left
      obtain ⟨partly, rfl⟩ := afterExecution_eq_some left
      refine ⟨rfl, show 0 < resting.quantity - qty by omega, ?_⟩
      intro old found
      rw [rests] at found
      cases found
      rfl
  | @hitPartly resting ref qty timestamp rests swept ours apart positive within =>
      have left : 0 < resting.quantity - qty := by omega
      exact @Retold.replace _ _ _ _ timestamp resting { resting with quantity := resting.quantity - qty } retold
        inv rests rfl rfl left rfl rfl
  | hitFully rests swept ours apart => exact retold.remove inv rfl rfl
  | cancelOwn rests swept ours apart => exact retold.remove inv rfl rfl
  | aggress held positive within => exact retold

theorem Micro.retold {env : Environment} {permit : Permit} {before after : Hand × Ledger}
    (step : Micro env permit before after) (inv : before.2.Represents before.1) (retold : before.2.Retold) :
    after.2.Retold := by
  obtain ⟨hand, ledger⟩ := before
  obtain ⟨hand', ledger'⟩ := after
  dsimp only at inv retold ⊢
  cases step with
  | sweep swept => exact swept.retold inv retold
  | reject permitted => exact retold
  | touch => exact retold
  | accept unused numbered later drawn clientFree named orderFree whole unfilled unpriced permitted =>
      exact retold
  | ack => exact retold
  | refuse permitted => exact retold
  | rejectRefused permitted => exact retold
  | cancelHand unrestable unfinished => exact retold
  | dropDone => exact retold
  | dropFilled filled traded => exact retold
  | @rest _ ref timestamp globals later drawn left restable clear ranked isRanked permitted =>
      have absent := inv.indexed.fresh_absent (show (Hand.working ref).fresh = some ref from rfl)
      have isEntry : ranked.entryOf ref = ((ledger.heap ref).withPriority globals.nextPriority).bookEntry := by
        rw [isRanked]
        unfold entryOf
        rw [updateOrder_heap_self]
      refine @Retold.place _ _ _ _ timestamp (some (ranked.entryOf ref)) retold inv ?_
        (by rw [isRanked]; rfl) (by rw [isRanked]; rfl)
      rintro _ ⟨⟩
      rw [isEntry]
      refine ⟨rfl, left, ?_⟩
      intro old found
      rw [absent] at found
      cases found
  | startAmend registered permitted isMarked =>
      subst isMarked
      exact retold
  | abortAmend permitted => exact retold
  | replace permitted isReplaced =>
      subst isReplaced
      exact retold
  | cancelAmended unrestable => exact retold
  | @amendRests _ _ ref timestamp globals priority joined held later left clear ranked isRanked place
      permitted =>
      have lagging : hand.lagging = some ref := by
        rcases held with rfl | rfl <;> rfl
      obtain ⟨⟨resting, rests, sameSide⟩, -, -⟩ := (inv.agrees.at_ ref).lags lagging
      have isEntry : ranked.entryOf ref = ((ledger.heap ref).withPriority priority).bookEntry := by
        rw [isRanked]
        unfold entryOf
        rw [updateOrder_heap_self]
      refine @Retold.replace _ _ _ _ timestamp resting (ranked.entryOf ref) retold inv rests ?_ ?_ ?_
        (by rw [isRanked]; rfl) (by rw [isRanked]; rfl)
      · rw [isEntry, inv.indexed.entry_id rests]
        rfl
      · rw [isEntry, sameSide]
        rfl
      · rw [isEntry]
        exact left
  | @amendGone _ _ ref timestamp globals priority joined held later filled mine ranked isRanked =>
      subst isRanked
      exact retold.remove inv rfl rfl
  | startCancel registered permitted isMarked =>
      subst isMarked
      exact retold
  | finishCancel =>
      obtain ⟨idle, swept⟩ := inv.cancelling_sweep _ _
      exact swept.retold idle retold
  | addPhantom absent foreign numbered positive clear permitted =>
      refine retold.place inv ?_ (setEntry_entry ..) (setEntry_trail ..)
      rintro _ ⟨⟩
      refine ⟨rfl, positive, ?_⟩
      intro old found
      rw [absent] at found
      cases found
  | @resizePhantom _ order qty priority timestamp rests phantom positive within ranked =>
      exact @Retold.replace _ _ _ _ timestamp order { order with quantity := qty, priority } retold inv rests
        rfl rfl positive (setEntry_entry ..) (setEntry_trail ..)
  | movePhantom rests phantom positive sameId sameSide permitted =>
      exact retold.replace inv rests sameId sameSide positive (setEntry_entry ..) (setEntry_trail ..)
  | dropPhantom rests phantom => exact retold.remove inv (setEntry_entry ..) (setEntry_trail ..)
  | clearMD retells => exact retells

theorem Micros.retold {env : Environment} {permit : Permit} {before after : Hand × Ledger}
    (run : Micros env permit before after) (inv : before.2.Represents before.1) (retold : before.2.Retold) :
    after.2.Retold := by
  induction run with
  | refl => exact retold
  | tail earlier step ih => exact step.retold (Micros.represents earlier inv) ih

/-- In every reachable state the observers were told what rests. -/
theorem Exchange.Reachable.retold {β : Type} [OrderBookL3 β] {env : Environment} {config : SymbolConfig}
    {exchange : Exchange β} {allowed : Exchange β → Input → Prop}
    (reachable : Reachable env config allowed exchange) : exchange.ledger.Retold := by
  refine (@Reachable.invariant β _ env config Permit.all exchange allowed Ledger.Retold ?_ ?_ ?_
    reachable).2.2
  · intro pool publishOrderUpdates
    rw [new_ledger]
    rfl
  · intro exchange input _ _ _ admitted _
    exact stepLicence_of_joins (fun _ _ => trivial) admitted
      (requestLicence_of_moves fun _ _ _ _ _ _ => trivial)
  · intro before after inv _ retold run
    exact run.retold inv retold

end SlickSim
