import SlickSim.Ledger.Reachable
import SlickSim.OrderBook.Reference

/-!
# The sequence guard

The L3 book discards a mutation whose stamp is behind its own sequence, and says
nothing. `OrderBook.declined` is raised by any such mutation, and by an addition
of an id that is there, a change of one that is not and an execution the book did
not take. No run raises it: client requests and the mirror are stamped 0, and what
a feed stamps is drawn above the book's own sequence.

A reconnect is part of a run. It marks the subscriptions as pending and leaves
the counter of book sequences alone.
-/

set_option autoImplicit false

namespace SlickSim

/-! ## No effect raises it -/

theorem Ledger.setEntry_declined (ledger : Ledger) (id : Nat) (next : Option BookOrder) (timestamp : Nat) :
    (ledger.setEntry id next timestamp).declined = ledger.declined := by
  have told : ∀ (start : Ledger) (update : OrderUpdate),
      (start.onOrderUpdate update).declined = start.declined := by
    intro start update
    unfold Ledger.onOrderUpdate
    split
    · rfl
    · split <;> rfl
  have kept : ∀ (updates : List OrderUpdate) (start : Ledger),
      (updates.foldl Ledger.onOrderUpdate start).declined = start.declined := by
    intro updates
    induction updates with
    | nil => exact fun _ => rfl
    | cons update rest ih => exact fun start => (ih _).trans (told start update)
  exact kept _ _

theorem Sweep.declined {env : Environment} {hand : Hand} {side : BookSide} {before after : Ledger}
    (swept : Sweep env hand side before after) : after.declined = before.declined := by
  cases swept with
  | hitPhantom rests swept phantom positive within => exact Ledger.setEntry_declined ..
  | _ => rfl

theorem Micro.declined {env : Environment} {permit : Permit} {before after : Hand × Ledger}
    (step : Micro env permit before after) : after.2.declined = before.2.declined := by
  cases step with
  | sweep swept => exact swept.declined
  | startAmend registered permitted isMarked =>
      subst isMarked
      rfl
  | replace permitted isReplaced =>
      subst isReplaced
      rfl
  | startCancel registered permitted isMarked =>
      subst isMarked
      rfl
  | rest later drawn left restable clear isRanked permitted =>
      subst isRanked
      rfl
  | amendRests held later left clear isRanked place permitted =>
      subst isRanked
      rfl
  | amendGone held later filled mine isRanked =>
      subst isRanked
      rfl
  | addPhantom => exact Ledger.setEntry_declined ..
  | resizePhantom => exact Ledger.setEntry_declined ..
  | movePhantom => exact Ledger.setEntry_declined ..
  | dropPhantom => exact Ledger.setEntry_declined ..
  | _ => rfl

theorem Micros.declined {env : Environment} {permit : Permit} {before after : Hand × Ledger}
    (run : Micros env permit before after) : after.2.declined = before.2.declined := by
  induction run with
  | refl => rfl
  | tail _ step ih => exact step.declined.trans ih

namespace Exchange

variable {β : Type} [OrderBookL3 β] {env : Environment} {config : SymbolConfig} {exchange : Exchange β}
  {allowed : Exchange β → Input → Prop}

/-- No mutation of a run is declined, and the next one will not be stamped behind. -/
theorem Reachable.never_declined (reachable : Reachable env config allowed exchange) :
    exchange.book.declined = false ∧
      OrderBookL3.lastSeqNum exchange.book.l3 < exchange.nextBookSeqNum.1 := by
  obtain ⟨-, -, kept⟩ := @Reachable.invariant β _ env config Permit.all exchange allowed
    (fun ledger => ledger.declined = false)
    (by
      intro pool publishOrderUpdates
      rw [new_ledger]
      rfl)
    (fun _ _ _ _ _ admitted _ => stepLicence_of_joins (fun _ _ => trivial) admitted
      (requestLicence_of_moves fun _ _ _ _ _ _ => trivial))
    (fun _ _ untouched run => run.declined.trans untouched) reachable
  exact ⟨kept, Nat.lt_succ_of_le (Nat.le_max_right ..)⟩

/-- Two snapshots with events between them whose venue sequences come out of order, and
clients trading with the levels. -/
theorem never_declined_outOfOrder :
    let exchange := (Exchange.new (fun _ => default) true : Exchange ReferenceBook).run
      (.counted fun _ => default) (.reference .cancelResting)
      [.level2Snapshot 9
          [{ side := .buy, price := 100, newQuantity := 5, eventTime := 1, newQuantity_nonneg := by decide },
            { side := .sell, price := 103, newQuantity := 5, eventTime := 1
              newQuantity_nonneg := by decide }],
        .limit 1 .buy 103 2,
        .coinbaseEvent { type := .levelUpdate, eventTime := 3, seqNum := 12, price := 103, qty := 4
                         side := .sell, flags := { endEvent := true }, qty_nonneg := by decide },
        .coinbaseEvent { type := .trade, eventTime := 2, seqNum := 4, price := 100, qty := 2
                         side := .sell, flags := { endEvent := true }, qty_nonneg := by decide },
        .limit 2 .sell 101 3,
        .level2Snapshot 1
          [{ side := .buy, price := 101, newQuantity := 2, eventTime := 4
             newQuantity_nonneg := by decide }]]
    (OrderBookL3.lastSeqNum exchange.book.l3 = 4 ∧ exchange.matching.responses.length = 6) ∧
      exchange.book.declined = false ∧
      OrderBookL3.lastSeqNum exchange.book.l3 < exchange.nextBookSeqNum.1 := by
  have start : Reachable (.counted fun _ => default) (.reference .cancelResting) (fun _ _ => True)
      (Exchange.new (fun _ => default) true : Exchange ReferenceBook) := .new _ _
  refine ⟨by decide +kernel, ?_⟩
  exact (start.run (by decide +kernel)).never_declined

end Exchange

end SlickSim
