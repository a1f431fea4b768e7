import SlickSim.Ledger.Preservation

/-!
# What a sweep leaves alone

An aggressor takes from one side of the book and from nothing else: orders on
the other side, the terms of every order and the set of client order numbers
stay as they are, and no order joins a level.
-/

set_option autoImplicit false

namespace SlickSim

open OrderBookL3 (afterExecution)

/-- The fields of an order that fills do not touch. -/
structure Order.SameTerms (left right : Order) : Prop where
  symbol : left.symbol = right.symbol
  userId : left.userId = right.userId
  clientOrderId : left.clientOrderId = right.clientOrderId
  orderId : left.orderId = right.orderId
  id : left.id = right.id
  priority : left.priority = right.priority
  requestTag : left.requestTag = right.requestTag
  side : left.side = right.side
  type : left.type = right.type
  status : left.status = right.status
  timeInForce : left.timeInForce = right.timeInForce
  price : left.price = right.price
  quantity : left.quantity = right.quantity
  clientId : left.clientId = right.clientId
  createdTime : left.createdTime = right.createdTime

theorem Order.SameTerms.refl (order : Order) : order.SameTerms order :=
  ⟨rfl, rfl, rfl, rfl, rfl, rfl, rfl, rfl, rfl, rfl, rfl, rfl, rfl, rfl, rfl⟩

theorem Order.SameTerms.trans {first second third : Order} (left : second.SameTerms first)
    (right : third.SameTerms second) : third.SameTerms first where
  symbol := right.symbol.trans left.symbol
  userId := right.userId.trans left.userId
  clientOrderId := right.clientOrderId.trans left.clientOrderId
  orderId := right.orderId.trans left.orderId
  id := right.id.trans left.id
  priority := right.priority.trans left.priority
  requestTag := right.requestTag.trans left.requestTag
  side := right.side.trans left.side
  type := right.type.trans left.type
  status := right.status.trans left.status
  timeInForce := right.timeInForce.trans left.timeInForce
  price := right.price.trans left.price
  quantity := right.quantity.trans left.quantity
  clientId := right.clientId.trans left.clientId
  createdTime := right.createdTime.trans left.createdTime

theorem Order.execute_sameTerms (order : Order) (price qty : Int) (timestamp : Nat) :
    (order.execute price qty timestamp).SameTerms order :=
  ⟨rfl, rfl, rfl, rfl, rfl, rfl, rfl, rfl, rfl, rfl, rfl, rfl, rfl, rfl, rfl⟩

theorem Order.withoutLeaves_sameTerms (order : Order) : order.withoutLeaves.SameTerms order :=
  ⟨rfl, rfl, rfl, rfl, rfl, rfl, rfl, rfl, rfl, rfl, rfl, rfl, rfl, rfl, rfl⟩

/-- The order is where it was in the queue, perhaps smaller. -/
structure BookOrder.Shrinks (after before : BookOrder) : Prop where
  orderId : after.orderId = before.orderId
  side : after.side = before.side
  price : after.price = before.price
  priority : after.priority = before.priority
  quantity : after.quantity ≤ before.quantity

theorem BookOrder.Shrinks.refl (order : BookOrder) : order.Shrinks order :=
  ⟨rfl, rfl, rfl, rfl, Int.le_refl _⟩

theorem BookOrder.Shrinks.trans {first second third : BookOrder} (left : second.Shrinks first)
    (right : third.Shrinks second) : third.Shrinks first where
  orderId := right.orderId.trans left.orderId
  side := right.side.trans left.side
  price := right.price.trans left.price
  priority := right.priority.trans left.priority
  quantity := Int.le_trans right.quantity left.quantity

/-- `after` is `before` with liquidity of one side taken. -/
structure Ledger.TakenFrom (side : BookSide) (before after : Ledger) : Prop where
  terms : ∀ ref, (after.heap ref).SameTerms (before.heap ref)
  fills : ∀ ref, (before.heap ref).cumQuantity ≤ (after.heap ref).cumQuantity
  shrinks : ∀ {id resting}, after.entry id = some resting →
    ∃ old, before.entry id = some old ∧ resting.Shrinks old
  otherSide : ∀ {id old}, before.entry id = some old → old.side ≠ side → after.entry id = some old
  owner : ∀ {id}, after.entry id ≠ none → after.owner id = before.owner id
  owned : ∀ {id}, after.Owned id ↔ before.Owned id
  joins : after.joins = before.joins
  later : before.globals.Le after.globals
  reports : ∃ published, after.responses = before.responses ++ published

namespace Ledger.TakenFrom

variable {side : BookSide}

theorem refl (side : BookSide) (ledger : Ledger) : ledger.TakenFrom side ledger where
  terms := fun _ => .refl _
  fills := fun _ => Int.le_refl _
  shrinks := fun found => ⟨_, found, .refl _⟩
  otherSide := fun found _ => found
  owner := fun _ => rfl
  owned := Iff.rfl
  joins := rfl
  later := ⟨le_rfl, le_rfl, le_rfl, le_rfl, le_rfl⟩
  reports := ⟨[], (List.append_nil _).symm⟩

theorem trans {first second third : Ledger} (left : first.TakenFrom side second)
    (right : second.TakenFrom side third) : first.TakenFrom side third where
  terms := fun ref => (left.terms ref).trans (right.terms ref)
  fills := fun ref => Int.le_trans (left.fills ref) (right.fills ref)
  shrinks := by
    intro id resting found
    obtain ⟨between, foundBetween, smaller⟩ := right.shrinks found
    obtain ⟨old, foundOld, smallerYet⟩ := left.shrinks foundBetween
    exact ⟨old, foundOld, smallerYet.trans smaller⟩
  otherSide := fun found elsewhere => right.otherSide (left.otherSide found elsewhere) elsewhere
  owner := by
    intro id present
    obtain ⟨resting, found⟩ := Option.ne_none_iff_exists'.mp present
    obtain ⟨between, foundBetween, -⟩ := right.shrinks found
    rw [right.owner present, left.owner]
    rw [foundBetween]
    rintro ⟨⟩
  owned := right.owned.trans left.owned
  joins := right.joins.trans left.joins
  later :=
    ⟨left.later.nextPriority.trans right.later.nextPriority,
      left.later.nextOrderId.trans right.later.nextOrderId,
      left.later.nextTradeId.trans right.later.nextTradeId,
      left.later.uuidDraws.trans right.later.uuidDraws,
      left.later.clockReads.trans right.later.clockReads⟩
  reports := by
    obtain ⟨early, earlyIs⟩ := left.reports
    obtain ⟨late, lateIs⟩ := right.reports
    exact ⟨early ++ late, by rw [lateIs, earlyIs, List.append_assoc]⟩

variable {ledger : Ledger} {env : Environment} {ref : Nat}

theorem tick {globals : Globals} (later : ledger.globals.Le globals) :
    ledger.TakenFrom side { ledger with globals } :=
  { TakenFrom.refl side ledger with later }

theorem updateOrder {change : Order → Order}
    (same : (change (ledger.heap ref)).SameTerms (ledger.heap ref))
    (more : (ledger.heap ref).cumQuantity ≤ (change (ledger.heap ref)).cumQuantity) :
    ledger.TakenFrom side (ledger.updateOrder ref change) := by
  have changed : ∀ other, ((ledger.updateOrder ref change).heap other).SameTerms (ledger.heap other) ∧
      (ledger.heap other).cumQuantity ≤ ((ledger.updateOrder ref change).heap other).cumQuantity := by
    intro other
    by_cases this : other = ref
    · subst this
      rw [updateOrder_heap_self]
      exact ⟨same, more⟩
    · rw [updateOrder_heap_of_ne change this]
      exact ⟨.refl _, Int.le_refl _⟩
  exact { TakenFrom.refl side ledger with
    terms := fun other => (changed other).1
    fills := fun other => (changed other).2 }

theorem publish {write : OrderResponse → OrderResponse}
    (known : ∀ slot, (write slot).orderNum = 0 ∨ ledger.Owned (write slot).orderNum) :
    ledger.TakenFrom side (ledger.publish env write) :=
  { TakenFrom.refl side ledger with
    owned := owned_publish known _
    reports := ⟨_, rfl⟩ }

theorem freeOrder : ledger.TakenFrom side (ledger.freeOrder ref) :=
  { TakenFrom.refl side ledger with }

theorem unregisterOrder (gone : ledger.entry (ledger.heap ref).id = none) :
    ledger.TakenFrom side (ledger.unregisterOrder ref) :=
  { TakenFrom.refl side ledger with
    owner := by
      intro id present
      have different : id ≠ (ledger.heap ref).id := by
        rintro rfl
        exact present gone
      exact Function.update_of_ne different .. }

theorem joinedIds_shrinks {timestamp : Nat} {resting : BookOrder} {next : Option BookOrder}
    (sized : 0 ≤ resting.quantity) (smaller : ∀ order, next = some order → order.Shrinks resting) :
    joinedIds (exchangeUpdates (some resting) next timestamp) = [] := by
  cases next with
  | none => simp [exchangeUpdates, joinedIds, BookOrder.removed, OrderUpdate.joins, sized]
  | some order =>
      obtain ⟨-, -, samePrice, -, noMore⟩ := smaller order rfl
      unfold exchangeUpdates
      dsimp only
      split
      · rfl
      · simp [joinedIds, BookOrder.changed, OrderUpdate.joins, samePrice, noMore]

theorem placeEntry {id timestamp : Nat} {resting : BookOrder} {next : Option BookOrder}
    (rests : ledger.entry id = some resting) (swept : resting.side = side)
    (sized : 0 ≤ resting.quantity) (smaller : ∀ order, next = some order → order.Shrinks resting) :
    ledger.TakenFrom side (ledger.placeEntry id next timestamp) :=
  { TakenFrom.refl side ledger with
    shrinks := by
      intro other order found
      by_cases same : other = id
      · subst same
        rw [placeEntry_entry_self] at found
        exact ⟨resting, rests, smaller order found⟩
      · rw [placeEntry_entry_of_ne same] at found
        exact ⟨order, found, .refl _⟩
    otherSide := by
      intro other old found elsewhere
      rw [placeEntry_entry_of_ne]
      · exact found
      · rintro rfl
        rw [rests] at found
        cases found
        exact elsewhere swept
    owner := fun _ => rfl
    joins := by
      show ledger.joins ++ joinedIds (exchangeUpdates (ledger.entry id) next timestamp) = ledger.joins
      rw [rests, joinedIds_shrinks sized smaller, List.append_nil] }

theorem setPhantom {id timestamp : Nat} {resting : BookOrder} {next : Option BookOrder}
    (rests : ledger.entry id = some resting) (keyed : resting.orderId = id)
    (phantom : ledger.owner id = none) (swept : resting.side = side) (sized : 0 ≤ resting.quantity)
    (smaller : ∀ order, next = some order → order.Shrinks resting) :
    ledger.TakenFrom side (ledger.setEntry id next timestamp) := by
  have keyedBefore : ∀ order, ledger.entry id = some order → order.orderId = id := by
    intro order found
    rw [rests] at found
    cases found
    exact keyed
  have keyedNext : ∀ order, next = some order → order.orderId = id := by
    intro order isNext
    exact (smaller order isNext).orderId.trans keyed
  rw [setEntry_phantom keyedBefore keyedNext phantom]
  exact { TakenFrom.placeEntry rests swept sized smaller with }

end Ledger.TakenFrom

/-- The same orders rest on a side, as they did before. -/
def Ledger.SameSide (side : BookSide) (before after : Ledger) : Prop :=
  ∀ id resting, resting.side = side →
    (after.entry id = some resting ↔ before.entry id = some resting)

theorem Ledger.TakenFrom.sameSide {side other : BookSide} {before after : Ledger}
    (taken : before.TakenFrom side after) (different : other ≠ side) :
    before.SameSide other after := by
  intro id resting isOther
  constructor
  · intro found
    obtain ⟨old, foundOld, smaller⟩ := taken.shrinks found
    have kept := taken.otherSide foundOld (by rw [← smaller.side, isOther]; exact different)
    rw [Option.some.inj (found.symm.trans kept)]
    exact foundOld
  · intro found
    exact taken.otherSide found (by rw [isOther]; exact different)

namespace Sweep

open Ledger

variable {env : Environment} {hand : Hand} {side : BookSide} {before after : Ledger}

private theorem takenFrom_own {ref : Nat} {resting : BookOrder} (change : Order → Order)
    (next : Option BookOrder) (timestamp : Nat) (inv : before.Represents hand)
    (rests : before.entry resting.orderId = some resting) (swept : resting.side = side)
    (ours : before.owner resting.orderId = some ref)
    (same : (change (before.heap ref)).SameTerms (before.heap ref))
    (more : (before.heap ref).cumQuantity ≤ (change (before.heap ref)).cumQuantity)
    (smaller : ∀ order, next = some order → order.Shrinks resting) {taken : Ledger}
    (isTaken : taken = (before.updateOrder ref change).placeEntry resting.orderId next timestamp) :
    before.TakenFrom side taken ∧ taken.Owned (taken.heap ref).id ∧
      (taken.heap ref).id = resting.orderId := by
  have booked : before.TakenFrom side (before.updateOrder ref change) := .updateOrder same more
  have placed : (before.updateOrder ref change).TakenFrom side taken := by
    rw [isTaken]
    exact .placeEntry rests swept (Int.le_of_lt (inv.agrees.positive rests)) smaller
  have done := booked.trans placed
  have sameId : (taken.heap ref).id = resting.orderId :=
    (done.terms ref).id.trans (inv.indexed.owner_id ours)
  refine ⟨done, ?_, sameId⟩
  rw [done.owned, (done.terms ref).id]
  exact inv.indexed.registered_owned (inv.indexed.registered ours)

theorem takenFrom (swept : Sweep env hand side before after) (inv : before.Represents hand) :
    before.TakenFrom side after := by
  cases swept with
  | tick later => exact .tick later
  | hitPhantom rests swept phantom positive within =>
      refine .setPhantom rests rfl phantom swept (Int.le_of_lt (inv.agrees.positive rests)) ?_
      intro order left
      obtain ⟨-, rfl⟩ := afterExecution_eq_some left
      exact ⟨rfl, rfl, rfl, rfl, by simp only; omega⟩
  | @hitPartly resting ref qty timestamp rests swept ours apart positive within =>
      obtain ⟨taken, owned, -⟩ := takenFrom_own (fun order => order.execute order.price qty timestamp)
        (some { resting with quantity := resting.quantity - qty }) timestamp inv rests swept ours
        (Order.execute_sameTerms ..) (by rw [Order.execute_cum]; omega)
        (by rintro _ ⟨⟩; exact ⟨rfl, rfl, rfl, rfl, by simp only; omega⟩) rfl
      unfold Ledger.fillPartly
      dsimp only
      refine taken.trans (.publish ?_)
      intro slot
      exact .inr owned
  | @hitFully resting ref timestamp rests swept ours apart =>
      have positive := inv.agrees.positive rests
      obtain ⟨taken, owned, sameId⟩ := takenFrom_own
        (fun order => order.execute order.price resting.quantity timestamp) none timestamp inv rests
        swept ours (Order.execute_sameTerms ..) (by rw [Order.execute_cum]; omega) (by rintro _ ⟨⟩) rfl
      have gone := taken.trans (.unregisterOrder (by rw [sameId]; exact placeEntry_entry_self))
      unfold Ledger.fillFully
      dsimp only
      refine gone.trans (TakenFrom.trans (.publish ?_) .freeOrder)
      intro slot
      exact .inr owned
  | @cancelOwn ref timestamp requestTime resting rests swept ours apart =>
      obtain ⟨taken, owned, sameId⟩ := takenFrom_own Order.withoutLeaves none timestamp inv rests swept
        ours (Order.withoutLeaves_sameTerms _) (Int.le_refl _) (by rintro _ ⟨⟩) rfl
      have gone := taken.trans (.unregisterOrder (by rw [sameId]; exact placeEntry_entry_self))
      unfold Ledger.cancelOrder
      dsimp only
      rw [inv.indexed.owner_id ours]
      refine gone.trans (TakenFrom.trans (.publish ?_) .freeOrder)
      intro slot
      exact .inr owned
  | aggress held positive within =>
      refine (TakenFrom.updateOrder (Order.execute_sameTerms ..) (by rw [Order.execute_cum]; omega)).trans
        (.publish ?_)
      intro slot
      right
      rcases inv.involved_of_aggressor held with registered | fresh
      · exact inv.indexed.registered_owned registered
      · exact inv.indexed.fresh_owned fresh

end Sweep

abbrev Sweeps (env : Environment) (hand : Hand) (side : BookSide) : Ledger → Ledger → Prop :=
  Relation.ReflTransGen (Sweep env hand side)

namespace Sweeps

variable {env : Environment} {hand : Hand} {side : BookSide} {before after : Ledger}

theorem represents (run : Sweeps env hand side before after) (inv : before.Represents hand) :
    after.Represents hand := by
  induction run with
  | refl => exact inv
  | tail _ swept ih => exact swept.represents ih

theorem takenFrom (run : Sweeps env hand side before after) (inv : before.Represents hand) :
    before.TakenFrom side after := by
  induction run with
  | refl => exact .refl side before
  | tail earlier swept ih => exact ih.trans (swept.takenFrom (Sweeps.represents earlier inv))

theorem micros {permit : Permit} (run : Sweeps env hand side before after) :
    Micros env permit (hand, before) (hand, after) := by
  induction run with
  | refl => exact .refl
  | tail _ swept ih => exact ih.tail (.sweep swept)

end Sweeps

end SlickSim
