import SlickSim.Ledger.Performed
import SlickSim.Ledger.Reachable
import SlickSim.OrderBook.Reference

/-!
# A level queues its orders as they joined

The book ranks the orders of a level by a priority. Where every order that joins a level
ranks behind what rests there, the queue is the order of joining, and a FIFO match reaches
an order only when those that joined before it are gone. Drawn priorities rank so among
themselves. A timestamp does not rank so among them.
-/

set_option autoImplicit false

namespace SlickSim

open OrderBookL3 (restingOrders Regresses)
open Sweeping

/-! ## The last time an order joined -/

/-- The place of the last mention of an id, from 1. Ids that are not mentioned have 0. -/
def lastJoin (joins : List Nat) (id : Nat) : Nat :=
  joins.length - joins.reverse.idxOf id

theorem lastJoin_le (joins : List Nat) (id : Nat) : lastJoin joins id ≤ joins.length :=
  Nat.sub_le ..

theorem lastJoin_append_ne {joins more : List Nat} {id : Nat} (others : ∀ other ∈ more, other ≠ id) :
    lastJoin (joins ++ more) id = lastJoin joins id := by
  have absent : id ∉ more.reverse := by
    intro member
    exact others id (List.mem_reverse.mp member) rfl
  unfold lastJoin
  rw [List.reverse_append, List.idxOf_append_of_notMem absent, List.length_append, List.length_reverse]
  omega

/-- Whoever joins is behind everything that has joined. -/
theorem lt_lastJoin_append {joins more : List Nat} {id : Nat} (joined : id ∈ more) :
    joins.length < lastJoin (joins ++ more) id := by
  have within : more.reverse.idxOf id < more.length := by
    rw [← List.length_reverse]
    exact List.idxOf_lt_length_iff.mpr (List.mem_reverse.mpr joined)
  unfold lastJoin
  rw [List.reverse_append, List.idxOf_append_of_mem (List.mem_reverse.mpr joined), List.length_append]
  omega

namespace Ledger

/-- An order ranks behind everything else that rests at its level. -/
def Behind (ledger : Ledger) (order : BookOrder) : Prop :=
  0 < order.priority ∧ ∀ other resting, ledger.entry other = some resting → other ≠ order.orderId →
    resting.side = order.side → resting.price = order.price → resting.priority < order.priority

/-- Every level ranks its orders as they joined it. -/
structure InTurn (hand : Hand) (ledger : Ledger) : Prop where
  positive : ∀ {id resting}, ledger.entry id = some resting → 0 < resting.priority
  ordered : ∀ {firstId secondId first second}, ledger.entry firstId = some first →
    ledger.entry secondId = some second → firstId ≠ secondId → first.side = second.side →
    first.price = second.price → first.priority ≤ second.priority →
    lastJoin ledger.joins firstId < lastJoin ledger.joins secondId
  lagging : ∀ {ref resting}, hand.lagging = some ref →
    ledger.entry (ledger.heap ref).id = some resting → resting.priority = (ledger.heap ref).priority

variable {hand hand' : Hand} {before after : Ledger}

/-- Orders that go, or shrink where they are, leave the others in turn. -/
theorem InTurn.of_shrunk (inTurn : before.InTurn hand) (sameJoins : ∀ {id}, after.entry id ≠ none →
      lastJoin after.joins id = lastJoin before.joins id)
    (shrinks : ∀ {id resting}, after.entry id = some resting →
      ∃ old, before.entry id = some old ∧ resting.side = old.side ∧ resting.price = old.price ∧
        resting.priority = old.priority)
    (lagging : ∀ {ref resting}, hand'.lagging = some ref →
      after.entry (after.heap ref).id = some resting → resting.priority = (after.heap ref).priority) :
    after.InTurn hand' where
  positive := by
    intro id resting found
    obtain ⟨old, was, -, -, priority⟩ := shrinks found
    rw [priority]
    exact inTurn.positive was
  ordered := by
    intro firstId secondId first second isFirst isSecond different sameSide samePrice ranks
    obtain ⟨old, was, side, price, priority⟩ := shrinks isFirst
    obtain ⟨oldSecond, wasSecond, sideSecond, priceSecond, prioritySecond⟩ := shrinks isSecond
    rw [sameJoins (by rw [isFirst]; rintro ⟨⟩), sameJoins (by rw [isSecond]; rintro ⟨⟩)]
    exact inTurn.ordered was wasSecond different (by rw [← side, ← sideSecond, sameSide])
      (by rw [← price, ← priceSecond, samePrice]) (by rw [← priority, ← prioritySecond]; exact ranks)
  lagging := lagging

/-- An order that joins behind everything at its level is in turn. -/
theorem InTurn.joined (inTurn : before.InTurn hand) {order : BookOrder} {more : List Nat}
    (placed : after.entry = Function.update before.entry order.orderId (some order))
    (joins : after.joins = before.joins ++ more) (mine : ∀ id ∈ more, id = order.orderId)
    (joined : more ≠ []) (behind : before.Behind order) : after.InTurn .none where
  positive := by
    intro id resting found
    rw [placed] at found
    by_cases same : id = order.orderId
    · rw [same, Function.update_self] at found
      cases found
      exact behind.1
    · rw [Function.update_of_ne same] at found
      exact inTurn.positive found
  ordered := by
    have isLast : ∀ id, id ≠ order.orderId →
        lastJoin after.joins id < lastJoin after.joins order.orderId := by
      intro id different
      have inside : order.orderId ∈ more := by
        obtain ⟨head, rest, rfl⟩ := List.exists_cons_of_ne_nil joined
        rw [← mine head List.mem_cons_self]
        exact List.mem_cons_self
      have others : ∀ other ∈ more, other ≠ id := by
        intro other member same
        exact different (same ▸ mine other member)
      rw [joins, lastJoin_append_ne others]
      exact (lastJoin_le ..).trans_lt (lt_lastJoin_append inside)
    have kept : ∀ id, id ≠ order.orderId → lastJoin after.joins id = lastJoin before.joins id := by
      intro id different
      rw [joins, lastJoin_append_ne]
      intro other member same
      exact different (same ▸ mine other member)
    intro firstId secondId first second isFirst isSecond different sameSide samePrice ranks
    rw [placed] at isFirst isSecond
    by_cases new : secondId = order.orderId
    · rw [new] at different ⊢
      exact isLast firstId different
    · rw [Function.update_of_ne new] at isSecond
      by_cases newFirst : firstId = order.orderId
      · rw [newFirst, Function.update_self] at isFirst
        cases isFirst
        have := behind.2 secondId second isSecond new sameSide.symm samePrice.symm
        omega
      · rw [Function.update_of_ne newFirst] at isFirst
        rw [kept firstId newFirst, kept secondId new]
        exact inTurn.ordered isFirst isSecond different sameSide samePrice ranks
  lagging := by rintro _ _ ⟨⟩

theorem InTurn.of_same (inTurn : before.InTurn hand) (entry : after.entry = before.entry)
    (joins : after.joins = before.joins)
    (lagging : ∀ {ref resting}, hand'.lagging = some ref →
      before.entry (after.heap ref).id = some resting → resting.priority = (after.heap ref).priority) :
    after.InTurn hand' := by
  refine inTurn.of_shrunk (fun _ => by rw [joins]) ?_ ?_
  · intro id resting found
    exact ⟨resting, entry ▸ found, rfl, rfl, rfl⟩
  · intro ref resting lags found
    exact lagging lags (entry ▸ found)

theorem InTurn.of_idle (inTurn : before.InTurn hand) (idle : hand'.lagging = none)
    (entry : after.entry = before.entry) (joins : after.joins = before.joins) : after.InTurn hand' := by
  refine inTurn.of_same entry joins ?_
  intro ref resting lags
  rw [idle] at lags
  cases lags

/-- What is taken was in turn, and what is left still is. -/
theorem InTurn.of_taken {side : BookSide} (inTurn : before.InTurn hand) (taken : before.TakenFrom side after) :
    after.InTurn hand := by
  refine inTurn.of_shrunk (fun _ => by rw [taken.joins]) ?_ ?_
  · intro id resting found
    obtain ⟨old, was, smaller⟩ := taken.shrinks found
    exact ⟨old, was, smaller.side, smaller.price, smaller.priority⟩
  · intro ref resting lags found
    obtain ⟨old, was, smaller⟩ := taken.shrinks found
    rw [smaller.priority, (taken.terms ref).priority]
    rw [(taken.terms ref).id] at was
    exact inTurn.lagging lags was

end Ledger

/-- An exchange under one id has that id joining, if any. -/
theorem joinedIds_exchange {before after : Option BookOrder} {id timestamp : Nat}
    (keyed : ∀ order, before = some order → order.orderId = id)
    (keyedNext : ∀ order, after = some order → order.orderId = id) :
    ∀ other ∈ joinedIds (exchangeUpdates before after timestamp), other = id := by
  intro other member
  obtain ⟨update, inside, rfl⟩ := List.mem_map.mp member
  exact Ledger.exchangeUpdates_orderId keyed keyedNext update (List.mem_of_mem_filter inside)

theorem joinedIds_added {order : BookOrder} (positive : 0 < order.quantity) (timestamp : Nat) :
    joinedIds (exchangeUpdates none (some order) timestamp) = [order.orderId] := by
  simp [exchangeUpdates, joinedIds, BookOrder.added, OrderUpdate.joins, positive]

namespace Ledger

section Cases

variable {ledger ranked : Ledger} {ref timestamp priority : Nat} {globals : Globals} {joined : List Nat}

theorem InTurn.rest (inTurn : ledger.InTurn (.working ref)) (inv : ledger.Represents (.working ref))
    (left : 0 < (ledger.heap ref).leavesQuantity)
    (isRanked : ranked = { ledger with globals }.updateOrder ref (Order.withPriority globals.nextPriority))
    (behind : ledger.Behind (ranked.entryOf ref)) :
    ((ranked.registerOrder ref).placeEntry (ledger.heap ref).id (some (ranked.entryOf ref)) timestamp).InTurn
      .none := by
  have self : ranked.heap ref = (ledger.heap ref).withPriority globals.nextPriority := by
    rw [isRanked, updateOrder_heap_self]
  have isId : (ranked.entryOf ref).orderId = (ledger.heap ref).id := by
    unfold entryOf
    rw [self]
    rfl
  have isQty : (ranked.entryOf ref).quantity = (ledger.heap ref).leavesQuantity := by
    unfold entryOf
    rw [self]
    rfl
  have absent : ledger.entry (ledger.heap ref).id = none := inv.indexed.fresh_absent rfl
  have entry : ranked.entry = ledger.entry := by rw [isRanked]; rfl
  have joins : ranked.joins = ledger.joins := by rw [isRanked]; rfl
  refine @InTurn.joined _ _ ((ranked.registerOrder ref).placeEntry (ledger.heap ref).id
    (some (ranked.entryOf ref)) timestamp) inTurn (ranked.entryOf ref) [(ledger.heap ref).id] ?_ ?_ ?_ ?_
    behind
  · rw [isId, ← entry]
    rfl
  · show ranked.joins ++ joinedIds (exchangeUpdates (ranked.entry (ledger.heap ref).id) _ _) = _
    rw [entry, joins, absent, joinedIds_added (isQty ▸ left), isId]
  · rw [isId]
    exact fun _ member => List.mem_singleton.mp member
  · rintro ⟨⟩

theorem InTurn.replace {env : Environment} {replaced : Ledger} {requestTime : Nat} {newPrice newQty : Int}
    (inTurn : ledger.InTurn (.amending ref)) (inv : ledger.Represents (.amending ref))
    (isReplaced : replaced = ledger.updateOrder ref (Order.replace newPrice newQty)) :
    (replaced.publish env fun slot => slot.writeModify (replaced.heap ref) newPrice newQty requestTime).InTurn
      (.replaced ref (decide (newQty ≤ (ledger.heap ref).cumQuantity))) := by
  have registered := inv.indexed.resting_registered (show (Hand.amending ref).resting = some ref from rfl)
  have entry := ((inv.agrees.at_ ref).rests registered (by rintro ⟨⟩)).1
  subst isReplaced
  refine inTurn.of_same rfl rfl ?_
  intro other resting lags found
  rw [Hand.replaced_lagging] at lags
  cases lags
  have self : (ledger.updateOrder ref (Order.replace newPrice newQty)).heap ref =
      (ledger.heap ref).replace newPrice newQty := updateOrder_heap_self _
  have found : ledger.entry (ledger.heap ref).id = some resting := by
    rw [show (ledger.heap ref).id = ((ledger.heap ref).replace newPrice newQty).id from rfl, ← self]
    exact found
  rw [entry] at found
  cases found
  exact (congrArg Order.priority self).symm

/-- An amended order shrinks where it is or joins its new level behind what is there. -/
theorem InTurn.amendRests {hand : Hand} (inTurn : ledger.InTurn hand) (inv : ledger.Represents hand)
    (held : hand = .amended ref ∨ hand = .closing ref)
    (isRanked : ranked = { ledger with globals, joins := ledger.joins ++ joined }.updateOrder ref
      (Order.withPriority priority))
    (place : priority = (ledger.heap ref).priority ∧ joined = [] ∧
        (∀ resting, ledger.entry (ledger.heap ref).id = some resting →
          resting.price = (ledger.heap ref).price ∧ (ledger.heap ref).leavesQuantity ≤ resting.quantity) ∨
      ledger.globals.nextPriority < globals.nextPriority ∧ priority = globals.nextPriority ∧
        joined = [(ledger.heap ref).id] ∧ ledger.Behind (ranked.entryOf ref)) :
    (ranked.placeEntry (ledger.heap ref).id (some (ranked.entryOf ref)) timestamp).InTurn .none := by
  have lags : hand.lagging = some ref := by rcases held with rfl | rfl <;> rfl
  obtain ⟨⟨old, was, sameSide⟩, -⟩ := (inv.agrees.at_ ref).lags lags
  have self : ranked.heap ref = (ledger.heap ref).withPriority priority := by
    rw [isRanked, updateOrder_heap_self]
  have entryIs : ranked.entryOf ref = ((ledger.heap ref).withPriority priority).bookEntry :=
    congrArg Order.bookEntry self
  have entry : ranked.entry = ledger.entry := by rw [isRanked]; rfl
  have joins : ranked.joins = ledger.joins ++ joined := by rw [isRanked]; rfl
  have keyed := inv.indexed.entry_id was
  have oldPriority := inTurn.lagging lags was
  rcases place with ⟨keeps, nobody, same⟩ | ⟨drawn, isDrawn, isJoined, behind⟩
  · -- The order shrinks where it is.
    have stays : ranked.InTurn hand := by
      refine inTurn.of_same entry (by rw [joins, nobody, List.append_nil]) ?_
      intro other resting lagsToo found
      obtain rfl : ref = other := Option.some.inj (lags.symm.trans lagsToo)
      rw [self] at found ⊢
      rw [keeps]
      exact inTurn.lagging lags found
    have shrinks : (ranked.entryOf ref).Shrinks old := by
      rw [entryIs]
      exact ⟨keyed.symm, sameSide.symm, (same old was).1.symm, keeps.trans oldPriority.symm, (same old was).2⟩
    have taken : ranked.TakenFrom old.side (ranked.placeEntry (ledger.heap ref).id
        (some (ranked.entryOf ref)) timestamp) :=
      .placeEntry (entry ▸ was) rfl (inv.agrees.positive was).le (by rintro _ ⟨⟩; exact shrinks)
    exact (stays.of_taken taken).of_idle rfl rfl rfl
  · have isId : (ranked.entryOf ref).orderId = (ledger.heap ref).id := by
      rw [entryIs]
      rfl
    have told : (ranked.placeEntry (ledger.heap ref).id (some (ranked.entryOf ref)) timestamp).joins =
        ledger.joins ++ (joined ++
          joinedIds (exchangeUpdates (some old) (some (ranked.entryOf ref)) timestamp)) := by
      show ranked.joins ++ joinedIds (exchangeUpdates (ranked.entry _) _ _) = _
      rw [entry, joins, was, List.append_assoc]
    refine inTurn.joined ?_ told ?_ ?_ behind
    · rw [isId, ← entry]
      rfl
    · intro id member
      rw [isId]
      rcases List.mem_append.mp member with own | moved
      · rw [isJoined] at own
        exact List.mem_singleton.mp own
      · refine joinedIds_exchange ?_ ?_ id moved
        · rintro _ ⟨⟩
          exact keyed
        · rintro _ ⟨⟩
          exact isId
    · rw [isJoined]
      rintro ⟨⟩

theorem InTurn.amendGone {hand : Hand} (inTurn : ledger.InTurn hand) (inv : ledger.Represents hand)
    (held : hand = .amended ref ∨ hand = .closing ref) (mine : ∀ id ∈ joined, id = (ledger.heap ref).id)
    (isRanked : ranked = { ledger with globals, joins := ledger.joins ++ joined }.updateOrder ref
      (Order.withPriority priority)) :
    (((ranked.placeEntry (ledger.heap ref).id none timestamp).unregisterOrder ref).freeOrder ref).InTurn .none := by
  have lags : hand.lagging = some ref := by rcases held with rfl | rfl <;> rfl
  obtain ⟨⟨old, was, sameSide⟩, -⟩ := (inv.agrees.at_ ref).lags lags
  have entry : ranked.entry = ledger.entry := by rw [isRanked]; rfl
  have joins : ranked.joins = ledger.joins ++ joined := by rw [isRanked]; rfl
  have left : ∀ {id}, Function.update ledger.entry (ledger.heap ref).id none id ≠ none →
      id ≠ (ledger.heap ref).id := by
    rintro _ rests rfl
    exact rests (Function.update_self ..)
  refine inTurn.of_shrunk ?_ ?_ (by rintro _ _ ⟨⟩)
  · intro id rests
    have rests : Function.update ranked.entry (ledger.heap ref).id none id ≠ none := rests
    rw [entry] at rests
    have different := left rests
    show lastJoin (ranked.joins ++ joinedIds (exchangeUpdates (ranked.entry _) none timestamp)) id = _
    rw [entry, was, TakenFrom.joinedIds_shrinks (inv.agrees.positive was).le (by rintro _ ⟨⟩), List.append_nil,
      joins, lastJoin_append_ne]
    intro other member same
    exact different (same ▸ mine other member)
  · intro id resting found
    have found : Function.update ledger.entry (ledger.heap ref).id none id = some resting := by
      rw [← entry]
      exact found
    rw [Function.update_of_ne (left (by rw [found]; rintro ⟨⟩))] at found
    exact ⟨resting, found, rfl, rfl, rfl⟩

theorem InTurn.addPhantom {order : BookOrder} (inTurn : ledger.InTurn .none) (inv : ledger.Represents .none)
    (absent : ledger.entry order.orderId = none) (foreign : ¬ ledger.Owned order.orderId)
    (positive : 0 < order.quantity) (behind : ledger.Behind order) :
    (ledger.setEntry order.orderId (some order) timestamp).InTurn .none := by
  have keyed : ∀ order', some order = some order' → order'.orderId = order.orderId := by
    rintro _ ⟨⟩
    rfl
  have joins : (ledger.setEntry order.orderId (some order) timestamp).joins = ledger.joins ++ [order.orderId] := by
    rw [setEntry_phantom (fun _ found => inv.indexed.entry_id found) keyed (owner_eq_none_of_not_owned inv foreign),
      ← joinedIds_added positive timestamp, ← absent]
    rfl
  refine inTurn.joined ?_ joins (fun _ member => List.mem_singleton.mp member) (by rintro ⟨⟩) behind
  rw [setEntry_phantom (fun _ found => inv.indexed.entry_id found) keyed (owner_eq_none_of_not_owned inv foreign)]
  rfl

end Cases

end Ledger

open Ledger

/-- The permit under which whatever joins a level ranks behind it. -/
def Permit.behind : Permit :=
  { Permit.all with move := fun _ _ => False, join := Ledger.Behind, arrive := Ledger.Behind }

theorem Micro.inTurn {env : Environment} {before after : Hand × Ledger}
    (step : Micro env Permit.behind before after) (inv : before.2.Represents before.1)
    (inTurn : before.2.InTurn before.1) : after.2.InTurn after.1 := by
  cases step with
  | sweep swept => exact inTurn.of_taken (swept.takenFrom inv)
  | reject permitted => exact inTurn.of_idle rfl rfl rfl
  | @touch hand ledger ref status lastUpdateTime requestTag =>
      refine inTurn.of_same rfl rfl ?_
      intro other resting lags found
      by_cases same : other = ref
      · rw [same, updateOrder_heap_self] at found ⊢
        exact inTurn.lagging (same ▸ lags) found
      · rw [updateOrder_heap_of_ne _ same] at found ⊢
        exact inTurn.lagging lags found
  | accept unused numbered later drawn clientFree named orderFree whole unfilled unpriced permitted =>
      exact inTurn.of_idle rfl rfl rfl
  | ack => exact inTurn.of_idle rfl rfl rfl
  | refuse permitted => exact inTurn.of_idle rfl rfl rfl
  | rejectRefused permitted => exact inTurn.of_idle rfl rfl rfl
  | cancelHand unrestable unfinished => exact inTurn.of_idle rfl rfl rfl
  | dropDone => exact inTurn.of_idle rfl rfl rfl
  | dropFilled filled traded => exact inTurn.of_idle rfl rfl rfl
  | rest later drawn left restable clear isRanked permitted => exact inTurn.rest inv left isRanked permitted
  | startAmend registered permitted isMarked =>
      subst isMarked
      exact inTurn.of_idle rfl rfl rfl
  | abortAmend permitted => exact inTurn.of_idle rfl rfl rfl
  | replace permitted isReplaced => exact inTurn.replace inv isReplaced
  | @cancelAmended ledger hand ref requestTime unrestable =>
      refine inTurn.of_same rfl rfl ?_
      intro other resting lags found
      cases lags
      rcases unrestable with rfl | ⟨rfl, -⟩
      · exact inTurn.lagging rfl found
      · exact inTurn.lagging rfl found
  | amendRests held later left clear isRanked place permitted => exact inTurn.amendRests inv held isRanked place
  | amendGone held later filled mine isRanked => exact inTurn.amendGone inv held mine isRanked
  | startCancel registered permitted isMarked =>
      subst isMarked
      exact inTurn.of_idle rfl rfl rfl
  | finishCancel =>
      obtain ⟨idle, swept⟩ := inv.cancelling_sweep _ _
      exact (inTurn.of_idle rfl rfl rfl).of_taken (swept.takenFrom idle)
  | addPhantom absent foreign numbered positive clear permitted =>
      exact inTurn.addPhantom inv absent foreign positive permitted
  | @resizePhantom ledger order qty priority timestamp rests phantom positive within ranked =>
      have sized : 0 ≤ order.quantity := (inv.agrees.positive rests).le
      refine inTurn.of_taken (TakenFrom.setPhantom rests rfl phantom rfl sized ?_)
      rintro _ ⟨⟩
      exact ⟨rfl, rfl, rfl, ranked (inTurn.positive rests), within⟩
  | movePhantom rests phantom positive sameId sameSide permitted => exact permitted.elim
  | @dropPhantom ledger order timestamp rests phantom =>
      have sized : 0 ≤ order.quantity := (inv.agrees.positive rests).le
      exact inTurn.of_taken (TakenFrom.setPhantom rests rfl phantom rfl sized (by rintro _ ⟨⟩))
  | clearMD retold =>
      refine inTurn.of_shrunk (fun _ => rfl) ?_ (by rintro _ _ ⟨⟩)
      intro id resting found
      dsimp only at found
      split at found
      · exact ⟨resting, found, rfl, rfl, rfl⟩
      · cases found

theorem Micros.inTurn {env : Environment} {before after : Hand × Ledger}
    (run : Micros env Permit.behind before after) (inv : before.2.Represents before.1)
    (inTurn : before.2.InTurn before.1) : after.2.InTurn after.1 := by
  induction run with
  | refl => exact inTurn
  | tail earlier step ih => exact step.inTurn (Micros.represents earlier inv) ih

/-! ## Drawn priorities -/

namespace Ledger

/-- Every resting order has a priority that was drawn, none of them zero. -/
def Drawn (ledger : Ledger) : Prop :=
  ∀ id resting, ledger.entry id = some resting →
    0 < resting.priority ∧ resting.priority ≤ ledger.globals.nextPriority

variable {before after : Ledger}

theorem Drawn.of_kept (drawn : before.Drawn)
    (later : before.globals.nextPriority ≤ after.globals.nextPriority)
    (kept : ∀ id resting, after.entry id = some resting →
      ∃ old, before.entry id = some old ∧ resting.priority = old.priority) : after.Drawn := by
  intro id resting found
  obtain ⟨old, was, same⟩ := kept id resting found
  rw [same]
  exact ⟨(drawn id old was).1, (drawn id old was).2.trans later⟩

theorem Drawn.placed {order : BookOrder} {id : Nat} (drawn : before.Drawn)
    (later : before.globals.nextPriority ≤ after.globals.nextPriority)
    (entry : after.entry = Function.update before.entry id (some order))
    (ranked : 0 < order.priority ∧ order.priority ≤ after.globals.nextPriority) : after.Drawn := by
  intro other resting found
  rw [entry] at found
  by_cases same : other = id
  · rw [same, Function.update_self] at found
    cases found
    exact ranked
  · rw [Function.update_of_ne same] at found
    exact ⟨(drawn other resting found).1, (drawn other resting found).2.trans later⟩

theorem Drawn.of_same (drawn : before.Drawn) (entry : after.entry = before.entry)
    (later : before.globals.nextPriority ≤ after.globals.nextPriority) : after.Drawn :=
  drawn.of_kept later fun _ resting found => ⟨resting, entry ▸ found, rfl⟩

theorem Drawn.of_taken {side : BookSide} (drawn : before.Drawn) (taken : before.TakenFrom side after) :
    after.Drawn := by
  refine drawn.of_kept taken.later.nextPriority ?_
  intro id resting found
  obtain ⟨old, was, smaller⟩ := taken.shrinks found
  exact ⟨old, was, smaller.priority⟩

end Ledger

/-- The permit under which phantoms come with drawn priorities. -/
def Permit.drawn : Permit :=
  { Permit.all with
    move := fun _ _ => False
    arrive := fun ledger order => 0 < order.priority ∧ order.priority ≤ ledger.globals.nextPriority }

theorem Micro.drawn {env : Environment} {before after : Hand × Ledger}
    (step : Micro env Permit.drawn before after) (inv : before.2.Represents before.1)
    (drawn : before.2.Drawn) : after.2.Drawn := by
  cases step with
  | sweep swept => exact drawn.of_taken (swept.takenFrom inv)
  | reject permitted => exact drawn
  | touch => exact drawn
  | accept unused numbered later moved clientFree named orderFree whole unfilled unpriced permitted =>
      exact drawn.of_same rfl later.nextPriority
  | ack => exact drawn
  | refuse permitted => exact drawn
  | rejectRefused permitted => exact drawn
  | cancelHand unrestable unfinished => exact drawn
  | dropDone => exact drawn
  | dropFilled filled traded => exact drawn
  | @rest ledger ref timestamp globals later moved left restable clear ranked isRanked permitted =>
      subst isRanked
      refine drawn.placed later.nextPriority rfl ?_
      unfold entryOf
      rw [updateOrder_heap_self]
      exact ⟨(Nat.zero_le _).trans_lt moved, le_rfl⟩
  | startAmend registered permitted isMarked =>
      subst isMarked
      exact drawn
  | abortAmend permitted => exact drawn
  | replace permitted isReplaced =>
      subst isReplaced
      exact drawn
  | cancelAmended unrestable => exact drawn
  | @amendRests ledger hand ref timestamp globals priority joined held later left clear ranked isRanked
      place permitted =>
      have inside : ledger.Registered ref :=
        inv.indexed.resting_registered (show hand.resting = some ref by rcases held with rfl | rfl <;> rfl)
      have was := (inv.agrees.at_ ref).ranked inside
      subst isRanked
      refine drawn.placed later.nextPriority rfl ?_
      unfold entryOf
      rw [updateOrder_heap_self]
      rcases place with ⟨keeps, -⟩ | ⟨moved, isDrawn, -⟩
      · show 0 < priority ∧ priority ≤ globals.nextPriority
        rw [keeps]
        exact ⟨was.1, was.2.trans later.nextPriority⟩
      · show 0 < priority ∧ priority ≤ globals.nextPriority
        rw [isDrawn]
        exact ⟨(Nat.zero_le _).trans_lt moved, le_rfl⟩
  | @amendGone ledger hand ref timestamp globals priority joined held later filled mine ranked isRanked =>
      subst isRanked
      refine drawn.of_kept later.nextPriority ?_
      intro id resting found
      have found : Function.update ledger.entry (ledger.heap ref).id none id = some resting := found
      by_cases same : id = (ledger.heap ref).id
      · rw [same, Function.update_self] at found
        cases found
      · rw [Function.update_of_ne same] at found
        exact ⟨resting, found, rfl⟩
  | startCancel registered permitted isMarked =>
      subst isMarked
      exact drawn
  | finishCancel =>
      obtain ⟨idle, swept⟩ := inv.cancelling_sweep _ _
      exact drawn.of_taken (swept.takenFrom idle)
  | @addPhantom ledger order timestamp absent foreign numbered positive clear permitted =>
      have phantom := owner_eq_none_of_not_owned inv foreign
      rw [setEntry_phantom (fun _ found => inv.indexed.entry_id found) (by rintro _ ⟨⟩; rfl) phantom]
      exact drawn.placed le_rfl rfl permitted
  | @resizePhantom ledger order qty priority timestamp rests phantom positive within ranked =>
      refine drawn.of_taken (TakenFrom.setPhantom rests rfl phantom rfl (inv.agrees.positive rests).le ?_)
      rintro _ ⟨⟩
      exact ⟨rfl, rfl, rfl, ranked (drawn _ _ rests).1, within⟩
  | movePhantom rests phantom positive sameId sameSide permitted => exact permitted.elim
  | @dropPhantom ledger order timestamp rests phantom =>
      exact drawn.of_taken (TakenFrom.setPhantom rests rfl phantom rfl (inv.agrees.positive rests).le
        (by rintro _ ⟨⟩))
  | clearMD retold =>
      refine drawn.of_kept le_rfl ?_
      intro id resting found
      dsimp only at found
      split at found
      · exact ⟨resting, found, rfl⟩
      · cases found

theorem Micros.drawn {env : Environment} {before after : Hand × Ledger}
    (run : Micros env Permit.drawn before after) (inv : before.2.Represents before.1)
    (drawn : before.2.Drawn) : after.2.Drawn := by
  induction run with
  | refl => exact drawn
  | tail earlier step ih => exact step.drawn (Micros.represents earlier inv) ih

/-- What Coinbase sends, besides requests. -/
def Input.AtCoinbase : Input → Prop
  | .l2Snapshot _ | .l2Diff _ | .trades _ | .marketOrder _ | .marketTrade _ => False
  | _ => True

instance : DecidablePred Input.AtCoinbase
  | .l2Snapshot _ | .l2Diff _ | .trades _ | .marketOrder _ | .marketTrade _ => .isFalse id
  | .newOrder .. | .amend .. | .cancel .. | .level2Snapshot .. | .coinbaseEvent .. | .flushMarketEvents
  | .subscribe .. | .subscribeServed | .elsewhere .. => .isTrue trivial

namespace Exchange

variable {β : Type} [OrderBookL3 β] {env : Environment} {config : SymbolConfig} {exchange : Exchange β}

/-- On Coinbase every priority is drawn. -/
theorem Reachable.drawn (reachable : Reachable env config (fun _ input => input.AtCoinbase) exchange) :
    exchange.ledger.Drawn := by
  refine (@Reachable.invariant β _ env config .drawn exchange _ Ledger.Drawn ?_ ?_
    (fun inv _ drawn run => run.drawn inv drawn) reachable).2.2
  · intro pool publishOrderUpdates
    rw [new_ledger]
    rintro _ _ ⟨⟩
  · intro exchange input inv totalled drawn admitted permitted
    have requests : exchange.RequestLicence Permit.drawn env config input := by
      refine requestLicence_of_moves ?_
      rintro event rfl
      exact permitted.elim
    have joins : ∀ (ledger : Ledger) (side : BookSide) (price : Int),
        ledger.MayJoin Permit.drawn side price ledger.Draws := by
      intro ledger side price after entry _ draws _ _
      exact ⟨(Nat.zero_le _).trans_lt draws.1, draws.2⟩
    cases input with
    | newOrder header msg => exact requests
    | amend header msg => exact requests
    | cancel header msg => exact requests
    | level2Snapshot seqNum updates => exact fun ledger _ update _ => joins ledger _ _
    | coinbaseEvent event => exact joins _ _ _
    | l2Snapshot snapshot => exact permitted.elim
    | l2Diff diff => exact permitted.elim
    | trades trades => exact permitted.elim
    | marketOrder event => exact permitted.elim
    | marketTrade event => exact permitted.elim
    | flushMarketEvents => trivial
    | subscribe level2 l2Book l2 => trivial
    | subscribeServed => trivial
    | elsewhere draws => trivial

/-! ## Who may join -/

/-- Whoever draws a priority now ranks behind what rests at a level. -/
def DrawsLast (exchange : Exchange β) (side : BookSide) (price : Int) : Prop :=
  ∀ resting ∈ restingOrders exchange.book.l3 side, resting.price = price →
    resting.priority ≤ exchange.book.globals.nextPriority

/-- Whoever is ranked by a time ranks behind what rests at a level. -/
def StampsLast (exchange : Exchange β) (side : BookSide) (price : Int) (time : Nat) : Prop :=
  0 < time ∧ ∀ resting ∈ restingOrders exchange.book.l3 side, resting.price = price →
    resting.priority < time

instance (exchange : Exchange β) (side : BookSide) (price : Int) : Decidable (exchange.DrawsLast side price) :=
  inferInstanceAs (Decidable (∀ resting ∈ _, _ → _))

/-- What is left of a stamped row ranks last. -/
def StampedLast (side : Side) (eventTimeNs : Nat) (exchange : Exchange β) (row : L2Row) : Prop :=
  exchange.LeavesQty side row.price row.qty → exchange.StampsLast (toBookSide side) row.price eventTimeNs

/-- What a level update adds ranks last. A level that is missing is stamped, one that is
there is raised by a drawn priority. -/
def UpdatedLast (side : Side) (eventTimeNs : Nat) (exchange : Exchange β) (row : L2Row) : Prop :=
  match OrderBookL3.getLevel exchange.book.l3 (toBookSide side) row.price with
  | none => 0 < row.qty → StampedLast side eventTimeNs exchange row
  | some _ => exchange.book.getMDLevelQty row.price < max row.qty 0 →
      exchange.DrawsLast (toBookSide side) row.price

/-- Nothing joins a level in front of what rests there. Orders that are mirrored one by
one are another kind of feed. -/
def JoinsLast (env : Environment) (config : SymbolConfig) (exchange : Exchange β) : Input → Prop
  | .newOrder header msg => header.symbol = config.symbol →
      (exchange.newOrder env config header msg).restsRemainder = true →
      exchange.DrawsLast (toBookSide msg.side) msg.price
  | .amend header msg => header.symbol = config.symbol →
      ∀ ref ∈ selectOrder exchange.book msg.clientOrderId msg.orderId,
        (exchange.matching.order ref).requeues msg.newPrice msg.newQty = true →
        exchange.DrawsLast (toBookSide (exchange.matching.order ref).side) msg.newPrice
  | .coinbaseEvent event => exchange.DrawsLast (toBookSide event.side) event.price
  | .l2Snapshot snapshot => exchange.EachSnapshotRow StampedLast env config snapshot
  | .l2Diff diff => exchange.EachDiffRow UpdatedLast env config diff
  | .trades trades => exchange.EachTrade StampedLast env config trades
  | .marketOrder _ | .marketTrade _ => False
  | _ => True

instance (exchange : Exchange β) (side : BookSide) (price : Int) (time : Nat) :
    Decidable (exchange.StampsLast side price time) :=
  inferInstanceAs (Decidable (_ ∧ ∀ resting ∈ _, _ → _))

instance (side : Side) (eventTimeNs : Nat) (exchange : Exchange β) (row : L2Row) :
    Decidable (StampedLast side eventTimeNs exchange row) :=
  inferInstanceAs (Decidable (_ → _))

instance (side : Side) (eventTimeNs : Nat) (exchange : Exchange β) (row : L2Row) :
    Decidable (UpdatedLast side eventTimeNs exchange row) :=
  match found : OrderBookL3.getLevel exchange.book.l3 (toBookSide side) row.price with
  | none => decidable_of_iff (0 < row.qty → StampedLast side eventTimeNs exchange row) <| by
      rw [UpdatedLast, found]
  | some _ => decidable_of_iff (exchange.book.getMDLevelQty row.price < max row.qty 0 →
      exchange.DrawsLast (toBookSide side) row.price) <| by rw [UpdatedLast, found]

instance (exchange : Exchange β) : DecidablePred (exchange.JoinsLast env config)
  | .newOrder .. => inferInstanceAs (Decidable (_ → _ → _))
  | .amend .. => inferInstanceAs (Decidable (_ → ∀ ref ∈ (_ : Option Nat), _ → _))
  | .coinbaseEvent event => inferInstanceAs (Decidable (exchange.DrawsLast (toBookSide event.side) event.price))
  | .l2Snapshot snapshot => inferInstanceAs (Decidable (exchange.EachSnapshotRow StampedLast env config snapshot))
  | .l2Diff diff => inferInstanceAs (Decidable (exchange.EachDiffRow UpdatedLast env config diff))
  | .trades trades => inferInstanceAs (Decidable (exchange.EachTrade StampedLast env config trades))
  | .marketOrder .. | .marketTrade .. => .isFalse id
  | .cancel .. | .level2Snapshot .. | .flushMarketEvents | .subscribe .. | .subscribeServed | .elsewhere .. => .isTrue trivial

private theorem behind_of_level {ledger after : Ledger} {entry : BookOrder} {side : BookSide} {price : Int}
    (positive : 0 < entry.priority)
    (below : ∀ id resting, ledger.entry id = some resting → resting.side = side → resting.price = price →
      resting.priority < entry.priority)
    (same : ledger.SameSide side after) (isSide : entry.side = side) (isPrice : entry.price = price) :
    after.Behind entry := by
  refine ⟨positive, ?_⟩
  intro other resting found _ sameSide samePrice
  have atSide := sameSide.trans isSide
  exact below other resting ((same other resting atSide).mp found) atSide (samePrice.trans isPrice)

private theorem mem_of_entry {id : Nat} {resting : BookOrder} {side : BookSide}
    (found : exchange.ledger.entry id = some resting) (isSide : resting.side = side) :
    resting ∈ restingOrders exchange.book.l3 side :=
  isSide ▸ OrderBookL3.mem_allOrders.mp (OrderBookL3.findOrder_eq_some.mp found).1

private theorem DrawsLast.behind {side : BookSide} {price : Int} (last : exchange.DrawsLast side price)
    {after : Ledger} {entry : BookOrder} (same : exchange.ledger.SameSide side after)
    (drawn : exchange.ledger.globals.nextPriority < entry.priority) (isSide : entry.side = side)
    (isPrice : entry.price = price) : after.Behind entry :=
  behind_of_level ((Nat.zero_le _).trans_lt drawn)
    (fun _ resting found atSide here => (last resting (mem_of_entry found atSide) here).trans_lt drawn) same
    isSide isPrice

private theorem DrawsLast.mayJoin {side : BookSide} {price : Int} (last : exchange.DrawsLast side price) :
    exchange.ledger.MayJoin .behind side price exchange.ledger.Draws :=
  fun _ _ same drawn isSide isPrice => last.behind same drawn.1 isSide isPrice

private theorem StampedLast.mayJoin {side : Side} {time : Nat} {row : L2Row}
    (last : StampedLast side time exchange row) :
    exchange.StampedJoin .behind side row.price row.qty time := by
  intro leaves after entry same isTime isSide isPrice
  have isTime : entry.priority = time := isTime
  obtain ⟨positive, below⟩ := last leaves
  refine behind_of_level (isTime ▸ positive) ?_ same isSide isPrice
  intro id resting found atSide here
  rw [isTime]
  exact below resting (mem_of_entry found atSide) here

private theorem UpdatedLast.mayJoin {side : Side} {time : Nat} {row : L2Row}
    (last : UpdatedLast side time exchange row) : exchange.LevelJoin .behind side row.price row.qty time := by
  unfold UpdatedLast at last
  unfold LevelJoin
  cases found : OrderBookL3.getLevel exchange.book.l3 (toBookSide side) row.price with
  | none =>
      rw [found] at last
      exact fun positive => (last positive).mayJoin
  | some level =>
      rw [found] at last
      exact fun short => (last short).mayJoin

/-- On Coinbase nothing can join in front. -/
theorem DrawsLast.of_drawn (drawn : exchange.ledger.Drawn) (side : BookSide) (price : Int) :
    exchange.DrawsLast side price :=
  fun _ member _ => (drawn _ _ (OrderBookL3.findOrder_of_mem member)).2

theorem Reachable.joinsLast (reachable : Reachable env config (fun _ input => input.AtCoinbase) exchange) :
    Reachable env config (JoinsLast env config) exchange := by
  induction reachable with
  | new pool publishOrderUpdates => exact .new pool publishOrderUpdates
  | @step exchange earlier input admitted permitted ih =>
      refine ih.step input admitted ?_
      have last := DrawsLast.of_drawn earlier.drawn
      cases input with
      | newOrder header msg => exact fun _ _ => last _ _
      | amend header msg => exact fun _ _ _ _ => last _ _
      | coinbaseEvent event => exact last _ _
      | cancel header msg => trivial
      | level2Snapshot seqNum updates => trivial
      | l2Snapshot snapshot => exact permitted.elim
      | l2Diff diff => exact permitted.elim
      | trades trades => exact permitted.elim
      | marketOrder event => exact permitted.elim
      | marketTrade event => exact permitted.elim
      | flushMarketEvents => trivial
      | subscribe level2 l2Book l2 => trivial
      | subscribeServed => trivial
      | elsewhere draws => trivial

/-- What joins last has what it needs to keep every level in turn. -/
private theorem JoinsLast.licence {input : Input} (joinsLast : exchange.JoinsLast env config input) :
    exchange.StepLicence .behind env config input := by
  cases input with
  | newOrder header msg =>
      refine ⟨fun _ _ => trivial, fun _ => trivial, fun _ _ => trivial, ?_⟩
      intro listed mayRest after entry same drawn isSide isPrice _
      exact (joinsLast listed mayRest).behind (isSide ▸ same) drawn isSide isPrice
  | amend header msg =>
      refine ⟨fun _ => trivial, fun _ _ _ => trivial, fun _ _ _ _ => ⟨trivial, fun _ _ => trivial⟩,
        fun _ _ _ _ => trivial, fun _ _ _ _ _ _ => trivial, ?_⟩
      intro ref listed selected requeues after entry same drawn isSide isPrice _
      exact (joinsLast listed ref selected requeues).behind (isSide ▸ same) drawn isSide isPrice
  | cancel header msg => exact ⟨fun _ => trivial, fun _ _ _ => trivial⟩
  | level2Snapshot seqNum updates =>
      intro ledger ranked update _ after entry same draws isSide isPrice
      exact behind_of_level ((Nat.zero_le _).trans_lt draws.1)
        (fun id resting found _ _ => (ranked id resting found).trans_lt draws.1) same isSide isPrice
  | coinbaseEvent event => exact DrawsLast.mayJoin joinsLast
  | l2Snapshot snapshot =>
      exact ⟨joinsLast.1.imp fun _ _ last => last.mayJoin, joinsLast.2.imp fun _ _ last => last.mayJoin⟩
  | l2Diff diff =>
      exact ⟨joinsLast.1.imp fun _ _ last => last.mayJoin, joinsLast.2.imp fun _ _ last => last.mayJoin⟩
  | trades trades =>
      have each : exchange.EachTrade StampedLast env config trades := joinsLast
      unfold EachTrade at each
      exact each.imp fun _ _ last => last.mayJoin
  | marketOrder event => exact joinsLast.elim
  | marketTrade event => exact joinsLast.elim
  | flushMarketEvents => trivial
  | subscribe level2 l2Book l2 => trivial
  | subscribeServed => trivial
  | elsewhere draws => trivial

/-- Where nothing joins in front, every level is in turn. -/
theorem Reachable.inTurn (reachable : Reachable env config (JoinsLast env config) exchange) :
    exchange.ledger.InTurn .none := by
  refine (@Reachable.invariant β _ env config .behind exchange _ (Ledger.InTurn .none) ?_
    (fun _ _ _ _ _ _ joinsLast => joinsLast.licence)
    (fun inv _ inTurn run => run.inTurn inv inTurn) reachable).2.2
  intro pool publishOrderUpdates
  rw [new_ledger]
  exact ⟨by rintro _ _ ⟨⟩, by rintro _ _ _ _ ⟨⟩, by rintro _ _ ⟨⟩⟩

end Exchange

/-! ## Queues and matches -/

/-- Every level lists its orders as they joined it. -/
def OrderBook.InTurn {β : Type} [OrderBookL3 β] (book : OrderBook β) : Prop :=
  ∀ side, (restingOrders book.l3 side).Pairwise fun first second => first.price = second.price →
    lastJoin book.joins first.orderId < lastJoin book.joins second.orderId

theorem OrderBook.InTurn.congr {β : Type} [OrderBookL3 β] {book same : OrderBook β} (inTurn : book.InTurn)
    (l3 : same.l3 = book.l3) (joins : same.joins = book.joins) : same.InTurn := by
  intro side
  rw [l3, joins]
  exact inTurn side

/-- What joined a level earlier stands in front. -/
theorem OrderBook.InTurn.front {β : Type} [OrderBookL3 β] {book : OrderBook β} (inTurn : book.InTurn)
    {side : BookSide} {first second : BookOrder} {front back : List BookOrder}
    (cut : restingOrders book.l3 side = front ++ second :: back) (rests : first ∈ restingOrders book.l3 side)
    (samePrice : first.price = second.price)
    (earlier : lastJoin book.joins first.orderId < lastJoin book.joins second.orderId) : first ∈ front := by
  have ordered := inTurn side
  rw [cut] at rests ordered
  rcases List.mem_append.mp rests with inFront | later
  · exact inFront
  · rcases List.mem_cons.mp later with rfl | inBack
    · exact absurd earlier (Nat.lt_irrefl _)
    · have behind := (List.pairwise_cons.mp (List.pairwise_append.mp ordered).2.1).1 first inBack samePrice.symm
      exact absurd earlier (Nat.lt_asymm behind)

namespace MatchState

variable {β : Type} [OrderBookL3 β]

/-- Whatever was taken of an order, what joined its level earlier is gone. -/
def TakesInTurn (before after : MatchState β) (side : BookSide) : Prop :=
  ∀ first ∈ restingOrders before.book.l3 side, ∀ second ∈ restingOrders before.book.l3 side,
    first.price = second.price →
    lastJoin before.book.joins first.orderId < lastJoin before.book.joins second.orderId →
    second ∉ restingOrders after.book.l3 side →
    ∀ left ∈ restingOrders after.book.l3 side, left.orderId ≠ first.orderId

variable {before after : MatchState β} {side : BookSide}

theorem TakesInTurn.of_same (same : after.book.l3 = before.book.l3) : before.TakesInTurn after side := by
  intro first _ second isSecond _ _ gone
  exact absurd (same ▸ isSecond) gone

theorem TakesInTurn.congr {before' after' : MatchState β} (takes : before'.TakesInTurn after side)
    (l3 : before'.book.l3 = before.book.l3) (joins : before'.book.joins = before.book.joins)
    (same : after'.book.l3 = after.book.l3) : before.TakesInTurn after' side := by
  unfold TakesInTurn at takes ⊢
  rw [← l3, ← joins, same]
  exact takes

theorem Performance.takesInTurn {env : Environment} {hand : Hand} {seqNum aggressorId : Nat}
    {aggressor : Option Nat} {own : Nat → Bool} {limit want : Int} {ctx ctx' : MatchContext}
    (start : before.Sweepable hand side seqNum)
    (run : Performance env hand side seqNum aggressor aggressorId
      (MatchingEngine.fifo.plan side limit own (restingOrders before.book.l3 side) want) ctx before ctx' after)
    (performable : Performable side own
      (MatchingEngine.fifo.plan side limit own (restingOrders before.book.l3 side) want) before)
    (inTurn : before.book.InTurn) : before.TakesInTurn after side := by
  intro first isFirst second isSecond samePrice earlier gone left isLeft sameId
  have distinct := OrderBookL3.restingOrders_distinct before.book.l3 side
  let queue := restingOrders before.book.l3 side
  let within := withinLimit side limit queue
  have plan : MatchingEngine.fifo.plan side limit own queue want =
      inOrder BookOrder.quantity (own ∘ BookOrder.orderId) within want := by
    unfold MatchingEngine.plan MatchingEngine.splitLevel
    rw [sweep_inOrder, flatten_levelsWithin]
  rw [plan] at run performable
  have rested : ∀ {order}, order ∈ queue → after.ledger.entry order.orderId = leftBy _ order :=
    run.entry start performable
  -- Something was done with the second order.
  obtain ⟨act, acted, isAct⟩ : ∃ act ∈ inOrder BookOrder.quantity (own ∘ BookOrder.orderId) within want,
      act.item = second := by
    by_contra untouched
    have stays := rested isSecond
    rw [leftBy_of_absent] at stays
    · have rests := mem_of_entry stays
      rw [OrderBookL3.side_of_mem isSecond] at rests
      exact gone rests
    · intro act acted sameKey
      exact untouched ⟨act, acted, KeyedList.eq_of_key distinct (performable.rests act acted) isSecond sameKey.symm⟩
  have isWithin : second ∈ within := by
    rw [← isAct]
    exact ((inOrder_splits BookOrder.quantity (own ∘ BookOrder.orderId)).once within want).subset
      (List.mem_map_of_mem acted)
  obtain ⟨front, back, cut, absent⟩ := List.eq_append_cons_of_mem isWithin
  -- The first order stands in front of it, so all of it was taken.
  have isFront : first ∈ front := by
    have whole : queue = front ++ second ::
        (back ++ queue.dropWhile fun order => !beyondLimit side order.price limit) := by
      rw [← List.cons_append, ← List.append_assoc, ← cut]
      exact List.takeWhile_append_dropWhile.symm
    exact inTurn.front whole isFirst samePrice earlier
  have whole : takeWhole BookOrder.quantity (own ∘ BookOrder.orderId) first ∈
      inOrder BookOrder.quantity (own ∘ BookOrder.orderId) within want := by
    rw [cut] at acted ⊢
    refine inOrder_takes_front ?_ acted (isAct ▸ absent) first isFront
    intro order member
    have inside : order ∈ within := by
      rw [cut]
      exact List.mem_append_left _ member
    exact start.inv.agrees.positive (entry_of_mem (List.takeWhile_subset _ inside))
  have emptied := rested isFirst
  rw [leftBy_of_mem performable.distinct whole (congrArg BookOrder.orderId (takeWhole_item ..).symm),
    leftOf_takeWhole] at emptied
  rw [← sameId, entry_of_mem isLeft] at emptied
  cases emptied

end MatchState

section Match

open MatchState MatchingEngine

variable {β : Type} [OrderBookL3 β] {env : Environment} {state : MatchState β} {limit qty leaves : Int}
  {ref requestTime : Nat}

theorem matchOrder_takesInTurn (incoming : Incoming state ref limit qty leaves) (inTurn : state.book.InTurn)
    (eventTime : Nat) (smpMode : SelfMatchPreventionMode) :
    state.TakesInTurn (MatchingEngine.fifo.matchOrder env ref limit qty requestTime eventTime 0 smpMode state).2.2
      (sweptSide (state.order ref).side) := by
  have presented : (state.present env ref limit qty requestTime).book.l3 = state.book.l3 := present_l3
  rw [matchOrder_planned .fifo env requestTime eventTime smpMode incoming]
  unfold planned
  dsimp only
  split <;> rename_i refused
  · exact .of_same rfl
  split <;> rename_i cannot
  · exact .of_same presented
  split <;> rename_i empty
  · exact .of_same presented
  by_cases more : 0 < leaves
  · have clear : smpMode = .cancelNewest →
        (MatchingEngine.fifo.orderPlan state ref limit leaves smpMode).any Act.isWithdraw = false := by
      intro newest
      exact Bool.eq_false_iff.mpr fun withdraws => refused ⟨newest, withdraws⟩
    obtain ⟨hand, ctx, after, shown, performs, -, -, run⟩ := MatchingEngine.fifo.orderPlan_run env qty requestTime
      eventTime incoming more.le clear
    have joins : (state.present env ref limit qty requestTime).book.joins = state.book.joins := by
      unfold present
      split <;> rfl
    have performable : Performable (sweptSide (state.order ref).side) _
        (MatchingEngine.fifo.orderPlan state ref limit leaves smpMode) _ :=
      MatchingEngine.fifo.orderPlan_performable shown
    rw [MatchingEngine.fifo.orderPlan_present state env ref limit qty leaves requestTime smpMode] at run performable
    have takes := run.takesInTurn shown.ready performable (inTurn.congr presented joins)
    rw [performs]
    exact takes.congr presented joins (congrArg OrderBook.l3 (cancelUnrestableRemainder_book ..))
  · rw [orderPlan, plan, sweep_of_nonpos (by omega)]
    refine .of_same ?_
    rw [cancelUnrestableRemainder_book]
    exact presented

theorem matchFeed_takesInTurn (inv : state.ledger.Represents .none) (inTurn : state.book.InTurn) (side : Side)
    (orderId : Nat) (price qty : Int) (eventTime seqNum : Nat) :
    state.TakesInTurn (MatchingEngine.fifo.matchFeed env side orderId price qty eventTime seqNum state).2.2
      (sweptSide side) := by
  by_cases stale : Regresses state.book.l3 seqNum
  · exact .of_same (MatchingEngine.fifo.matchFeed_stale env inv side orderId price qty eventTime stale).2.2
  · obtain ⟨ctx, after, matched, run⟩ := MatchingEngine.fifo.matchFeed_run env inv side orderId price qty eventTime
      seqNum stale
    have ready : state.Sweepable .none (sweptSide side) seqNum := ⟨inv, stale, fun _ _ _ => by rintro ⟨⟩⟩
    rw [matched]
    exact run.takesInTurn ready (plan_performable .fifo _ price qty ready) inTurn

end Match

namespace Exchange

variable {β : Type} [OrderBookL3 β] {env : Environment} {config : SymbolConfig} {exchange : Exchange β}

theorem book_inTurn (inTurn : exchange.ledger.InTurn .none) : exchange.book.InTurn := by
  intro side
  have distinct : (restingOrders exchange.book.l3 side).Pairwise fun first second =>
      first.orderId ≠ second.orderId :=
    List.pairwise_map.mp (OrderBookL3.restingOrders_distinct exchange.book.l3 side)
  refine ((OrderBookL3.ranked exchange.book.l3 side).and distinct).imp_of_mem ?_
  rintro first second isFirst isSecond ⟨ranks, different⟩ samePrice
  refine inTurn.ordered (OrderBookL3.findOrder_of_mem isFirst) (OrderBookL3.findOrder_of_mem isSecond) different ?_
    samePrice (ranks.priority_le samePrice)
  rw [OrderBookL3.side_of_mem isFirst, OrderBookL3.side_of_mem isSecond]

/-- Queue position is order of joining, in every state of a run on Coinbase and of a run in
which nothing joins in front. FIFO takes from every level in that order. -/
theorem arrival_order
    (reachable : Reachable env config (fun _ input => input.AtCoinbase) exchange ∨
      Reachable env config (JoinsLast env config) exchange) :
    exchange.book.InTurn ∧
      ∀ state : MatchState β, state.book.l3 = exchange.book.l3 → state.book.joins = exchange.book.joins →
        (∀ ref limit qty leaves requestTime eventTime smpMode, Incoming state ref limit qty leaves →
          state.TakesInTurn
            (MatchingEngine.fifo.matchOrder env ref limit qty requestTime eventTime 0 smpMode state).2.2
            (MatchingEngine.sweptSide (state.order ref).side)) ∧
        (state.ledger.Represents .none → ∀ side orderId price qty eventTime seqNum,
          state.TakesInTurn
            (MatchingEngine.fifo.matchFeed env side orderId price qty eventTime seqNum state).2.2
            (MatchingEngine.sweptSide side)) := by
  have joinsLast : Reachable env config (JoinsLast env config) exchange := reachable.elim Reachable.joinsLast id
  have inTurn := book_inTurn joinsLast.inTurn
  refine ⟨inTurn, ?_⟩
  intro state l3 joins
  refine ⟨?_, ?_⟩
  · intro ref limit qty leaves requestTime eventTime smpMode incoming
    exact matchOrder_takesInTurn incoming (inTurn.congr l3 joins) eventTime smpMode
  · intro inv side orderId price qty eventTime seqNum
    exact matchFeed_takesInTurn inv (inTurn.congr l3 joins) side orderId price qty eventTime seqNum

/-- On Coinbase a user's bid inside a level that grows. On Hyperliquid two users' bids around
what the venue adds to the level the first of them made. -/
theorem arrival_order_around :
    let env : Environment := .counted fun _ => default
    let config : SymbolConfig := .reference .none
    let start : Exchange ReferenceBook := .new (fun _ => default) true
    let bid (qty : Int) (nonneg : 0 ≤ qty) : Input := .coinbaseEvent
      { type := .levelUpdate, eventTime := 1, seqNum := 1, price := 99, qty, side := .buy, flags := {}
        qty_nonneg := nonneg }
    let coinbase := start.run env config [bid 7 (by decide), .limit 1 .buy 99 2, bid 10 (by decide)]
    let hyperliquid := start.run env config
      [.l2Snapshot ⟨1, [⟨99, 7⟩], [⟨103, 1⟩]⟩, .limit 1 .buy 98 5, .l2Diff ⟨2, none, [⟨98, 3⟩], []⟩,
        .limit 2 .buy 98 2]
    let sold := (MatchingEngine.fifo.matchFeed env .sell 9 99 8 0 0 coinbase.matching).2.2
    ((restingOrders coinbase.book.l3 .buy).map BookOrder.quantity = [7, 2, 3] ∧ coinbase.book.InTurn ∧
      (restingOrders sold.book.l3 .buy).map BookOrder.quantity = [1, 3] ∧
      coinbase.matching.TakesInTurn sold .buy) ∧
    (restingOrders hyperliquid.book.l3 .buy).map BookOrder.quantity = [7, 5, 3, 2] ∧ hyperliquid.book.InTurn := by
  intro env config start bid coinbase hyperliquid sold
  have reachable : Reachable env config (fun _ input => input.AtCoinbase) coinbase :=
    (Reachable.new _ _).run (by decide +kernel)
  have reachableHyperliquid : Reachable env config (JoinsLast env config) hyperliquid :=
    (Reachable.new _ _).run (by decide +kernel)
  have queue : (restingOrders coinbase.book.l3 .buy).map BookOrder.quantity = [7, 2, 3] := by decide +kernel
  have left : (restingOrders sold.book.l3 .buy).map BookOrder.quantity = [1, 3] := by decide +kernel
  have queueHyperliquid : (restingOrders hyperliquid.book.l3 .buy).map BookOrder.quantity = [7, 5, 3, 2] := by
    decide +kernel
  clear_value coinbase hyperliquid
  obtain ⟨inTurn, takes⟩ := arrival_order (.inl reachable)
  have taken : coinbase.matching.TakesInTurn sold .buy :=
    (takes coinbase.matching rfl rfl).2 reachable.represents.1 .sell 9 99 8 0 0
  exact ⟨⟨queue, inTurn, left, taken⟩, queueHyperliquid, (arrival_order (.inr reachableHyperliquid)).1⟩

/-- On Hyperliquid a user's bid stands in front of the level that it joins, and a sale fills the
bid while nothing is taken of the level. -/
theorem arrival_order_overtakes :
    let env : Environment := .counted fun _ => default
    let config : SymbolConfig := .reference .none
    let exchange := (Exchange.new (fun _ => default) true : Exchange ReferenceBook).run env config
      [.l2Snapshot ⟨1, [], []⟩, .l2Diff ⟨2, none, [⟨99, 7⟩], []⟩, .limit 1 .buy 99 2]
    let sold := (MatchingEngine.fifo.matchFeed env .sell 9 99 2 0 0 exchange.matching).2.2
    Reachable env config (fun _ _ => True) exchange ∧
      exchange.book.joins = [1, 2] ∧
      restingOrders exchange.book.l3 .buy = [⟨2, .buy, 99, 2, 1⟩, ⟨1, .buy, 99, 7, 2000000⟩] ∧
      restingOrders sold.book.l3 .buy = [⟨1, .buy, 99, 7, 2000000⟩] ∧
      ¬ exchange.book.InTurn ∧ ¬ exchange.matching.TakesInTurn sold .buy := by
  intro env config exchange sold
  have joins : exchange.book.joins = [1, 2] := by decide +kernel
  have queue : restingOrders exchange.book.l3 .buy = [⟨2, .buy, 99, 2, 1⟩, ⟨1, .buy, 99, 7, 2000000⟩] := by
    decide +kernel
  have left : restingOrders sold.book.l3 .buy = [⟨1, .buy, 99, 7, 2000000⟩] := by decide +kernel
  have reachable : Reachable env config (fun _ _ => True) exchange := (Reachable.new _ _).run (by decide +kernel)
  clear_value sold exchange
  refine ⟨reachable, joins, queue, left, ?_, ?_⟩
  · intro inTurn
    have ordered := inTurn .buy
    rw [queue, joins] at ordered
    exact absurd ordered (by decide)
  · intro takes
    have before : ∀ order, order ∈ restingOrders exchange.matching.book.l3 .buy ↔
        order = ⟨2, .buy, 99, 2, 1⟩ ∨ order = ⟨1, .buy, 99, 7, 2000000⟩ := by
      intro order
      rw [show restingOrders exchange.matching.book.l3 .buy = _ from queue, List.mem_pair]
    have earlier : lastJoin exchange.matching.book.joins 1 < lastJoin exchange.matching.book.joins 2 := by
      rw [show exchange.matching.book.joins = _ from joins]
      decide
    have stays := takes _ ((before _).mpr (.inr rfl)) _ ((before _).mpr (.inl rfl)) rfl earlier (by rw [left]; decide)
    exact stays ⟨1, .buy, 99, 7, 2000000⟩ (by rw [left]; exact List.mem_singleton_self _) rfl

end Exchange

end SlickSim
