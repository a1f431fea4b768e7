import SlickSim.Properties.L2RoundTrip

/-!
# A rebuilt book keeps the client orders

Before a venue's book is replayed everything that is not ours leaves, and our orders are
entered again. No two of them have one priority, so that they queue as they did before.
Rows of a snapshot that cross none of them rest behind one another and fill nothing.
-/

set_option autoImplicit false

namespace SlickSim

open MdPublisher (L2Levels)
open OrderBookL3 (restingOrders Regresses)

/-! ## The priorities of client orders -/

namespace Ledger

/-- No two orders of clients have one priority. -/
def RankedApart (ledger : Ledger) : Prop :=
  ∀ ⦃id other ref otherRef⦄, ledger.owner id = some ref → ledger.owner other = some otherRef →
    (ledger.heap ref).priority = (ledger.heap otherRef).priority → id = other

variable {hand : Hand} {before after : Ledger}

/-- An order of a client rests, if not as it is. -/
theorem Represents.entry_of_owner (inv : before.Represents hand) {id ref : Nat}
    (ours : before.owner id = some ref) : before.entry id ≠ none := by
  have sameId := inv.indexed.owner_id ours
  have agrees := inv.agrees.at_ ref
  rw [← sameId]
  by_cases lags : hand.lagging = some ref
  · obtain ⟨⟨resting, found, -⟩, -⟩ := agrees.lags lags
    rw [found]
    exact Option.some_ne_none _
  · rw [(agrees.rests (inv.indexed.registered ours) lags).1]
    exact Option.some_ne_none _

/-- One order at most gets a priority, and that is ahead of all that were drawn. -/
theorem RankedApart.of_drawn (apart : before.RankedApart) (inv : before.Represents hand) (drawn : Nat)
    (kept : ∀ id ref, after.owner id = some ref →
      before.owner id = some ref ∧ (after.heap ref).priority = (before.heap ref).priority ∨
        id = drawn ∧ before.globals.nextPriority < (after.heap ref).priority) : after.RankedApart := by
  have within : ∀ {id ref}, before.owner id = some ref →
      (before.heap ref).priority ≤ before.globals.nextPriority := fun ours =>
    ((inv.agrees.at_ _).ranked (inv.indexed.registered ours)).2
  intro id other ref otherRef ours theirs same
  rcases kept id ref ours with ⟨was, priority⟩ | ⟨rfl, above⟩
  · rcases kept other otherRef theirs with ⟨otherWas, otherPriority⟩ | ⟨rfl, otherAbove⟩
    · exact apart was otherWas (by rw [← priority, ← otherPriority, same])
    · have := within was
      omega
  · rcases kept other otherRef theirs with ⟨otherWas, otherPriority⟩ | ⟨rfl, -⟩
    · have := within otherWas
      omega
    · rfl

theorem RankedApart.of_kept (apart : before.RankedApart)
    (kept : ∀ id ref, after.owner id = some ref →
      before.owner id = some ref ∧ (after.heap ref).priority = (before.heap ref).priority) :
    after.RankedApart := by
  intro id other ref otherRef ours theirs same
  obtain ⟨was, priority⟩ := kept id ref ours
  obtain ⟨otherWas, otherPriority⟩ := kept other otherRef theirs
  exact apart was otherWas (by rw [← priority, ← otherPriority, same])

theorem RankedApart.updateOrder (apart : before.RankedApart) (ref : Nat) {change : Order → Order}
    (keeps : ∀ order, (change order).priority = order.priority) :
    (before.updateOrder ref change).RankedApart := by
  apply apart.of_kept
  intro id other ours
  refine ⟨ours, ?_⟩
  by_cases same : other = ref
  · rw [same, updateOrder_heap_self, keeps]
  · rw [updateOrder_heap_of_ne _ same]

section Cases

variable {ledger ranked : Ledger} {hand : Hand} {ref timestamp priority : Nat} {globals : Globals}

theorem RankedApart.sweep {env : Environment} {side : BookSide} (apart : before.RankedApart)
    (swept : Sweep env hand side before after) (inv : before.Represents hand) : after.RankedApart := by
  have taken := swept.takenFrom inv
  apply apart.of_kept
  intro id ref ours
  rw [← taken.owner ((swept.represents inv).entry_of_owner ours)]
  exact ⟨ours, (taken.terms ref).priority⟩

theorem RankedApart.setPhantom {order : BookOrder} {next : Option BookOrder} (apart : ledger.RankedApart)
    (inv : ledger.Represents .none) (foreign : ledger.owner order.orderId = none)
    (keyed : ∀ order', next = some order' → order'.orderId = order.orderId) :
    (ledger.setEntry order.orderId next timestamp).RankedApart := by
  rw [setEntry_phantom (fun _ found => inv.indexed.entry_id found) keyed foreign]
  exact apart.of_kept fun _ _ ours => ⟨ours, rfl⟩

theorem RankedApart.accept {env : Environment} {requestTime : Nat} {order : Order} (apart : ledger.RankedApart)
    (inv : ledger.Represents .none) (unused : ref ∉ ledger.live) :
    ({ ledger with
        heap := Function.update ledger.heap ref order
        live := ref :: ledger.live
        globals }.publish env fun slot => slot.writeNewPending order requestTime).RankedApart := by
  apply apart.of_kept
  intro id other ours
  have other_ne : other ≠ ref := by
    rintro rfl
    exact unused (inv.indexed.live_iff.mpr (.inl (inv.indexed.registered ours)))
  exact ⟨ours, congrArg Order.priority (Function.update_of_ne other_ne _ _)⟩

theorem RankedApart.rest (apart : ledger.RankedApart) (inv : ledger.Represents (.working ref))
    (drawn : ledger.globals.nextPriority < globals.nextPriority)
    (isRanked : ranked = { ledger with globals }.updateOrder ref (Order.withPriority globals.nextPriority)) :
    ((ranked.registerOrder ref).placeEntry (ledger.heap ref).id (some (ranked.entryOf ref)) timestamp).RankedApart := by
  have self : (ranked.heap ref).id = (ledger.heap ref).id ∧ (ranked.heap ref).priority = globals.nextPriority := by
    rw [isRanked, updateOrder_heap_self]
    exact ⟨rfl, rfl⟩
  have free : ranked.owner (ranked.heap ref).id = none := by
    rw [self.1, isRanked]
    exact inv.indexed.fresh_unregistered rfl
  apply apart.of_drawn inv (ledger.heap ref).id
  intro id other ours
  have ours : (ranked.registerOrder ref).owner id = some other := ours
  rw [Indexed.registerOrder_owner free, self.1] at ours
  show ledger.owner id = some other ∧ (ranked.heap other).priority = (ledger.heap other).priority ∨
    _ ∧ ledger.globals.nextPriority < (ranked.heap other).priority
  by_cases same : id = (ledger.heap ref).id
  · rw [same, Function.update_self] at ours
    cases ours
    rw [self.2]
    exact .inr ⟨same, drawn⟩
  · rw [Function.update_of_ne same, isRanked] at ours
    have was : ledger.owner id = some other := ours
    have different : other ≠ ref := by
      rintro rfl
      exact same (inv.indexed.owner_id was).symm
    rw [isRanked, updateOrder_heap_of_ne _ different]
    exact .inl ⟨was, rfl⟩

theorem RankedApart.amendRests {joined : List Nat} (apart : ledger.RankedApart) (inv : ledger.Represents hand)
    (isRanked : ranked = { ledger with globals, joins := ledger.joins ++ joined }.updateOrder ref
      (Order.withPriority priority))
    (place : priority = (ledger.heap ref).priority ∨
      ledger.globals.nextPriority < globals.nextPriority ∧ priority = globals.nextPriority) :
    (ranked.placeEntry (ledger.heap ref).id (some (ranked.entryOf ref)) timestamp).RankedApart := by
  have elsewhere : ∀ other, other ≠ ref → (ranked.heap other).priority = (ledger.heap other).priority := by
    intro other different
    rw [isRanked, updateOrder_heap_of_ne _ different]
  have self : (ranked.heap ref).priority = priority := by
    rw [isRanked, updateOrder_heap_self]
    rfl
  have sameOwner : ranked.owner = ledger.owner := by rw [isRanked]; rfl
  apply apart.of_drawn inv (ledger.heap ref).id
  intro id other ours
  have ours : ledger.owner id = some other := by
    rw [← sameOwner]
    exact ours
  show _ ∧ (ranked.heap other).priority = _ ∨ _ ∧ _ < (ranked.heap other).priority
  by_cases same : other = ref
  · rcases place with keeps | ⟨drawn, isDrawn⟩
    · exact .inl ⟨ours, by rw [same, self, keeps]⟩
    · refine .inr ⟨?_, by rw [same, self, isDrawn]; exact drawn⟩
      rw [← inv.indexed.owner_id ours, same]
  · exact .inl ⟨ours, elsewhere other same⟩

theorem RankedApart.amendGone {joined : List Nat} (apart : ledger.RankedApart) (inv : ledger.Represents hand)
    (isRanked : ranked = { ledger with globals, joins := ledger.joins ++ joined }.updateOrder ref
      (Order.withPriority priority)) :
    (((ranked.placeEntry (ledger.heap ref).id none timestamp).unregisterOrder ref).freeOrder ref).RankedApart := by
  apply apart.of_kept
  intro id other ours
  have ours : (ranked.unregisterOrder ref).owner id = some other := ours
  have self : (ranked.heap ref).id = (ledger.heap ref).id := by
    rw [isRanked, updateOrder_heap_self]
    rfl
  have ours : Function.update ranked.owner (ranked.heap ref).id none id = some other := ours
  rw [self, isRanked] at ours
  show ledger.owner id = some other ∧ (ranked.heap other).priority = (ledger.heap other).priority
  by_cases same : id = (ledger.heap ref).id
  · rw [same, Function.update_self] at ours
    cases ours
  · rw [Function.update_of_ne same] at ours
    have was : ledger.owner id = some other := ours
    have different : other ≠ ref := by
      rintro rfl
      exact same (inv.indexed.owner_id was).symm
    rw [isRanked, updateOrder_heap_of_ne _ different]
    exact ⟨was, rfl⟩

end Cases

end Ledger

open Ledger in
theorem Micro.rankedApart {env : Environment} {permit : Permit} {before after : Hand × Ledger}
    (step : Micro env permit before after) (inv : before.2.Represents before.1)
    (apart : before.2.RankedApart) : after.2.RankedApart := by
  cases step with
  | sweep swept => exact apart.sweep swept inv
  | reject permitted => exact apart
  | touch => exact apart.updateOrder _ fun _ => rfl
  | accept unused numbered later drawn clientFree named orderFree whole unfilled unpriced permitted =>
      exact apart.accept inv unused
  | ack => exact apart
  | refuse permitted => exact apart
  | rejectRefused permitted => exact apart
  | cancelHand unrestable unfinished => exact apart
  | dropDone => exact apart
  | dropFilled filled traded => exact apart
  | rest later drawn left restable clear isRanked permitted => exact apart.rest inv drawn isRanked
  | startAmend registered permitted isMarked =>
      subst isMarked
      exact apart.updateOrder _ fun _ => rfl
  | abortAmend permitted => exact apart
  | replace permitted isReplaced =>
      subst isReplaced
      exact apart.updateOrder _ fun _ => rfl
  | cancelAmended unrestable => exact apart
  | amendRests held later left clear isRanked place permitted =>
      exact apart.amendRests inv isRanked (place.imp And.left fun joins => ⟨joins.1, joins.2.1⟩)
  | amendGone held later filled mine isRanked => exact apart.amendGone inv isRanked
  | startCancel registered permitted isMarked =>
      subst isMarked
      exact apart.updateOrder _ fun _ => rfl
  | finishCancel =>
      obtain ⟨idle, swept⟩ := inv.cancelling_sweep _ _
      exact apart.sweep swept idle
  | addPhantom absent foreign numbered positive clear permitted =>
      exact apart.setPhantom inv (owner_eq_none_of_not_owned inv foreign) (by rintro _ ⟨⟩; rfl)
  | resizePhantom rests foreign positive within ranked =>
      exact apart.setPhantom inv foreign (by rintro _ ⟨⟩; rfl)
  | movePhantom rests foreign positive sameId sameSide permitted =>
      exact apart.setPhantom inv foreign (by rintro _ ⟨⟩; exact sameId)
  | dropPhantom rests foreign => exact apart.setPhantom inv foreign (by rintro _ ⟨⟩)
  | clearMD retold => exact apart

theorem Micros.rankedApart {env : Environment} {permit : Permit} {before after : Hand × Ledger}
    (run : Micros env permit before after) (inv : before.2.Represents before.1)
    (apart : before.2.RankedApart) : after.2.RankedApart := by
  induction run with
  | refl => exact apart
  | tail earlier step ih => exact step.rankedApart (Micros.represents earlier inv) ih

/-! ## The queues of client orders -/

/-- A later ledger has the client orders of an earlier one, as they were. -/
structure Ledger.KeepsClients (before after : Ledger) : Prop where
  owner : after.owner = before.owner
  byClient : after.byClient = before.byClient
  byOrder : after.byOrder = before.byOrder
  heap : after.heap = before.heap
  entry : ∀ {id}, (before.owner id).isSome → after.entry id = before.entry id

theorem Ledger.KeepsClients.trans {first second third : Ledger} (left : first.KeepsClients second)
    (right : second.KeepsClients third) : first.KeepsClients third where
  owner := right.owner.trans left.owner
  byClient := right.byClient.trans left.byClient
  byOrder := right.byOrder.trans left.byOrder
  heap := right.heap.trans left.heap
  entry ours := (right.entry (left.owner ▸ ours)).trans (left.entry ours)

theorem Ledger.KeepsClients.setPhantom {ledger : Ledger} {id timestamp : Nat} {next : Option BookOrder}
    (keyed : ∀ order, ledger.entry id = some order → order.orderId = id)
    (keyedNext : ∀ order, next = some order → order.orderId = id)
    (phantom : ledger.owner id = none) : ledger.KeepsClients (ledger.setEntry id next timestamp) := by
  rw [setEntry_phantom keyed keyedNext phantom]
  refine ⟨rfl, rfl, rfl, rfl, ?_⟩
  intro other ours
  have different : other ≠ id := by
    rintro rfl
    rw [phantom] at ours
    cases ours
  exact Function.update_of_ne different _ _

namespace OrderBook

variable {β : Type} [OrderBookL3 β] {book after : OrderBook β} {responses : List OrderResponse}
  {side : BookSide}

/-- The orders of clients on a side, in the order of the book. -/
def clientQueue (book : OrderBook β) (side : BookSide) : List BookOrder :=
  (restingOrders book.l3 side).filter fun order => (book.findOrder order.orderId).isSome

variable (responses) in
theorem mem_clientQueue {order : BookOrder} : order ∈ book.clientQueue side ↔
    (book.ledger responses).entry order.orderId = some order ∧ order.side = side ∧
      ((book.ledger responses).owner order.orderId).isSome := by
  unfold clientQueue
  rw [List.mem_filter]
  constructor
  · rintro ⟨member, ours⟩
    exact ⟨OrderBookL3.findOrder_of_mem member, OrderBookL3.side_of_mem member, ours⟩
  · rintro ⟨found, rfl, ours⟩
    exact ⟨OrderBookL3.mem_allOrders.mp (OrderBookL3.findOrder_eq_some.mp found).1, ours⟩

/-- An order of a client ranks as its owner does. -/
theorem clientQueue_entryOf (inv : (book.ledger responses).Represents .none) {order : BookOrder}
    (member : order ∈ book.clientQueue side) : ∃ ref,
      (book.ledger responses).owner order.orderId = some ref ∧ order = (book.heap ref).bookEntry := by
  obtain ⟨found, -, ours⟩ := (mem_clientQueue responses).mp member
  obtain ⟨ref, ours⟩ := Option.isSome_iff_exists.mp ours
  refine ⟨ref, ours, ?_⟩
  obtain ⟨entry, -⟩ := (inv.agrees.at_ ref).rests (inv.indexed.registered ours) (by rintro ⟨⟩)
  rw [inv.indexed.owner_id ours, found] at entry
  exact Option.some.inj entry

/-- Clients whose orders were kept queue as they did. -/
theorem clientQueue_kept {told : List OrderResponse} (inv : (book.ledger responses).Represents .none)
    (apart : (book.ledger responses).RankedApart)
    (kept : (book.ledger responses).KeepsClients (after.ledger told)) :
    after.clientQueue side = book.clientQueue side := by
  have sameMembers : ∀ order, order ∈ after.clientQueue side ↔ order ∈ book.clientQueue side := by
    intro order
    rw [mem_clientQueue told, mem_clientQueue responses, kept.owner]
    constructor
    · rintro ⟨found, isSide, ours⟩
      exact ⟨kept.entry ours ▸ found, isSide, ours⟩
    · rintro ⟨found, isSide, ours⟩
      exact ⟨(kept.entry ours).trans found, isSide, ours⟩
  have distinct : ∀ other : OrderBook β, (other.clientQueue side).Nodup := fun other =>
    (List.Nodup.of_map _ (OrderBookL3.restingOrders_distinct other.l3 side)).filter _
  have ranked : ∀ other : OrderBook β, (other.clientQueue side).Pairwise (BookOrder.ranksBefore side) :=
    fun other => (OrderBookL3.ranked other.l3 side).filter _
  refine ((List.perm_ext_iff_of_nodup (distinct _) (distinct _)).mpr sameMembers).eq_of_pairwise ?_
    (ranked _) (ranked _)
  intro first second isFirst isSecond before behind
  have isFirst := (sameMembers first).mp isFirst
  have samePriority : first.priority = second.priority := by
    unfold BookOrder.ranksBefore isPriceBetter at before behind
    cases side
    · simp only [decide_eq_true_eq] at before behind
      omega
    · simp only [decide_eq_true_eq] at before behind
      omega
  obtain ⟨ref, ours, isEntry⟩ := clientQueue_entryOf inv isFirst
  obtain ⟨otherRef, theirs, isOther⟩ := clientQueue_entryOf inv isSecond
  have sameId := apart ours theirs (by rw [isEntry, isOther] at samePriority; exact samePriority)
  rw [sameId, theirs] at ours
  rw [isEntry, isOther, Option.some.inj ours]

/-- Only the orders of clients are left, as they were. -/
theorem clearMDOrders_clients (inv : (book.ledger responses).Represents .none) :
    (book.ledger responses).KeepsClients (book.clearMDOrders.ledger responses) ∧
      (∀ price, book.clearMDOrders.getMDLevelQty price = 0) ∧
      ∀ side, book.clearMDOrders.clientQueue side = restingOrders book.clearMDOrders.l3 side := by
  obtain ⟨trail, cleared, -⟩ := clearMDOrders_ledger inv
  have clients : (book.ledger responses).KeepsClients (book.clearMDOrders.ledger responses) := by
    rw [cleared]
    exact ⟨rfl, rfl, rfl, rfl, fun ours => if_pos ours⟩
  refine ⟨clients, ?_, ?_⟩
  · intro price
    have nothing : (book.clearMDOrders.ledger responses).totals price = none := by rw [cleared]
    show Option.getD ((book.clearMDOrders.ledger responses).totals price) 0 = 0
    rw [nothing]
    rfl
  · intro side
    apply List.filter_eq_self.mpr
    intro order member
    have found : (book.clearMDOrders.ledger responses).entry order.orderId = some order :=
      OrderBookL3.findOrder_of_mem member
    show ((book.clearMDOrders.ledger responses).owner order.orderId).isSome
    rw [clients.owner]
    rw [cleared] at found
    dsimp only at found
    split at found <;> rename_i ours
    · exact ours
    · cases found

theorem addL3Order_keepsClients {order : BookOrder} {timestamp priority seqNum : Nat} (isLast : Bool)
    (current : ¬ Regresses book.l3 seqNum) (absent : (book.ledger responses).entry order.orderId = none)
    (phantom : (book.ledger responses).owner order.orderId = none) (positive : 0 < order.quantity)
    (ranked : order.priority = effectivePriority priority timestamp) :
    (book.ledger responses).KeepsClients ((book.addL3Order order.orderId order.side order.price
      order.quantity timestamp priority seqNum isLast).ledger responses) := by
  rw [(addL3Order_ledger responses order isLast current absent positive ranked).1]
  apply Ledger.KeepsClients.setPhantom _ (by rintro _ ⟨⟩; rfl) phantom
  intro resting found
  rw [absent] at found
  cases found

end OrderBook

/-! ## A row of a snapshot -/

namespace Exchange

variable {β : Type} [OrderBookL3 β] {env : Environment} {config : SymbolConfig}
  {start exchange after : Exchange β} {side : Side} {price qty : Int}

/-- A level has more phantom quantity, and that is all: no client order is another, and
nothing is filled. -/
structure RaisesLevel (exchange after : Exchange β) (side : BookSide) (price qty : Int) : Prop where
  clients : exchange.ledger.KeepsClients after.ledger
  unfilled : exchange.FillFree after
  quantities : ∀ otherSide other, after.book.phantomQtyAt otherSide other =
    exchange.book.phantomQtyAt otherSide other + if side = otherSide ∧ price = other then qty else 0

variable (env config) in
theorem restTimestamped_raisesLevel (inv : exchange.ledger.Represents .none) (eventTimeNs : Nat)
    (positive : 0 < qty) (clear : exchange.ledger.Beyond (toBookSide side).opposite price) :
    (exchange.restTimestamped env config side price qty eventTimeNs).1 = [] ∧
      exchange.RaisesLevel (exchange.restTimestamped env config side price qty eventTimeNs).2
        (toBookSide side) price qty := by
  have quantities := restTimestamped_phantomQty env config eventTimeNs inv positive clear
  let order : BookOrder :=
    { orderId := exchange.book.globals.nextOrderId, side := toBookSide side, price, quantity := qty
      priority := effectivePriority 0 eventTimeNs }
  have foreign : exchange.ledger.owner exchange.book.globals.nextOrderId = none :=
    Ledger.owner_eq_none_of_not_owned inv (nextOrderId_foreign inv)
  have drawn : exchange.ledger.KeepsClients (exchange.onBook OrderBook.nextOrderId).ledger :=
    ⟨rfl, rfl, rfl, rfl, fun _ => rfl⟩
  have added : (exchange.onBook OrderBook.nextOrderId).ledger.KeepsClients _ :=
    @OrderBook.addL3Order_keepsClients β _ exchange.book.nextOrderId exchange.matching.responses order
      eventTimeNs 0 0 true (fun stale => stale.1.false) (nextOrderId_absent inv) foreign positive rfl
  rw [restTimestamped_of_beyond env config eventTimeNs positive clear] at quantities ⊢
  exact ⟨rfl, drawn.trans added, ⟨rfl, rfl, rfl⟩, quantities⟩

variable (env config) in
theorem restVenueQty_raisesLevel {seqNum : Nat} (inv : exchange.ledger.Represents .none)
    (current : ¬ Regresses exchange.book.l3 seqNum) (eventTime : Nat) (isLast : Bool) (positive : 0 < qty)
    (clear : exchange.ledger.Beyond (toBookSide side).opposite price) :
    (exchange.restVenueQty env config side price qty eventTime seqNum isLast).2.1 = [] ∧
      exchange.RaisesLevel (exchange.restVenueQty env config side price qty eventTime seqNum isLast).2.2
        (toBookSide side) price qty := by
  have quantities := restVenueQty_phantomQty env config eventTime isLast inv current positive.le clear
  let order : BookOrder :=
    { orderId := exchange.book.globals.nextOrderId, side := toBookSide side, price, quantity := qty
      priority := exchange.book.globals.nextPriority + 1 }
  have absent : (exchange.book.nextOrderId.ledger exchange.matching.responses).entry
    exchange.book.globals.nextOrderId = none := nextOrderId_absent inv
  have foreign : exchange.ledger.owner exchange.book.globals.nextOrderId = none :=
    Ledger.owner_eq_none_of_not_owned inv (nextOrderId_foreign inv)
  have drawn : exchange.ledger.KeepsClients
      (exchange.onBook fun book => book.nextOrderId.nextOrderPriority).ledger :=
    ⟨rfl, rfl, rfl, rfl, fun _ => rfl⟩
  have added : (exchange.onBook fun book => book.nextOrderId.nextOrderPriority).ledger.KeepsClients _ :=
    @OrderBook.addL3Order_keepsClients β _ exchange.book.nextOrderId.nextOrderPriority
      exchange.matching.responses order eventTime (exchange.book.globals.nextPriority + 1) seqNum isLast
      current absent foreign positive (if_neg (Nat.succ_ne_zero _)).symm
  rw [restVenueQty_of_beyond env config eventTime seqNum isLast clear] at quantities ⊢
  rw [if_pos positive.ne'] at quantities ⊢
  refine ⟨rfl, ?_, ⟨rfl, rfl, rfl⟩, quantities⟩
  show exchange.ledger.KeepsClients (OrderBook.ledger (exchange.book.nextOrderId.addBookOrder _ _ _ _ _ _ _) _)
  rw [OrderBook.addBookOrder_eq absent]
  exact drawn.trans added

end Exchange

/-! ## The rows of a snapshot -/

/-- What the rows of a price add up to. -/
def L2Levels.sumAt (levels : L2Levels) (price : Int) : Int :=
  (levels.map fun level => if level.1 = price then level.2 else 0).sum

theorem L2Levels.sumAt_append (left right : L2Levels) (price : Int) :
    L2Levels.sumAt (left ++ right) price = L2Levels.sumAt left price + L2Levels.sumAt right price := by
  unfold sumAt
  rw [List.map_append, List.sum_append]

theorem L2Levels.sumAt_perm {left right : L2Levels} (perm : left.Perm right) (price : Int) :
    L2Levels.sumAt left price = L2Levels.sumAt right price :=
  (perm.map _).sum_eq

theorem L2Levels.mem_of_sumAt {levels : L2Levels} {price : Int} (some : L2Levels.sumAt levels price ≠ 0) :
    price ∈ levels.map Prod.fst := by
  by_contra absent
  apply some
  apply List.sum_eq_zero
  intro share member
  obtain ⟨level, inside, rfl⟩ := List.mem_map.mp member
  refine if_neg ?_
  rintro rfl
  exact absent (List.mem_map_of_mem inside)

theorem L2Levels.sumAt_eq_qtyAt {levels : L2Levels} (distinct : (levels.map Prod.fst).Nodup) (price : Int) :
    L2Levels.sumAt levels price = L2Levels.qtyAt levels price := by
  induction levels with
  | nil => rfl
  | cons level rest ih =>
      obtain ⟨fresh, distinct⟩ := List.nodup_cons.mp distinct
      have cut : L2Levels.sumAt (level :: rest) price =
          (if level.1 = price then level.2 else 0) + L2Levels.sumAt rest price := List.sum_cons
      unfold qtyAt at ih ⊢
      rw [cut, SortedPatch.lookup_cons_ite]
      by_cases here : level.1 = price
      · have nothing : L2Levels.sumAt rest price = 0 := by
          by_contra some
          exact fresh (here ▸ mem_of_sumAt some)
        rw [if_pos here, if_pos here.symm, nothing, add_zero, Option.getD_some]
      · rw [if_neg here, if_neg (Ne.symm here), zero_add, ih distinct]

namespace VenueBook

/-- No level of the other side can trade with an order. -/
def ClearOf (book : VenueBook) (order : BookOrder) : Prop :=
  ∀ level ∈ book.levels order.side.opposite,
    if order.side = .buy then order.price < level.1 else level.1 < order.price

instance (book : VenueBook) (order : BookOrder) : Decidable (book.ClearOf order) :=
  inferInstanceAs (Decidable (∀ level ∈ _, _))

theorem priced_of_mem (book : VenueBook) {side : BookSide} {level : Int × Int}
    (member : level ∈ book.levels side) : level.1 ≠ nullPrice := by
  cases side
  · exact book.priced level (List.mem_append_left _ member)
  · exact book.priced level (List.mem_append_right _ member)

theorem beyond_of_clear {book : VenueBook} {order : BookOrder} {level : Int × Int}
    (clear : book.ClearOf order) (member : level ∈ book.levels order.side.opposite) :
    beyondLimit order.side order.price level.1 = true := by
  have priced := book.priced_of_mem member
  have apart := clear level member
  unfold beyondLimit isPriceBetterOrEqual
  cases side : order.side
  · rw [side, if_pos rfl] at apart
    simp [priced, apart]
  · rw [side, if_neg (by decide)] at apart
    simp [priced, apart]

end VenueBook

namespace Exchange

variable {β : Type} [OrderBookL3 β] {env : Environment} {config : SymbolConfig}
  {start exchange after : Exchange β} {venue : VenueBook} {side : BookSide} {row : Int × Int}
  {table : BookSide → L2Levels}

/-- Rows of a venue's book were taken by an exchange that keeps the client orders it had. -/
structure Rebuilds (venue : VenueBook) (start exchange : Exchange β) (table : BookSide → L2Levels) :
    Prop where
  represents : exchange.ledger.Represents .none
  clients : start.ledger.KeepsClients exchange.ledger
  unfilled : start.FillFree exchange
  quantities : ∀ side price, exchange.book.phantomQtyAt side price = L2Levels.sumAt (table side) price
  listed : ∀ side, ∀ row ∈ table side, row ∈ venue.levels side

namespace Rebuilds

theorem beyond (rebuilds : Rebuilds venue start exchange table)
    (clear : ∀ side, ∀ order ∈ start.book.clientQueue side, venue.ClearOf order)
    (member : row ∈ venue.levels side) : exchange.ledger.Beyond side.opposite row.1 := by
  intro id resting found facing
  cases owner : exchange.ledger.owner id with
  | some ref =>
      have ours : (start.ledger.owner id).isSome := by
        rw [← rebuilds.clients.owner, owner]
        rfl
      obtain rfl := rebuilds.represents.indexed.entry_id found
      have wasFound := rebuilds.clients.entry ours ▸ found
      have inside : resting ∈ start.book.clientQueue side.opposite :=
        (OrderBook.mem_clientQueue start.matching.responses).mpr ⟨wasFound, facing, ours⟩
      rw [← facing]
      refine VenueBook.beyond_of_clear (clear _ resting inside) ?_
      rw [facing, BookSide.opposite_opposite]
      exact member
  | none =>
      obtain rfl := rebuilds.represents.indexed.entry_id found
      have rests : resting ∈ restingOrders exchange.book.l3 side.opposite := by
        rw [← facing]
        exact OrderBookL3.mem_allOrders.mp (OrderBookL3.findOrder_eq_some.mp found).1
      have shown : 0 < exchange.book.phantomQtyAt side.opposite resting.price :=
        OrderBook.phantomQtyAt_pos rebuilds.represents rests owner
      rw [rebuilds.quantities] at shown
      obtain ⟨other, isOther, samePrice⟩ := List.mem_map.mp (L2Levels.mem_of_sumAt shown.ne')
      rw [← samePrice]
      exact venue.levels_beyond (List.mem_map_of_mem member)
        (List.mem_map_of_mem (rebuilds.listed _ other isOther))

theorem raised (rebuilds : Rebuilds venue start exchange table) (represents : after.ledger.Represents .none)
    (raises : exchange.RaisesLevel after side row.1 row.2) (member : row ∈ venue.levels side) :
    Rebuilds venue start after (Function.update table side (table side ++ [row])) where
  represents := represents
  clients := rebuilds.clients.trans raises.clients
  unfilled := rebuilds.unfilled.trans raises.unfilled
  quantities := by
    intro otherSide price
    rw [raises.quantities, rebuilds.quantities]
    by_cases here : otherSide = side
    · rw [here, Function.update_self, L2Levels.sumAt_append]
      simp [L2Levels.sumAt]
    · rw [Function.update_of_ne here, if_neg fun same => here same.1.symm, add_zero]
  listed := by
    intro otherSide other inside
    by_cases here : otherSide = side
    · rw [here, Function.update_self] at inside
      rcases List.mem_append.mp inside with earlier | last
      · rw [here]
        exact rebuilds.listed side other earlier
      · rw [List.mem_singleton.mp last, here]
        exact member
    · rw [Function.update_of_ne here] at inside
      exact rebuilds.listed otherSide other inside

/-- Stamps and market data that is no print change nothing of it. -/
theorem unseen (rebuilds : Rebuilds venue start exchange table) (ledger : after.ledger = exchange.ledger)
    (l3 : after.book.l3 = exchange.book.l3) (orders : after.book.orders = exchange.book.orders)
    (unfilled : exchange.FillFree after) : Rebuilds venue start after table where
  represents := ledger ▸ rebuilds.represents
  clients := ledger ▸ rebuilds.clients
  unfilled := rebuilds.unfilled.trans unfilled
  quantities := by
    intro side price
    rw [← rebuilds.quantities]
    unfold OrderBook.phantomQtyAt OrderBook.findOrder
    rw [l3, orders]
  listed := rebuilds.listed

theorem of_table {other : BookSide → L2Levels} (rebuilds : Rebuilds venue start exchange table)
    (same : table = other) : Rebuilds venue start exchange other :=
  same ▸ rebuilds

end Rebuilds

private theorem update_append (rest : BookSide → L2Levels) :
    (fun other => Function.update table side (table side ++ [row]) other ++ rest other) =
      fun other => table other ++ ((if other = side then [row] else []) ++ rest other) := by
  funext other
  by_cases here : other = side
  · rw [here, Function.update_self, if_pos rfl, List.append_assoc]
  · rw [Function.update_of_ne here, if_neg here, List.nil_append]

end Exchange

/-- The rows a batch of Coinbase has for a side. -/
def Level2Update.rowsOf (updates : List Level2Update) (side : BookSide) : L2Levels :=
  (updates.filter fun update => toBookSide update.side = side).map fun update =>
    (update.price, update.newQuantity)

/-- A batch of Coinbase shows a book when its rows are the levels, in whatever order. -/
def VenueBook.ShownBy (book : VenueBook) (updates : List Level2Update) : Prop :=
  ∀ side, (Level2Update.rowsOf updates side).Perm (book.levels side)

namespace Exchange

variable {β : Type} [OrderBookL3 β] {env : Environment} {config : SymbolConfig}
  {start exchange after : Exchange β} {venue : VenueBook} {side : BookSide} {row : Int × Int}
  {table : BookSide → L2Levels}

namespace Rebuilds

variable (env config) in
theorem applySnapshotRows {seqNum : Nat} (rebuilds : Rebuilds venue start exchange table)
    (clear : ∀ side, ∀ order ∈ start.book.clientQueue side, venue.ClearOf order) (venueSeqNum : Nat)
    (current : ¬ Regresses exchange.book.l3 seqNum) (updates : List Level2Update)
    (listed : ∀ update ∈ updates, (update.price, update.newQuantity) ∈ venue.levels (toBookSide update.side)) :
    Rebuilds venue start (exchange.applySnapshotRows env config venueSeqNum seqNum updates)
      fun side => table side ++ Level2Update.rowsOf updates side := by
  induction updates generalizing exchange table with
  | nil => exact rebuilds.of_table (funext fun side => (List.append_nil _).symm)
  | cons update rest ih =>
      have member := listed update List.mem_cons_self
      have positive : 0 < update.newQuantity := venue.levels_positive member
      have beyond := rebuilds.beyond clear member
      obtain ⟨silent, raises⟩ := restVenueQty_raisesLevel env config rebuilds.represents current
        update.eventTime rest.isEmpty positive beyond
      obtain ⟨run, -⟩ := @restVenueQty_run β _ env .all seqNum exchange config update.side update.price
        update.newQuantity update.eventTime rest.isEmpty rebuilds.represents current positive.le
        fun _ _ _ _ _ _ _ => trivial
      have raised : Rebuilds venue start _ (Function.update table (toBookSide update.side)
          (table (toBookSide update.side) ++ [(update.price, update.newQuantity)])) :=
        rebuilds.raised (run.represents rebuilds.represents) raises member
      have applied : Rebuilds venue start
            (exchange.applySnapshotRow env config venueSeqNum seqNum update rest.isEmpty)
            (Function.update table (toBookSide update.side)
              (table (toBookSide update.side) ++ [(update.price, update.newQuantity)])) ∧
          ¬ Regresses (exchange.applySnapshotRow env config venueSeqNum seqNum update rest.isEmpty).book.l3
            seqNum := by
        unfold Exchange.applySnapshotRow
        dsimp only
        rw [silent]
        split
        · exact ⟨raised.unseen rfl rfl rfl ⟨rfl, rfl, rfl⟩, run.current⟩
        · exact ⟨raised, run.current⟩
      have later := ih applied.1 applied.2 fun other inside => listed other (List.mem_cons_of_mem _ inside)
      rw [update_append] at later
      refine later.of_table (funext fun side => congrArg (table side ++ ·) ?_)
      unfold Level2Update.rowsOf
      by_cases here : toBookSide update.side = side
      · rw [if_pos here.symm, List.filter_cons_of_pos (by simpa using here)]
        rfl
      · rw [if_neg (Ne.symm here), List.filter_cons_of_neg (by simpa using here)]
        rfl

variable (env config) in
theorem applyL2Side {side : Side} (rebuilds : Rebuilds venue start exchange table)
    (clear : ∀ side, ∀ order ∈ start.book.clientQueue side, venue.ClearOf order) (eventTimeNs : Nat)
    (levels : L2Levels) (listed : ∀ level ∈ levels, level ∈ venue.levels (toBookSide side)) :
    Rebuilds venue start (exchange.applyL2Side env config side eventTimeNs (L2Levels.rows levels))
      (Function.update table (toBookSide side) (table (toBookSide side) ++ levels)) := by
  induction levels generalizing exchange table with
  | nil =>
      rw [List.append_nil, Function.update_eq_self]
      exact rebuilds
  | cons level rest ih =>
      have member := listed level List.mem_cons_self
      have positive : 0 < level.2 := venue.levels_positive member
      have beyond := rebuilds.beyond clear member
      obtain ⟨silent, raises⟩ := restTimestamped_raisesLevel env config rebuilds.represents eventTimeNs
        positive beyond
      have run := @restTimestamped_run β _ env .all exchange config side level.1 level.2 eventTimeNs
        rebuilds.represents fun _ _ _ _ _ _ _ => trivial
      have raised := rebuilds.raised (run.represents rebuilds.represents) raises member
      show Rebuilds venue start (Exchange.applyL2Side _ env config side eventTimeNs
        (⟨level.1, level.2⟩ :: L2Levels.rows rest)) _
      unfold Exchange.applyL2Side
      rw [if_neg (by dsimp only; omega)]
      dsimp only
      rw [silent]
      have applied : Rebuilds venue start (setRefLevels (exchange.restTimestamped env config side level.1
          level.2 eventTimeNs).2 (toBookSide side) ((exchange.restTimestamped env config side level.1 level.2
          eventTimeNs).2.hyperliquid.l2RefLevels (toBookSide side) ++ [level.1])) _ :=
        raised.unseen rfl rfl rfl ⟨rfl, rfl, rfl⟩
      have later := ih applied fun other inside => listed other (List.mem_cons_of_mem _ inside)
      rw [Function.update_self, Function.update_idem, List.append_assoc] at later
      exact later

theorem finalize (rebuilds : Rebuilds venue start exchange table) (timestamp : Nat) :
    Rebuilds venue start (((exchange.onBook fun book => book.setLastUpdate timestamp 0).finalizeL2Event).onBook
      OrderBook.clearCaches) table := by
  have stamped : Rebuilds venue start (exchange.onBook fun book => book.setLastUpdate timestamp 0) table :=
    rebuilds.unseen rfl rfl rfl ⟨rfl, rfl, rfl⟩
  generalize (exchange.onBook fun book => book.setLastUpdate timestamp 0) = middle at stamped
  have same : middle.finalizeL2Event.matching = middle.matching := finalizeL2Event_matching
  have sent : middle.FillFree middle.finalizeL2Event := finalizeL2Event_fillFree
  have told := stamped.unseen (congrArg MatchState.ledger same)
    (congrArg (fun state : MatchState β => state.book.l3) same)
    (congrArg (fun state : MatchState β => state.book.orders) same) sent
  exact told.unseen rfl rfl rfl ⟨rfl, rfl, rfl⟩

end Rebuilds

/-! ## Messages -/

/-- A rebuilt book has the client orders of the one before it and the venue's levels, and
nothing was filled on the way. -/
structure RebuiltAs (start after : Exchange β) (venue : VenueBook) : Prop where
  findOrder : after.book.findOrder = start.book.findOrder
  findOrderByClientOrderId : after.book.findOrderByClientOrderId = start.book.findOrderByClientOrderId
  findOrderByOrderId : after.book.findOrderByOrderId = start.book.findOrderByOrderId
  heap : after.book.heap = start.book.heap
  queue : ∀ side, after.book.clientQueue side = start.book.clientQueue side
  quantities : ∀ side price, after.book.phantomQtyAt side price = L2Levels.qtyAt (venue.levels side) price
  totals : ∀ price, after.book.getMDLevelQty price =
    L2Levels.qtyAt venue.bids price + L2Levels.qtyAt venue.asks price
  unfilled : start.FillFree after

namespace Rebuilds

theorem rebuiltAs (rebuilds : Rebuilds venue start exchange table) (inv : start.ledger.Represents .none)
    (apart : start.ledger.RankedApart) (totalled : exchange.ledger.Totalled)
    (whole : ∀ side, (table side).Perm (venue.levels side)) : start.RebuiltAs exchange venue := by
  have quantities : ∀ side price,
      exchange.book.phantomQtyAt side price = L2Levels.qtyAt (venue.levels side) price := by
    intro side price
    rw [rebuilds.quantities, L2Levels.sumAt_perm (whole side),
      L2Levels.sumAt_eq_qtyAt (venue.levels_ordered side).nodup_keys]
  refine ⟨rebuilds.clients.owner, rebuilds.clients.byClient, rebuilds.clients.byOrder, rebuilds.clients.heap,
    fun _ => OrderBook.clientQueue_kept inv apart rebuilds.clients, quantities, ?_, rebuilds.unfilled⟩
  intro price
  have sides : exchange.book.getMDLevelQty price = exchange.book.phantomQtyAt .buy price +
      exchange.book.phantomQtyAt .sell price :=
    OrderBook.getMDLevelQty_eq_sides rebuilds.represents totalled .buy price
  rw [sides, quantities, quantities]
  rfl

end Rebuilds

/-- Every snapshot begins with a book of nothing but client orders. -/
theorem clearMDOrders_rebuilds (inv : exchange.ledger.Represents .none) :
    Rebuilds venue exchange (exchange.onBook OrderBook.clearMDOrders) fun _ => [] := by
  obtain ⟨clears, -⟩ := @clearMDOrders_run β _ (.counted fun _ => default) .all exchange inv
  obtain ⟨clients, -, ours⟩ := OrderBook.clearMDOrders_clients inv
  refine ⟨clears.represents inv, clients, ⟨rfl, rfl, rfl⟩, ?_, by rintro _ _ ⟨⟩⟩
  intro side price
  apply List.sum_eq_zero
  intro share isShare
  obtain ⟨order, member, rfl⟩ := List.mem_map.mp isShare
  refine if_neg fun holds => ?_
  have inside : order ∈ exchange.book.clearMDOrders.clientQueue side := (ours side).symm ▸ member
  have isOurs : (exchange.book.clearMDOrders.findOrder order.orderId).isSome := by
    simpa using (List.mem_filter.mp inside).2
  have foreign : (exchange.book.clearMDOrders.findOrder order.orderId).isNone := holds.2
  rw [Option.isNone_iff_eq_none.mp foreign] at isOurs
  cases isOurs

variable (env config) in
theorem processL2Snapshot_rebuilds (inv : exchange.ledger.Represents .none)
    (clear : ∀ side, ∀ order ∈ exchange.book.clientQueue side, venue.ClearOf order) (timeMs : Nat) :
    Rebuilds venue exchange (exchange.processL2Snapshot env config (venue.snapshotAt timeMs)) venue.levels := by
  have reset : Rebuilds venue exchange ((((exchange.onBook OrderBook.clearMDOrders).noteMark
      .rebuilt).setRefLevels .buy []).setRefLevels .sell []) fun _ => [] :=
    (clearMDOrders_rebuilds inv).unseen rfl rfl rfl ⟨rfl, rfl, rfl⟩
  have bids := @Rebuilds.applyL2Side β _ env config exchange _ venue _ .buy reset clear
    (timeMs * oneMillisecondNs) venue.bids fun _ member => member
  have asks := @Rebuilds.applyL2Side β _ env config exchange _ venue _ .sell bids clear
    (timeMs * oneMillisecondNs) venue.asks fun _ member => member
  have whole : Function.update (Function.update (fun _ => []) .buy venue.bids) .sell venue.asks =
      venue.levels := by
    funext side
    cases side <;> rfl
  exact (asks.finalize (timeMs * oneMillisecondNs)).of_table whole

variable (env config) in
theorem onLevel2Snapshot_rebuilds (inv : exchange.ledger.Represents .none)
    (clear : ∀ side, ∀ order ∈ exchange.book.clientQueue side, venue.ClearOf order) (venueSeqNum : Nat)
    {updates : List Level2Update} (shown : venue.ShownBy updates) :
    Rebuilds venue exchange (exchange.onLevel2Snapshot env config venueSeqNum updates)
      fun side => Level2Update.rowsOf updates.reverse side := by
  let cleared : Exchange β := (exchange.onBook OrderBook.clearMDOrders).noteMark .rebuilt
  let reset : Exchange β := { cleared with
    coinbase := { cleared.coinbase with levelUpdateBuffer := [], lastPublishedLevelSeqNum := 0 } }
  have began : Rebuilds venue exchange reset.nextBookSeqNum.2 fun _ => [] :=
    (clearMDOrders_rebuilds inv).unseen rfl rfl rfl ⟨rfl, rfl, rfl⟩
  have rows := began.applySnapshotRows env config clear venueSeqNum (nextBookSeqNum_current reset)
    updates.reverse ?_
  · unfold onLevel2Snapshot
    dsimp only
    split
    · exact rows.unseen rfl rfl rfl ⟨rfl, rfl, populateL2SubscriptionResponse_fillFree.frames⟩
    · exact rows.unseen rfl rfl rfl ⟨rfl, rfl, populateL2Snapshot_fillFree.frames⟩
  · intro update member
    apply (shown (toBookSide update.side)).subset
    apply List.mem_map_of_mem
    exact List.mem_filter.mpr ⟨List.mem_reverse.mp member, decide_eq_true rfl⟩

/-! ## The law -/

theorem Reachable.rankedApart {allowed : Exchange β → Input → Prop}
    (reachable : Reachable env config allowed exchange) : exchange.ledger.RankedApart :=
  (@Reachable.invariant β _ env config .all exchange allowed Ledger.RankedApart
    (fun pool publishOrderUpdates => by
      rw [new_ledger]
      rintro _ _ _ _ ⟨⟩)
    (fun _ _ _ _ _ admitted _ => stepLicence_of_joins (fun _ _ => trivial) admitted
      (requestLicence_of_moves fun _ _ _ _ _ _ => trivial))
    (fun inv _ apart run => run.rankedApart inv apart) reachable).2.2

/-- Clearing what is not ours leaves every client order as it was and where it was, and no
phantom quantity. A snapshot that crosses none of them then shows its own levels beside
them, whichever venue it comes from and in whatever order its rows are taken. -/
theorem snapshot_rebuilds (reachable : Reachable env config (fun _ _ => True) exchange) :
    let cleared := exchange.book.clearMDOrders
    ((∀ side, restingOrders cleared.l3 side = exchange.book.clientQueue side) ∧
        (∀ order, order ∈ OrderBookL3.allOrders cleared.l3 ↔ ∃ ref,
          exchange.book.findOrder order.orderId = some ref ∧ order = (exchange.book.heap ref).bookEntry) ∧
        (∀ price, cleared.getMDLevelQty price = 0) ∧
        cleared.findOrder = exchange.book.findOrder ∧
        cleared.findOrderByClientOrderId = exchange.book.findOrderByClientOrderId ∧
        cleared.findOrderByOrderId = exchange.book.findOrderByOrderId) ∧
      ∀ venue : VenueBook, (∀ side, ∀ order ∈ exchange.book.clientQueue side, venue.ClearOf order) →
        (∀ timeMs, exchange.RebuiltAs (exchange.processL2Snapshot env config (venue.snapshotAt timeMs))
          venue) ∧
        ∀ seqNum updates, venue.ShownBy updates →
          exchange.RebuiltAs (exchange.onLevel2Snapshot env config seqNum updates) venue := by
  intro cleared
  have inv := reachable.represents.1
  have apart := reachable.rankedApart
  obtain ⟨clients, totals, ours⟩ := OrderBook.clearMDOrders_clients inv
  have queues : ∀ side, restingOrders cleared.l3 side = exchange.book.clientQueue side := by
    intro side
    exact (ours side).symm.trans (OrderBook.clientQueue_kept inv apart clients)
  refine ⟨⟨queues, ?_, totals, clients.owner, clients.byClient, clients.byOrder⟩, ?_⟩
  · intro order
    rw [OrderBookL3.mem_allOrders, queues]
    constructor
    · exact fun member => OrderBook.clientQueue_entryOf inv member
    · rintro ⟨ref, isOurs, isEntry⟩
      have rests := (inv.agrees.at_ ref).rests (inv.indexed.registered isOurs) (by rintro ⟨⟩)
      refine (OrderBook.mem_clientQueue exchange.matching.responses).mpr ⟨?_, rfl, ?_⟩
      · have found := rests.1
        rw [inv.indexed.owner_id isOurs] at found
        rw [isEntry] at found ⊢
        exact found
      · show (exchange.book.findOrder order.orderId).isSome
        rw [isOurs]
        rfl
  · intro venue clear
    refine ⟨?_, ?_⟩
    · intro timeMs
      have totalled := (reachable.step (.l2Snapshot (venue.snapshotAt timeMs)) trivial trivial).represents.2
      exact (processL2Snapshot_rebuilds env config inv clear timeMs).rebuiltAs inv apart totalled
        fun _ => .refl _
    · intro seqNum updates shown
      have totalled := (reachable.step (.level2Snapshot seqNum updates) trivial trivial).represents.2
      refine (onLevel2Snapshot_rebuilds env config inv clear seqNum shown).rebuiltAs inv apart totalled
        fun side => ?_
      refine List.Perm.trans ?_ (shown side)
      unfold Level2Update.rowsOf
      rw [List.filter_reverse, List.map_reverse]
      exact List.reverse_perm _

/-- Two bids of one level and an ask, between levels that are gone and levels that come. -/
theorem snapshot_rebuilds_three :
    let env : Environment := .counted fun _ => default
    let config : SymbolConfig := .reference .none
    let limit (draw : Nat) (side : Side) (price qty : Int) : Input := .newOrder Input.header
      { userId := default, clientOrderId := Environment.countedName draw, side, type := .limit
        timeInForce := .goodTillCancel, price, qty }
    let update (side : Side) (price newQuantity : Int) (nonneg : 0 ≤ newQuantity) : Level2Update :=
      { side, price, newQuantity, eventTime := 2, newQuantity_nonneg := nonneg }
    let exchange := (Exchange.new (fun _ => default) true : Exchange ReferenceBook).run env config
      [.l2Snapshot ⟨1, [⟨99, 7⟩], [⟨103, 1⟩]⟩, limit 1 .buy 99 5, limit 2 .buy 99 2, limit 3 .sell 105 4]
    let batch := [update .sell 105 2 (by decide), update .buy 99 3 (by decide),
      update .sell 104 4 (by decide), update .buy 100 5 (by decide)]
    ((restingOrders exchange.book.clearMDOrders.l3 .buy).map BookOrder.quantity = [5, 2]) ∧
      exchange.RebuiltAs (exchange.processL2Snapshot env config (wideBook.snapshotAt 2)) wideBook ∧
      exchange.RebuiltAs (exchange.onLevel2Snapshot env config 1 batch) wideBook := by
  intro env config limit update exchange batch
  have start : Reachable env config (fun _ _ => True) (Exchange.new (fun _ => default) true :
      Exchange ReferenceBook) := .new _ _
  have reachable : Reachable env config (fun _ _ => True) exchange := start.run (by decide +kernel)
  have clear : ∀ side, ∀ order ∈ exchange.book.clientQueue side, wideBook.ClearOf order := by
    intro side
    cases side <;> decide +kernel
  obtain ⟨⟨queues, -⟩, rebuilds⟩ := @snapshot_rebuilds ReferenceBook _ env config exchange reachable
  obtain ⟨hyperliquid, coinbase⟩ := rebuilds wideBook clear
  refine ⟨?_, hyperliquid 2, coinbase 1 batch ?_⟩
  · rw [queues]
    decide +kernel
  · intro side
    cases side <;> decide +kernel

end Exchange

end SlickSim
