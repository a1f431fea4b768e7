import SlickSim.Ledger.Representation

/-!
# Every effect keeps the representation

One lemma for each effect of the ledger machine, then the run lemma.
-/

set_option autoImplicit false

namespace SlickSim

open OrderBookL3 (afterExecution)

namespace Ledger

variable {env : Environment} {hand : Hand} {ledger : Ledger} {ref : Nat}

theorem exchangeUpdates_orderId {before after : Option BookOrder} {id timestamp : Nat}
    (keyedBefore : ∀ order, before = some order → order.orderId = id)
    (keyedAfter : ∀ order, after = some order → order.orderId = id) :
    ∀ update ∈ exchangeUpdates before after timestamp, update.orderId = id := by
  intro update member
  unfold exchangeUpdates at member
  cases before with
  | none =>
      cases after with
      | none => cases member
      | some next =>
          rw [List.mem_singleton] at member
          rw [member]
          exact keyedAfter next rfl
  | some order =>
      cases after with
      | none =>
          rw [List.mem_singleton] at member
          rw [member]
          exact keyedBefore order rfl
      | some next =>
          dsimp only at member
          split at member
          · cases member
          · rw [List.mem_singleton] at member
            rw [member]
            exact keyedBefore order rfl

theorem foldl_onOrderUpdate_phantom (ledger : Ledger) {id : Nat} {updates : List OrderUpdate}
    (keyed : ∀ update ∈ updates, update.orderId = id) (phantom : ledger.owner id = none) :
    updates.foldl onOrderUpdate ledger =
      { ledger with totals := updates.foldl moveTotals ledger.totals } := by
  induction updates generalizing ledger with
  | nil => rfl
  | cons update rest ih =>
      have step : ledger.onOrderUpdate update =
          { ledger with totals := moveTotals ledger.totals update } := by
        unfold onOrderUpdate
        rw [keyed update List.mem_cons_self, phantom]
      rw [List.foldl_cons, List.foldl_cons, step]
      have tail := ih { ledger with totals := moveTotals ledger.totals update }
        (fun other member => keyed other (List.mem_cons_of_mem _ member)) phantom
      rw [tail]

theorem setEntry_phantom {id timestamp : Nat} {next : Option BookOrder}
    (keyed : ∀ order, ledger.entry id = some order → order.orderId = id)
    (keyedNext : ∀ order, next = some order → order.orderId = id)
    (phantom : ledger.owner id = none) :
    ledger.setEntry id next timestamp =
      { ledger.placeEntry id next timestamp with
        totals := (exchangeUpdates (ledger.entry id) next timestamp).foldl moveTotals
          ledger.totals } :=
  foldl_onOrderUpdate_phantom (ledger.placeEntry id next timestamp)
    (exchangeUpdates_orderId keyed keyedNext) phantom

theorem afterExecution_eq_some {order next : BookOrder} {executed : Int}
    (left : afterExecution order executed = some next) :
    executed ≠ order.quantity ∧ next = { order with quantity := order.quantity - executed } := by
  unfold afterExecution at left
  split at left
  · cases left
  · rename_i partly
    exact ⟨partly, (Option.some.inj left).symm⟩

namespace Represents

theorem setPhantom {id timestamp : Nat} {next : Option BookOrder} (inv : ledger.Represents hand)
    (phantom : ledger.owner id = none)
    (known : ∀ order, next = some order →
      order.orderId = id ∧ 0 < order.quantity ∧ ∃ before, ledger.entry id = some before) :
    (ledger.setEntry id next timestamp).Represents hand := by
  rw [setEntry_phantom (fun _ found => inv.indexed.entry_id found)
    (fun order isNext => (known order isNext).1) phantom]
  have indexed := inv.indexed.placeEntry id next timestamp
    (fun order isNext => ⟨(known order isNext).1, (known order isNext).2.2⟩)
  have agrees := inv.agrees.placeForeign inv.indexed next timestamp phantom
    (fun order isNext => (known order isNext).2.1)
  exact ⟨indexed.transport (fun _ => ⟨rfl, rfl, rfl⟩) rfl rfl rfl rfl rfl (fun _ => Iff.rfl)
      (fun _ _ found => ⟨indexed.entry_id found, _, found⟩) le_rfl rfl
      (fun _ held => indexed.resting_registered held),
    agrees.transport (fun _ => ⟨rfl, rfl, rfl, rfl, rfl, rfl, rfl, rfl⟩) rfl rfl le_rfl rfl rfl⟩

theorem addPhantom {order : BookOrder} {timestamp : Nat} (inv : ledger.Represents hand)
    (absent : ledger.entry order.orderId = none) (foreign : ¬ ledger.Owned order.orderId)
    (numbered : order.orderId < ledger.globals.nextOrderId) (positive : 0 < order.quantity) :
    (ledger.setEntry order.orderId (some order) timestamp).Represents hand := by
  have phantom : ledger.owner order.orderId = none := by
    cases ours : ledger.owner order.orderId with
    | none => rfl
    | some ref =>
        have owned := inv.indexed.registered_owned (inv.indexed.registered ours)
        rw [inv.indexed.owner_id ours] at owned
        exact absurd owned foreign
  rw [setEntry_phantom (by simp [absent]) (by rintro _ ⟨⟩; rfl) phantom]
  have indexed := inv.indexed.addEntry timestamp foreign numbered
  have agrees := inv.agrees.placeForeign inv.indexed (some order) timestamp
    phantom (by rintro _ ⟨⟩; exact positive)
  exact ⟨indexed.transport (fun _ => ⟨rfl, rfl, rfl⟩) rfl rfl rfl rfl rfl (fun _ => Iff.rfl)
      (fun _ _ found => ⟨indexed.entry_id found, _, found⟩) le_rfl rfl
      (fun _ held => indexed.resting_registered held),
    agrees.transport (fun _ => ⟨rfl, rfl, rfl, rfl, rfl, rfl, rfl, rfl⟩) rfl rfl le_rfl rfl rfl⟩

theorem publish {hand' : Hand} {write : OrderResponse → OrderResponse}
    (inv : ledger.Represents hand)
    (known : ∀ slot, (write slot).orderNum = 0 ∨ ledger.Owned (write slot).orderNum)
    (fresh : hand'.fresh = hand.fresh) (lagging : hand'.lagging = hand.lagging)
    (resting : ∀ ref, hand'.resting = some ref → hand.resting = some ref) :
    (ledger.publish env write).Represents hand' :=
  ⟨inv.indexed.publish known fresh resting,
    inv.agrees.transport (fun _ => ⟨rfl, rfl, rfl, rfl, rfl, rfl, rfl, rfl⟩) rfl rfl le_rfl lagging
      fresh⟩

theorem rewrite {change : Order → Order} (inv : ledger.Represents hand)
    (kept : (change (ledger.heap ref)).SameIdentity (ledger.heap ref))
    (data : SameData (change (ledger.heap ref)) (ledger.heap ref)) :
    (ledger.updateOrder ref change).Represents hand := by
  refine ⟨inv.indexed.updateOrder kept, inv.agrees.transport ?_ rfl rfl le_rfl rfl rfl⟩
  intro other
  by_cases same : other = ref
  · subst same
    rw [updateOrder_heap_self]
    exact data
  · rw [updateOrder_heap_of_ne change same]
    exact ⟨rfl, rfl, rfl, rfl, rfl, rfl, rfl, rfl⟩

theorem tick {globals : Globals} (inv : ledger.Represents hand) (later : ledger.globals.Le globals)
    (joins : List Nat) : { ledger with globals, joins }.Represents hand :=
  ⟨inv.indexed.transport (fun _ => ⟨rfl, rfl, rfl⟩) rfl rfl rfl rfl rfl (fun _ => Iff.rfl)
      (fun _ _ found => ⟨inv.indexed.entry_id found, _, found⟩) later.nextOrderId rfl
      (fun _ held => inv.indexed.resting_registered held),
    inv.agrees.transport (fun _ => ⟨rfl, rfl, rfl, rfl, rfl, rfl, rfl, rfl⟩) rfl rfl
      later.nextPriority rfl rfl⟩

/-- Orders other than one that is registered, or in hand and not registered, have other ids. -/
theorem distinct (inv : ledger.Represents hand)
    (involved : ledger.Registered ref ∨ hand.fresh = some ref) (other : Nat) (different : other ≠ ref)
    (registered : ledger.Registered other ∨ hand.lagging = some other) :
    (ledger.heap other).id ≠ (ledger.heap ref).id := by
  have otherIn : ledger.Registered other := by
    rcases registered with inside | lags
    · exact inside
    · apply inv.indexed.resting_registered
      cases hand <;> simp_all [Hand.lagging, Hand.resting]
  intro same
  rcases involved with inside | held
  · exact different (Indexed.ref_unique otherIn inside same)
  · rw [Registered, same, inv.indexed.fresh_unregistered held] at otherIn
    cases otherIn

theorem owned (inv : ledger.Represents hand) (ref : Nat)
    (involved : ledger.Registered ref ∨ hand.fresh = some ref) :
    ledger.Owned (ledger.heap ref).id :=
  involved.elim inv.indexed.registered_owned inv.indexed.fresh_owned

theorem changeOrder {hand' : Hand} {change : Order → Order} (inv : ledger.Represents hand)
    (involved : ledger.Registered ref ∨ hand.fresh = some ref)
    (kept : (change (ledger.heap ref)).SameIdentity (ledger.heap ref))
    (fresh : hand'.fresh = hand.fresh)
    (resting : ∀ other, hand'.resting = some other → hand.resting = some other)
    (lagging : ∀ other, other ≠ ref → (hand'.lagging = some other ↔ hand.lagging = some other))
    (self : (ledger.updateOrder ref change).AgreesAt hand' ref) :
    (ledger.updateOrder ref change).Represents hand' := by
  have identity := updateOrder_identity ledger kept
  refine ⟨inv.indexed.transport identity rfl rfl rfl rfl rfl (fun _ => Iff.rfl)
    (fun _ _ found => ⟨inv.indexed.entry_id found, _, found⟩) le_rfl fresh
    (fun _ held => inv.indexed.resting_registered (resting _ held)), ?_⟩
  refine inv.agrees.changeOne ref ?_ ?_ (inv.distinct involved) (fun _ _ => rfl) le_rfl
    lagging ?_ self (fun _ found => inv.agrees.positive found)
  · intro other different
    rw [updateOrder_heap_of_ne change different]
    exact ⟨rfl, rfl, rfl, rfl, rfl, rfl, rfl, rfl⟩
  · intro other different inside
    exact (registered_of_identity identity rfl).mp inside
  · intro other _ held
    rwa [fresh] at held

theorem changeResting (hand' : Hand) (change : Order → Order) (next : Option BookOrder)
    (timestamp : Nat) (inv : ledger.Represents hand) (inside : ledger.Registered ref)
    (kept : (change (ledger.heap ref)).SameIdentity (ledger.heap ref))
    (known : ∀ order, next = some order → order.orderId = (ledger.heap ref).id ∧
      0 < order.quantity ∧ ∃ before, ledger.entry (ledger.heap ref).id = some before)
    (fresh : hand'.fresh = hand.fresh)
    (resting : ∀ other, hand'.resting = some other → hand.resting = some other)
    (lagging : ∀ other, other ≠ ref → (hand'.lagging = some other ↔ hand.lagging = some other))
    (self : ((ledger.updateOrder ref change).placeEntry (ledger.heap ref).id next
      timestamp).AgreesAt hand' ref) :
    ((ledger.updateOrder ref change).placeEntry (ledger.heap ref).id next timestamp).Represents
      hand' := by
  have identity := updateOrder_identity ledger kept
  constructor
  · have changed := inv.indexed.updateOrder kept
    have placed := changed.placeEntry (ledger.heap ref).id next timestamp (fun order isNext =>
        ⟨(known order isNext).1, (known order isNext).2.2⟩)
    exact placed.transport (fun _ => ⟨rfl, rfl, rfl⟩) rfl rfl rfl rfl rfl (fun _ => Iff.rfl)
      (fun _ _ found => ⟨placed.entry_id found, _, found⟩) le_rfl fresh
      (fun _ held => placed.resting_registered (resting _ held))
  · refine inv.agrees.changeOne ref ?_ ?_ (inv.distinct (.inl inside))
      (fun _ different => placeEntry_entry_of_ne different) le_rfl lagging ?_ self ?_
    · intro other different
      show SameData ((ledger.updateOrder ref change).heap other) _
      rw [updateOrder_heap_of_ne change different]
      exact ⟨rfl, rfl, rfl, rfl, rfl, rfl, rfl, rfl⟩
    · intro other different otherIn
      exact (registered_of_identity identity rfl).mp otherIn
    · intro other _ held
      rwa [fresh] at held
    · intro order found
      rw [placeEntry_entry_self] at found
      exact (known order found).2.1

/-- Withdrawing a registered order whose entry is gone, whatever was written to it. -/
theorem discard (hand' : Hand) {gone : Ledger} (inv : ledger.Represents hand)
    (inside : ledger.Registered ref) (indexed : gone.Indexed hand)
    (identity : ∀ other, (gone.heap other).SameIdentity (ledger.heap other))
    (others : ∀ other, other ≠ ref → SameData (gone.heap other) (ledger.heap other))
    (owner : gone.owner = ledger.owner)
    (entry : gone.entry = Function.update ledger.entry (ledger.heap ref).id none)
    (bound : ledger.globals.nextPriority ≤ gone.globals.nextPriority)
    (fresh : hand'.fresh = hand.fresh)
    (apart : ∀ other, hand'.resting = some other → hand.resting = some other ∧ other ≠ ref)
    (lagging : ∀ other, other ≠ ref → (hand'.lagging = some other ↔ hand.lagging = some other))
    (caughtUp : hand'.lagging ≠ some ref) :
    ((gone.unregisterOrder ref).freeOrder ref).Represents hand' := by
  have goneIn : gone.Registered ref := (registered_of_identity identity owner).mpr inside
  have absent : gone.entry (gone.heap ref).id = none := by
    rw [(identity ref).id, entry, Function.update_self]
  have registered : ∀ {other}, ((gone.unregisterOrder ref).freeOrder ref).Registered other ↔
      gone.Registered other ∧ other ≠ ref :=
    Indexed.unregisterOrder_registered goneIn
  have unheld : hand'.fresh ≠ some ref := by
    intro held
    rw [fresh] at held
    rw [Registered, inv.indexed.fresh_unregistered held] at inside
    cases inside
  refine ⟨indexed.discard goneIn absent fresh apart, ?_⟩
  refine inv.agrees.changeOne ref others ?_ (inv.distinct (.inl inside)) ?_ bound lagging ?_
    ?_ ?_
  · intro other _ otherIn
    exact (registered_of_identity identity owner).mp (registered.mp otherIn).1
  · intro id different
    show gone.entry id = ledger.entry id
    rw [entry, Function.update_of_ne different]
  · intro other _ held
    rwa [fresh] at held
  · exact {
      rests := fun selfIn => absurd rfl (registered.mp selfIn).2
      lags := fun lags => absurd lags caughtUp
      filled_nonneg := by
        rintro (selfIn | held)
        · exact absurd rfl (registered.mp selfIn).2
        · exact absurd held unheld
      durable := fun selfIn => absurd rfl (registered.mp selfIn).2
      ranked := fun selfIn => absurd rfl (registered.mp selfIn).2
      whole := fun held => absurd held unheld }
  · intro order found
    have found : gone.entry (ledger.heap ref).id = some order := found
    rw [entry, Function.update_self] at found
    cases found

/-- A registered order is written to, its entry withdrawn, the report on it published,
and the order discarded. -/
theorem withdraw (change : Order → Order) {write : OrderResponse → OrderResponse} {timestamp : Nat}
    (inv : ledger.Represents hand) (inside : ledger.Registered ref) (apart : hand.resting ≠ some ref)
    (kept : (change (ledger.heap ref)).SameIdentity (ledger.heap ref))
    (reported : ∀ slot, (write slot).orderNum = (ledger.heap ref).id) :
    (((((ledger.updateOrder ref change).placeEntry (ledger.heap ref).id none
      timestamp).unregisterOrder ref).publish env write).freeOrder ref).Represents hand := by
  have placed := (inv.indexed.updateOrder kept).placeEntry (ledger.heap ref).id none timestamp
    (by rintro _ ⟨⟩)
  have published : (((ledger.updateOrder ref change).placeEntry (ledger.heap ref).id none
      timestamp).publish env write).Indexed hand := placed.publish
    (fun slot => .inr (by rw [reported slot]; exact inv.indexed.registered_owned inside)) rfl
    (fun _ held => held)
  have discarded := inv.discard hand inside published (updateOrder_identity ledger kept)
    (fun other different => by
      show SameData ((ledger.updateOrder ref change).heap other) _
      rw [updateOrder_heap_of_ne change different]
      exact ⟨rfl, rfl, rfl, rfl, rfl, rfl, rfl, rfl⟩)
    rfl rfl le_rfl rfl (fun other held => ⟨held, fun same => apart (same ▸ held)⟩)
    (fun _ _ => Iff.rfl) (fun lags => apart (by
      cases hand <;> simp_all [Hand.lagging, Hand.resting]))
  exact discarded

theorem lagging_ne (apart : hand.resting ≠ some ref) : hand.lagging ≠ some ref := by
  cases hand <;> simp_all [Hand.lagging, Hand.resting]

/-- What rests under the id of an order of ours is that order. -/
theorem resting_eq {id : Nat} {resting : BookOrder} (inv : ledger.Represents hand)
    (rests : ledger.entry id = some resting) (ours : ledger.owner id = some ref)
    (apart : hand.resting ≠ some ref) :
    resting = ledger.entryOf ref ∧ id = (ledger.heap ref).id ∧
      0 < (ledger.heap ref).leavesQuantity ∧ (ledger.heap ref).quantity =
        (ledger.heap ref).leavesQuantity + (ledger.heap ref).cumQuantity := by
  have same := inv.indexed.owner_id ours
  obtain ⟨found, left, whole⟩ := (inv.agrees.at_ ref).rests (inv.indexed.registered ours)
    (lagging_ne apart)
  rw [same, rests] at found
  exact ⟨Option.some.inj found, same.symm, left, whole⟩

theorem fillPartly {resting : BookOrder} {qty : Int} {timestamp : Nat}
    (inv : ledger.Represents hand) (rests : ledger.entry resting.orderId = some resting)
    (ours : ledger.owner resting.orderId = some ref) (apart : hand.resting ≠ some ref)
    (positive : 0 < qty) (within : qty < resting.quantity) :
    (ledger.fillPartly env ref resting qty timestamp).Represents hand := by
  have inside := inv.indexed.registered ours
  obtain ⟨rfl, -, left, whole⟩ := inv.resting_eq rests ours apart
  have before := inv.agrees.at_ ref
  have nonneg := before.filled_nonneg (.inl inside)
  change qty < (ledger.heap ref).leavesQuantity at within
  have filled := inv.changeResting hand (fun order => order.execute order.price qty timestamp)
    (some { ledger.entryOf ref with quantity := (ledger.entryOf ref).quantity - qty }) timestamp inside
    ⟨rfl, rfl, rfl⟩
    (by
      rintro _ ⟨⟩
      refine ⟨rfl, ?_, _, rests⟩
      show 0 < (ledger.heap ref).leavesQuantity - qty
      omega)
    rfl (fun _ held => held) (fun _ _ => Iff.rfl)
    { rests := by
        intro _ _
        simp only [entryOf, placeEntry, updateOrder, Function.update_self, Order.execute_id,
          Order.execute_leaves, Order.execute_quantity, Order.execute_cum]
        exact ⟨rfl, by omega, by omega⟩
      lags := fun lags => absurd lags (lagging_ne apart)
      filled_nonneg := by
        intro _
        simp only [placeEntry, updateOrder, Function.update_self, Order.execute_cum]
        omega
      durable := by
        intro _
        simp only [placeEntry, updateOrder, Function.update_self, Order.execute_timeInForce]
        exact before.durable inside
      ranked := by
        intro _
        simp only [placeEntry, updateOrder, Function.update_self, Order.execute_priority]
        exact before.ranked inside
      whole := by
        intro held
        rw [Registered, inv.indexed.fresh_unregistered held] at inside
        cases inside }
  have stillIn : (ledger.updateOrder ref fun order =>
      order.execute order.price qty timestamp).Registered ref :=
    (registered_of_identity (updateOrder_identity ledger ⟨rfl, rfl, rfl⟩) rfl).mpr inside
  unfold Ledger.fillPartly
  exact Represents.publish filled (fun slot => .inr (filled.owned ref (.inl stillIn))) rfl rfl
    (fun _ held => held)

theorem fillFully {resting : BookOrder} {timestamp : Nat} (inv : ledger.Represents hand)
    (rests : ledger.entry resting.orderId = some resting)
    (ours : ledger.owner resting.orderId = some ref) (apart : hand.resting ≠ some ref) :
    (ledger.fillFully env ref resting timestamp).Represents hand := by
  have inside := inv.indexed.registered ours
  obtain ⟨rfl, -, -, -⟩ := inv.resting_eq rests ours apart
  refine inv.withdraw _ inside apart ⟨rfl, rfl, rfl⟩ ?_
  intro slot
  simp [Ledger.placeEntry]

theorem cancelOrder {timestamp requestTime : Nat} (inv : ledger.Represents hand)
    (inside : ledger.Registered ref) (apart : hand.resting ≠ some ref) :
    (ledger.cancelOrder env ref timestamp requestTime).Represents hand := by
  refine inv.withdraw Order.withoutLeaves inside apart ⟨rfl, rfl, rfl⟩ ?_
  intro slot
  rw [OrderResponse.writeCancel_orderNum, updateOrder_heap_self]
  rfl

theorem execute {timestamp : Nat} {price qty : Int} (inv : ledger.Represents hand)
    (held : hand.aggressor = some ref) (positive : 0 < qty)
    (within : qty ≤ (ledger.heap ref).leavesQuantity) :
    (ledger.updateOrder ref fun order => order.execute price qty timestamp).Represents hand := by
  have before := inv.agrees.at_ ref
  cases hand with
  | working aggressor =>
      cases held
      have nonneg := before.filled_nonneg (.inr rfl)
      have whole := before.whole rfl
      have outside : ¬ (ledger.updateOrder ref fun order =>
          order.execute price qty timestamp).Registered ref := by
        intro inside
        rw [registered_of_identity (updateOrder_identity ledger ⟨rfl, rfl, rfl⟩) rfl, Registered,
          inv.indexed.fresh_unregistered rfl] at inside
        cases inside
      refine inv.changeOrder (.inr rfl) ⟨rfl, rfl, rfl⟩ rfl (fun _ held => held)
        (fun _ _ => Iff.rfl) ?_
      exact {
        rests := fun inside => absurd inside outside
        lags := by rintro ⟨⟩
        filled_nonneg := by
          intro _
          rw [updateOrder_heap_self, Order.execute_cum]
          omega
        durable := fun inside => absurd inside outside
        ranked := fun inside => absurd inside outside
        whole := by
          intro _
          rw [updateOrder_heap_self, Order.execute_cum, Order.execute_leaves,
            Order.execute_quantity]
          omega }
  | amended aggressor =>
      cases held
      have inside : ledger.Registered ref := inv.indexed.resting_registered rfl
      have nonneg := before.filled_nonneg (.inl inside)
      obtain ⟨resting, left, whole⟩ := before.lags rfl
      refine inv.changeOrder (.inl inside) ⟨rfl, rfl, rfl⟩ rfl (fun _ held => held)
        (fun _ _ => Iff.rfl) ?_
      exact {
        rests := fun _ caughtUp => absurd rfl caughtUp
        lags := by
          intro _
          rw [updateOrder_heap_self, Order.execute_cum, Order.execute_leaves,
            Order.execute_quantity, Order.execute_id, Order.execute_side]
          exact ⟨resting, by omega, by omega⟩
        filled_nonneg := by
          intro _
          rw [updateOrder_heap_self, Order.execute_cum]
          omega
        durable := by
          intro _
          rw [updateOrder_heap_self, Order.execute_timeInForce]
          exact before.durable inside
        ranked := by
          intro _
          rw [updateOrder_heap_self, Order.execute_priority]
          exact before.ranked inside
        whole := by rintro ⟨⟩ }
  | none => cases held
  | pending _ => cases held
  | refused _ => cases held
  | done _ => cases held
  | amending _ => cases held
  | emptied _ => cases held
  | closing _ => cases held
  | cancelling _ => cases held

theorem involved_of_aggressor (inv : ledger.Represents hand) (held : hand.aggressor = some ref) :
    ledger.Registered ref ∨ hand.fresh = some ref := by
  cases hand <;> cases held
  · exact .inr rfl
  · exact .inl (inv.indexed.resting_registered rfl)

theorem freeFresh (inv : ledger.Represents hand) (held : hand.fresh = some ref)
    (upToDate : hand.lagging = none) : (ledger.freeOrder ref).Represents .none := by
  refine ⟨inv.indexed.freeFresh held, ?_, fun found => inv.agrees.positive found⟩
  intro other
  exact (inv.agrees.at_ other).transport ⟨rfl, rfl, rfl, rfl, rfl, rfl, rfl, rfl⟩ (fun h => h) rfl
    le_rfl (by rw [upToDate]; exact Iff.rfl) (by rintro ⟨⟩)

theorem rest {globals : Globals} {timestamp : Nat} (inv : ledger.Represents (.working ref))
    (later : ledger.globals.Le globals) (drawn : ledger.globals.nextPriority < globals.nextPriority)
    (left : 0 < (ledger.heap ref).leavesQuantity)
    (restable : (ledger.heap ref).restsRemainder = true) {ranked : Ledger}
    (isRanked : ranked = { ledger with globals }.updateOrder ref
      (Order.withPriority globals.nextPriority)) :
    ((ranked.registerOrder ref).placeEntry (ledger.heap ref).id (some (ranked.entryOf ref))
      timestamp).Represents .none := by
  have before := inv.agrees.at_ ref
  have self : ranked.heap ref = (ledger.heap ref).withPriority globals.nextPriority := by
    rw [isRanked]
    exact updateOrder_heap_self _
  have others : ∀ other, other ≠ ref → ranked.heap other = ledger.heap other := by
    intro other different
    rw [isRanked]
    exact updateOrder_heap_of_ne _ different
  have rankedIndexed : ranked.Indexed (.working ref) := by
    rw [isRanked]
    exact Indexed.updateOrder (inv.tick later ledger.joins).indexed ⟨rfl, rfl, rfl⟩
  have sameId : (ranked.heap ref).id = (ledger.heap ref).id := by rw [self]; rfl
  have absent : ranked.owner (ranked.heap ref).id = none := rankedIndexed.fresh_unregistered rfl
  rw [← sameId]
  refine ⟨rankedIndexed.register rfl, ?_⟩
  have registered : ∀ {other}, ((ranked.registerOrder ref).placeEntry (ranked.heap ref).id
      (some (ranked.entryOf ref)) timestamp).Registered other ↔
      ranked.Registered other ∨ other = ref :=
    Indexed.registerOrder_registered absent
  refine inv.agrees.changeOne ref ?_ ?_ (inv.distinct (.inr rfl)) ?_ ?_ (fun _ _ => Iff.rfl)
    (by rintro _ _ ⟨⟩) ?_ ?_
  · intro other different
    show SameData (ranked.heap other) _
    rw [others other different]
    exact ⟨rfl, rfl, rfl, rfl, rfl, rfl, rfl, rfl⟩
  · intro other different inside
    rcases registered.mp inside with rankedIn | same
    · rw [Registered, others other different, isRanked] at rankedIn
      exact rankedIn
    · exact absurd same different
  · intro id different
    rw [← sameId] at different
    rw [placeEntry_entry_of_ne different, isRanked]
    rfl
  · rw [isRanked]
    exact later.nextPriority
  · have heapSame : ((ranked.registerOrder ref).placeEntry (ranked.heap ref).id
        (some (ranked.entryOf ref)) timestamp).heap ref = ranked.heap ref := rfl
    have priorities : globals.nextPriority ≤ ranked.globals.nextPriority := by
      rw [isRanked]
      exact le_rfl
    exact {
      rests := by
        intro _ _
        rw [heapSame, placeEntry_entry_self]
        refine ⟨rfl, ?_, ?_⟩
        · rw [self]
          exact left
        · rw [self]
          exact before.whole rfl
      lags := by rintro ⟨⟩
      filled_nonneg := by
        intro _
        rw [heapSame, self]
        exact before.filled_nonneg (.inr rfl)
      durable := by
        intro _
        rw [heapSame, self]
        unfold Order.restsRemainder at restable
        simp only [Bool.and_eq_true] at restable
        exact restable.2
      ranked := by
        intro _
        rw [heapSame, self]
        exact ⟨Nat.lt_of_le_of_lt (Nat.zero_le _) drawn, priorities⟩
      whole := by rintro ⟨⟩ }
  · intro resting found
    rw [← sameId, placeEntry_entry_self] at found
    cases found
    show 0 < (ranked.heap ref).leavesQuantity
    rw [self]
    exact left

theorem replace {newPrice newQty : Int} (inv : ledger.Represents (.amending ref)) :
    (ledger.updateOrder ref (Order.replace newPrice newQty)).Represents (.amended ref) := by
  have inside : ledger.Registered ref := inv.indexed.resting_registered rfl
  have before := inv.agrees.at_ ref
  obtain ⟨found, -, -⟩ := before.rests inside (by rintro ⟨⟩)
  refine inv.changeOrder (.inl inside) ⟨rfl, rfl, rfl⟩ rfl (fun _ held => held) ?_ ?_
  · intro other different
    constructor
    · rintro ⟨⟩
      exact absurd rfl different
    · rintro ⟨⟩
  · exact {
      rests := fun _ caughtUp => absurd rfl caughtUp
      lags := by
        intro _
        rw [updateOrder_heap_self]
        refine ⟨⟨_, found, rfl⟩, ?_, ?_⟩
        · simp only [Order.replace]
          split <;> omega
        · simp only [Order.replace]
          split <;> omega
      filled_nonneg := by
        intro _
        rw [updateOrder_heap_self]
        exact before.filled_nonneg (.inl inside)
      durable := by
        intro _
        rw [updateOrder_heap_self]
        exact before.durable inside
      ranked := by
        intro _
        rw [updateOrder_heap_self]
        exact before.ranked inside
      whole := by rintro ⟨⟩ }

theorem amendRests {globals : Globals} {priority timestamp : Nat} {joined : List Nat}
    (inv : ledger.Represents hand)
    (held : hand = .amended ref ∨ hand = .closing ref) (later : ledger.globals.Le globals)
    (left : 0 < (ledger.heap ref).leavesQuantity) {ranked : Ledger}
    (isRanked : ranked = { ledger with globals, joins := ledger.joins ++ joined }.updateOrder ref
      (Order.withPriority priority))
    (place : priority = (ledger.heap ref).priority ∨
      ledger.globals.nextPriority < globals.nextPriority ∧ priority = globals.nextPriority) :
    (ranked.placeEntry (ledger.heap ref).id (some (ranked.entryOf ref)) timestamp).Represents
      .none := by
  have lags : hand.lagging = some ref := by rcases held with rfl | rfl <;> rfl
  have inside : ledger.Registered ref := by
    apply inv.indexed.resting_registered
    rcases held with rfl | rfl <;> rfl
  have noFresh : hand.fresh = none := by rcases held with rfl | rfl <;> rfl
  have before := inv.agrees.at_ ref
  obtain ⟨⟨resting, found, -⟩, -, whole⟩ := before.lags lags
  obtain ⟨somePriority, bounded⟩ := before.ranked inside
  have self : ranked.heap ref = (ledger.heap ref).withPriority priority := by
    rw [isRanked]
    exact updateOrder_heap_self _
  have entryIs : ranked.entryOf ref = ((ledger.heap ref).withPriority priority).bookEntry := by
    rw [entryOf, self]
  rw [entryIs, isRanked]
  refine (inv.tick later (ledger.joins ++ joined)).changeResting .none
    (Order.withPriority priority) _ timestamp inside ⟨rfl, rfl, rfl⟩ ?_ noFresh.symm (by rintro _ ⟨⟩) ?_ ?_
  · rintro _ ⟨⟩
    exact ⟨rfl, left, resting, found⟩
  · intro other different
    rw [lags]
    constructor
    · rintro ⟨⟩
    · rintro ⟨⟩
      exact absurd rfl different
  · rw [← isRanked]
    have heapSame : (ranked.placeEntry (ledger.heap ref).id
        (some ((ledger.heap ref).withPriority priority).bookEntry) timestamp).heap ref =
        (ledger.heap ref).withPriority priority := self
    have priorities : ranked.globals.nextPriority = globals.nextPriority := by rw [isRanked]; rfl
    exact {
      rests := by
        intro _ _
        rw [entryOf, heapSame]
        exact ⟨placeEntry_entry_self, left, whole left⟩
      lags := by rintro ⟨⟩
      filled_nonneg := by
        intro _
        rw [heapSame]
        exact before.filled_nonneg (.inl inside)
      durable := by
        intro _
        rw [heapSame]
        exact before.durable inside
      ranked := by
        intro _
        rw [heapSame]
        show 0 < priority ∧ priority ≤ ranked.globals.nextPriority
        have := later.nextPriority
        omega
      whole := by rintro ⟨⟩ }

theorem amendGone {globals : Globals} {priority timestamp : Nat} {joined : List Nat}
    (inv : ledger.Represents hand)
    (held : hand = .amended ref ∨ hand = .closing ref) (later : ledger.globals.Le globals)
    {ranked : Ledger}
    (isRanked : ranked = { ledger with globals, joins := ledger.joins ++ joined }.updateOrder ref
      (Order.withPriority priority)) :
    (((ranked.placeEntry (ledger.heap ref).id none timestamp).unregisterOrder ref).freeOrder
      ref).Represents .none := by
  have inside : ledger.Registered ref := by
    apply inv.indexed.resting_registered
    rcases held with rfl | rfl <;> rfl
  have lags : hand.lagging = some ref := by rcases held with rfl | rfl <;> rfl
  have noFresh : hand.fresh = none := by rcases held with rfl | rfl <;> rfl
  have indexed : ranked.Indexed hand := by
    rw [isRanked]
    exact (inv.tick later (ledger.joins ++ joined)).indexed.updateOrder ⟨rfl, rfl, rfl⟩
  have identity : ∀ other, (ranked.heap other).SameIdentity (ledger.heap other) := by
    rw [isRanked]
    exact updateOrder_identity { ledger with globals, joins := ledger.joins ++ joined } ⟨rfl, rfl, rfl⟩
  have others : ∀ other, other ≠ ref → SameData (ranked.heap other) (ledger.heap other) := by
    intro other different
    rw [isRanked, updateOrder_heap_of_ne _ different]
    exact ⟨rfl, rfl, rfl, rfl, rfl, rfl, rfl, rfl⟩
  refine inv.discard .none inside (indexed.placeEntry _ none timestamp (by rintro _ ⟨⟩))
    identity others (by rw [isRanked]; rfl) (by rw [isRanked]; rfl) ?_ noFresh.symm
    (by rintro _ ⟨⟩) ?_ (by rintro ⟨⟩)
  · rw [isRanked]
    exact later.nextPriority
  · intro other different
    rw [lags]
    constructor
    · rintro ⟨⟩
    · rintro ⟨⟩
      exact absurd rfl different

theorem clearMD (inv : ledger.Represents .none) (trail : List OrderUpdate) :
    { ledger with
      entry := fun id => if (ledger.owner id).isSome then ledger.entry id else none
      totals := fun _ => none
      trail }.Represents .none := by
  have kept : ∀ {id resting}, (if (ledger.owner id).isSome then ledger.entry id else none) =
      some resting → ledger.entry id = some resting := by
    intro id resting found
    split at found
    · exact found
    · cases found
  constructor
  · exact inv.indexed.transport (fun _ => ⟨rfl, rfl, rfl⟩) rfl rfl rfl rfl rfl (fun _ => Iff.rfl)
      (fun _ _ found => ⟨inv.indexed.entry_id (kept found), _, kept found⟩) le_rfl rfl
      (by rintro _ ⟨⟩)
  · refine ⟨?_, fun found => inv.agrees.positive (kept found)⟩
    intro ref
    have before := inv.agrees.at_ ref
    exact {
      rests := by
        intro inside caughtUp
        have ours : ledger.owner (ledger.heap ref).id = some ref := inside
        have same : (if (ledger.owner (ledger.heap ref).id).isSome then
            ledger.entry (ledger.heap ref).id else none) = ledger.entry (ledger.heap ref).id := by
          rw [ours]
          rfl
        have := before.rests inside caughtUp
        rw [← same] at this
        exact this
      lags := by rintro ⟨⟩
      filled_nonneg := before.filled_nonneg
      durable := before.durable
      ranked := before.ranked
      whole := by rintro ⟨⟩ }

theorem accept {requestTime : Nat} {order : Order} {globals : Globals}
    (inv : ledger.Represents .none) (unused : ref ∉ ledger.live)
    (numbered : order.id = ledger.globals.nextOrderId) (later : ledger.globals.Le globals)
    (drawn : ledger.globals.nextOrderId < globals.nextOrderId)
    (clientFree : order.clientOrderId.isEmpty = false → ledger.byClient order.clientOrderId = none)
    (named : order.orderId.isEmpty = false) (orderFree : ledger.byOrder order.orderId = none)
    (whole : order.leavesQuantity = order.quantity) (unfilled : order.cumQuantity = 0) :
    ({ ledger with
        heap := Function.update ledger.heap ref order
        live := ref :: ledger.live
        globals }.publish env fun slot => slot.writeNewPending order requestTime).Represents
      (.pending ref) := by
  refine ⟨inv.indexed.accept unused numbered later drawn clientFree named orderFree, ?_,
    fun found => inv.agrees.positive found⟩
  set after := { ledger with
    heap := Function.update ledger.heap ref order
    live := ref :: ledger.live
    globals }.publish env fun slot => slot.writeNewPending order requestTime with isAfter
  intro other
  have before := inv.agrees.at_ other
  by_cases same : other = ref
  · subst same
    have heapSelf : after.heap other = order := Function.update_self ..
    have outside : ¬ after.Registered other := by
      intro inside
      rw [Registered, heapSelf] at inside
      exact unused (inv.indexed.live_iff.mpr (.inl (inv.indexed.registered inside)))
    exact {
      rests := fun inside => absurd inside outside
      lags := by rintro ⟨⟩
      filled_nonneg := by
        intro _
        rw [heapSelf]
        omega
      durable := fun inside => absurd inside outside
      ranked := fun inside => absurd inside outside
      whole := by
        intro _
        rw [heapSelf]
        omega }
  · have heapOther : after.heap other = ledger.heap other := Function.update_of_ne same ..
    refine before.transport ?_ ?_ rfl later.nextPriority Iff.rfl ?_
    · rw [heapOther]
      exact ⟨rfl, rfl, rfl, rfl, rfl, rfl, rfl, rfl⟩
    · intro inside
      rw [Registered, heapOther] at inside
      exact inside
    · rintro ⟨⟩
      exact absurd rfl same

theorem touch {status : OrderStatus} {lastUpdateTime requestTag : Nat}
    (inv : ledger.Represents hand) :
    (ledger.updateOrder ref (Order.touch status lastUpdateTime requestTag)).Represents hand :=
  inv.rewrite ⟨rfl, rfl, rfl⟩ ⟨rfl, rfl, rfl, rfl, rfl, rfl, rfl, rfl⟩

theorem rehand {hand' : Hand} (inv : ledger.Represents hand) (fresh : hand'.fresh = hand.fresh)
    (lagging : hand'.lagging = hand.lagging)
    (resting : ∀ ref, hand'.resting = some ref → ledger.Registered ref) : ledger.Represents hand' :=
  ⟨inv.indexed.transport (fun _ => ⟨rfl, rfl, rfl⟩) rfl rfl rfl rfl rfl (fun _ => Iff.rfl)
      (fun _ _ found => ⟨inv.indexed.entry_id found, _, found⟩) le_rfl fresh resting,
    inv.agrees.transport (fun _ => ⟨rfl, rfl, rfl, rfl, rfl, rfl, rfl, rfl⟩) rfl rfl le_rfl lagging fresh⟩

/-- A resting order is taken in hand for an amendment or a cancel. -/
theorem takeInHand (inv : ledger.Represents .none) (inside : ledger.Registered ref) :
    ledger.Represents (.amending ref) ∧ ledger.Represents (.cancelling ref) := by
  constructor
  all_goals
    refine inv.rehand rfl rfl ?_
    rintro _ ⟨⟩
    exact inside

/-- A refused amendment leaves the order where it was. -/
theorem putBack (inv : ledger.Represents (.amending ref)) : ledger.Represents .none :=
  inv.rehand rfl rfl (by rintro _ ⟨⟩)

theorem cancelling_sweep (inv : ledger.Represents (.cancelling ref)) (timestamp requestTime : Nat) :
    ledger.Represents .none ∧ Sweep env .none (toBookSide (ledger.heap ref).side) ledger
      (ledger.cancelOrder env ref timestamp requestTime) := by
  have inside := inv.indexed.resting_registered (show (Hand.cancelling ref).resting = some ref from rfl)
  obtain ⟨rests, -⟩ := (inv.agrees.at_ ref).rests inside (by rintro ⟨⟩)
  exact ⟨inv.rehand rfl rfl (by rintro _ ⟨⟩),
    .cancelOwn (show ledger.entry (ledger.entryOf ref).orderId = some _ from rests) rfl inside (by rintro ⟨⟩)⟩

theorem report {hand' : Hand} {write : OrderResponse → OrderResponse}
    (inv : ledger.Represents hand) (involved : ledger.Registered ref ∨ hand.fresh = some ref)
    (reported : ∀ slot, (write slot).orderNum = (ledger.heap ref).id)
    (fresh : hand'.fresh = hand.fresh) (lagging : hand'.lagging = hand.lagging)
    (resting : ∀ ref, hand'.resting = some ref → hand.resting = some ref) :
    (ledger.publish env write).Represents hand' :=
  inv.publish (fun slot => .inr (by rw [reported slot]; exact inv.owned ref involved)) fresh lagging
    resting

theorem mark {status : OrderStatus} {lastUpdateTime requestTag : Nat}
    {write : OrderResponse → OrderResponse} (inv : ledger.Represents hand)
    (inside : ledger.Registered ref)
    (reported : ∀ slot, (write slot).orderNum = (ledger.heap ref).id) :
    ((ledger.updateOrder ref (Order.touch status lastUpdateTime requestTag)).publish env
      write).Represents hand := by
  have stillIn : (ledger.updateOrder ref (Order.touch status lastUpdateTime requestTag)).Registered
      ref := (registered_of_identity (updateOrder_identity ledger ⟨rfl, rfl, rfl⟩) rfl).mpr inside
  refine inv.touch.report (.inl stillIn) ?_ rfl rfl (fun _ held => held)
  intro slot
  rw [reported slot, updateOrder_heap_self]
  rfl

end Represents

end Ledger

open Ledger

theorem Sweep.represents {env : Environment} {hand : Hand} {side : BookSide} {before after : Ledger}
    (step : Sweep env hand side before after) (inv : before.Represents hand) :
    after.Represents hand := by
  cases step with
  | tick later => exact inv.tick later _
  | hitPhantom rests swept phantom positive within =>
      refine inv.setPhantom phantom ?_
      intro order left
      obtain ⟨partly, rfl⟩ := afterExecution_eq_some left
      exact ⟨rfl, by dsimp only; omega, _, rests⟩
  | hitPartly rests swept ours apart positive within =>
      exact inv.fillPartly rests ours apart positive within
  | hitFully rests swept ours apart => exact inv.fillFully rests ours apart
  | cancelOwn rests swept ours apart =>
      exact inv.cancelOrder (inv.indexed.registered ours) apart
  | aggress held positive within =>
      refine (inv.execute held positive within).report
        ((inv.execute held positive within).involved_of_aggressor held) ?_ rfl rfl (fun _ h => h)
      intro slot
      rw [updateOrder_heap_self]
      rfl

theorem Micro.represents {env : Environment} {permit : Permit} {before after : Hand × Ledger}
    (step : Micro env permit before after) (inv : before.2.Represents before.1) :
    after.2.Represents after.1 := by
  obtain ⟨hand, ledger⟩ := before
  obtain ⟨hand', ledger'⟩ := after
  dsimp only at inv ⊢
  cases step with
  | sweep swept => exact swept.represents inv
  | reject permitted => exact inv.publish (by intro _; exact .inl rfl) rfl rfl (fun _ held => held)
  | touch => exact inv.touch
  | accept unused numbered later drawn clientFree named orderFree whole unfilled unpriced permitted =>
      exact inv.accept unused numbered later drawn clientFree named orderFree whole unfilled
  | ack => exact inv.report (.inr rfl) (by intro _; rfl) rfl rfl (by rintro _ ⟨⟩)
  | refuse permitted => exact (inv.freeFresh rfl rfl).rehand rfl rfl (by rintro _ ⟨⟩)
  | rejectRefused permitted => exact inv.publish (by intro _; exact .inl rfl) rfl rfl (by rintro _ ⟨⟩)
  | cancelHand unrestable unfinished => exact inv.report (.inr rfl) (by intro _; rfl) rfl rfl (by rintro _ ⟨⟩)
  | dropDone => exact inv.freeFresh rfl rfl
  | dropFilled filled traded => exact inv.freeFresh rfl rfl
  | rest later drawn left restable clear isRanked permitted =>
      exact inv.rest later drawn left restable isRanked
  | startAmend registered permitted isMarked =>
      subst isMarked
      refine (inv.takeInHand registered).1.mark registered ?_
      intro slot
      rw [OrderResponse.writeReplacePending_orderNum, updateOrder_heap_self]
      rfl
  | abortAmend permitted => exact inv.putBack
  | replace permitted isReplaced =>
      subst isReplaced
      refine inv.replace.report (.inl (inv.replace.indexed.resting_registered rfl)) (by intro _; rfl)
        (Hand.replaced_fresh ..) (Hand.replaced_lagging ..) ?_
      intro ref held
      rwa [Hand.replaced_resting] at held
  | cancelAmended unrestable =>
      rcases unrestable with rfl | ⟨rfl, -⟩
      · exact inv.report (.inl (inv.indexed.resting_registered rfl)) (by intro _; rfl) rfl rfl
          (fun _ held => held)
      · exact inv.report (.inl (inv.indexed.resting_registered rfl)) (by intro _; rfl) rfl rfl
          (fun _ held => held)
  | amendRests held later left clear isRanked place permitted =>
      refine inv.amendRests held later left isRanked ?_
      rcases place with ⟨same, _⟩ | ⟨drawn, same, _⟩
      · exact .inl same
      · exact .inr ⟨drawn, same⟩
  | amendGone held later filled mine isRanked => exact inv.amendGone held later isRanked
  | startCancel registered permitted isMarked =>
      subst isMarked
      refine (inv.takeInHand registered).2.mark registered ?_
      intro slot
      rw [OrderResponse.writeCancelPending_orderNum, updateOrder_heap_self]
      rfl
  | finishCancel =>
      obtain ⟨idle, swept⟩ := inv.cancelling_sweep _ _
      exact swept.represents idle
  | addPhantom absent foreign numbered positive clear permitted =>
      exact inv.addPhantom absent foreign numbered positive
  | resizePhantom rests phantom positive within ranked =>
      refine inv.setPhantom phantom ?_
      rintro _ ⟨⟩
      exact ⟨rfl, positive, _, rests⟩
  | movePhantom rests phantom positive sameId sameSide permitted =>
      refine inv.setPhantom phantom ?_
      rintro _ ⟨⟩
      exact ⟨sameId, positive, _, rests⟩
  | dropPhantom rests phantom => exact inv.setPhantom phantom (by rintro _ ⟨⟩)
  | clearMD => exact inv.clearMD _

/-- What rests under an id no client was given is a phantom order. -/
theorem Ledger.owner_eq_none_of_not_owned {ledger : Ledger} {hand : Hand} {id : Nat}
    (inv : ledger.Represents hand) (foreign : ¬ ledger.Owned id) : ledger.owner id = none := by
  cases ours : ledger.owner id with
  | none => rfl
  | some ref =>
      have owned := inv.indexed.registered_owned (inv.indexed.registered ours)
      rw [inv.indexed.owner_id ours] at owned
      exact absurd owned foreign

theorem Micros.represents {env : Environment} {permit : Permit} {before after : Hand × Ledger}
    (run : Micros env permit before after) (inv : before.2.Represents before.1) :
    after.2.Represents after.1 := by
  induction run with
  | refl => exact inv
  | tail _ step ih => exact step.represents ih

end SlickSim
