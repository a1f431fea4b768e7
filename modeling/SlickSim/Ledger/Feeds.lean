import SlickSim.Venues.Coinbase
import SlickSim.Venues.Hyperliquid
import SlickSim.Ledger.Requests

/-!
# Feed operations are runs of the ledger machine

Phantom liquidity rests, shrinks and is swept. What a permit must allow of an
order that joins a level is asked for the book as it stands before the row that
brings it.
-/

set_option autoImplicit false

namespace SlickSim

open OrderBookL3 (Regresses restingOrders)
open MatchingEngine (sweptSide)

/-- What a feed operation leaves: a run with an empty hand, and a book that still
takes the sequence it was stamped with. -/
structure MatchState.FeedRun {β : Type} [OrderBookL3 β] (env : Environment) (permit : Permit)
    (seqNum : Nat) (before after : MatchState β) : Prop where
  micros : Micros env permit (.none, before.ledger) (.none, after.ledger)
  current : ¬ Regresses after.book.l3 seqNum

namespace MatchState.FeedRun

variable {β : Type} [OrderBookL3 β] {env : Environment} {permit : Permit} {seqNum : Nat}
  {first second third : MatchState β}

theorem refl (current : ¬ Regresses first.book.l3 seqNum) : first.FeedRun env permit seqNum first :=
  ⟨.refl, current⟩

theorem trans (left : first.FeedRun env permit seqNum second)
    (right : second.FeedRun env permit seqNum third) : first.FeedRun env permit seqNum third :=
  ⟨left.micros.trans right.micros, right.current⟩

theorem represents (run : first.FeedRun env permit seqNum second)
    (inv : first.ledger.Represents .none) : second.ledger.Represents .none :=
  run.micros.represents inv

theorem tick (current : ¬ Regresses first.book.l3 seqNum) (globals : Globals)
    (later : first.book.globals.Le globals) :
    first.FeedRun env permit seqNum (first.onBook fun book => { book with globals }) :=
  ⟨.single (.sweep (show Sweep env .none .buy first.ledger { first.ledger with globals } from
    .tick later)), current⟩

end MatchState.FeedRun

/-- What a permit must allow of an order that joins a level of the book. -/
def Ledger.MayJoin (permit : Permit) (ledger : Ledger) (side : BookSide) (price : Int)
    (ranks : Ledger → Nat → Prop) : Prop :=
  ∀ after entry, ledger.SameSide side after → ranks after entry.priority → entry.side = side →
    entry.price = price → permit.arrive after entry

/-- Priorities drawn after a ledger and before another. -/
def Ledger.Draws (ledger after : Ledger) (priority : Nat) : Prop :=
  ledger.globals.nextPriority < priority ∧ priority ≤ after.globals.nextPriority

/-- Every resting order ranks by a priority that was drawn. -/
def Ledger.Ranked (ledger : Ledger) : Prop :=
  ∀ id resting, ledger.entry id = some resting → resting.priority ≤ ledger.globals.nextPriority

theorem Ledger.MayJoin.later {permit : Permit} {before after : Ledger} {side : BookSide} {price : Int}
    {ranks ranks' : Ledger → Nat → Prop} (mayJoin : before.MayJoin permit side price ranks)
    (same : before.SameSide side after) (weaker : ∀ last priority, ranks' last priority → ranks last priority) :
    after.MayJoin permit side price ranks' := by
  intro last entry sameLast ranked isSide isPrice
  refine mayJoin last entry ?_ (weaker _ _ ranked) isSide isPrice
  intro id resting atSide
  exact (sameLast id resting atSide).trans (same id resting atSide)

theorem foldl_onOrderUpdate_frame (updates : List OrderUpdate) (ledger : Ledger) :
    (updates.foldl Ledger.onOrderUpdate ledger).entry = ledger.entry ∧
      (updates.foldl Ledger.onOrderUpdate ledger).globals = ledger.globals := by
  induction updates generalizing ledger with
  | nil => exact ⟨rfl, rfl⟩
  | cons update rest ih =>
      obtain ⟨entry, globals⟩ := ih (ledger.onOrderUpdate update)
      have step : (ledger.onOrderUpdate update).entry = ledger.entry ∧
          (ledger.onOrderUpdate update).globals = ledger.globals := by
        unfold Ledger.onOrderUpdate
        split
        · exact ⟨rfl, rfl⟩
        · split <;> exact ⟨rfl, rfl⟩
      exact ⟨entry.trans step.1, globals.trans step.2⟩

private theorem Ledger.Ranked.setEntry {ledger : Ledger} {order : BookOrder} {timestamp : Nat}
    (ranked : ledger.Ranked) (drawn : order.priority ≤ ledger.globals.nextPriority) :
    (ledger.setEntry order.orderId (some order) timestamp).Ranked := by
  obtain ⟨entry, globals⟩ := foldl_onOrderUpdate_frame
    (exchangeUpdates (ledger.entry order.orderId) (some order) timestamp)
    (ledger.placeEntry order.orderId (some order) timestamp)
  intro id resting found
  unfold Ledger.setEntry at found ⊢
  rw [globals]
  rw [entry] at found
  by_cases same : id = order.orderId
  · subst same
    rw [Ledger.placeEntry_entry_self] at found
    cases found
    exact drawn
  · rw [Ledger.placeEntry_entry_of_ne same] at found
    exact ranked id resting found

namespace MatchState

variable {β : Type} [OrderBookL3 β] {env : Environment} {permit : Permit} {seqNum : Nat}
  {state : MatchState β}

/-- Venue liquidity enters the book, unless its id is taken. -/
theorem addL3Order_run {id : Nat} {side : BookSide} {price qty : Int} {priority timestamp : Nat}
    {isLast : Bool} (current : ¬ Regresses state.book.l3 seqNum)
    (foreign : ¬ state.ledger.Owned id) (numbered : id < state.book.globals.nextOrderId)
    (positive : 0 < qty)
    (clear : state.ledger.Beyond side.opposite price ∨ ∃ other resting,
      state.ledger.entry other = some resting ∧ resting.side = side ∧ resting.price = price)
    (mayJoin : permit.arrive state.ledger
      { orderId := id, side, price, quantity := qty, priority := effectivePriority priority timestamp }) :
    state.FeedRun env permit seqNum (state.onBook fun book =>
      book.addL3Order id side price qty timestamp priority seqNum isLast) := by
  let order : BookOrder :=
    { orderId := id, side, price, quantity := qty, priority := effectivePriority priority timestamp }
  cases taken : state.ledger.entry id with
  | some resting =>
      have unchanged : (state.onBook fun book =>
          book.addL3Order id side price qty timestamp priority seqNum isLast).ledger = state.ledger :=
        OrderBook.addL3Order_taken current taken
      have sameL3 : (state.book.addL3Order id side price qty timestamp priority seqNum isLast).l3 =
          state.book.l3 := by
        unfold OrderBook.addL3Order
        dsimp only
        rw [OrderBook.noteDeclined_of_not current, OrderBookL3.addOrder_taken (show OrderBookL3.findOrder state.book.l3 id = some resting
          from taken)]
        rfl
      refine ⟨by rw [unchanged], ?_⟩
      show ¬ Regresses (state.book.addL3Order id side price qty timestamp priority seqNum isLast).l3 _
      rw [sameL3]
      exact current
  | none =>
      obtain ⟨added, still⟩ := OrderBook.addL3Order_ledger state.responses order isLast current taken
        positive rfl
      refine ⟨.single ?_, still⟩
      rw [show (state.onBook fun book =>
        book.addL3Order id side price qty timestamp priority seqNum isLast).ledger = _ from added]
      exact .addPhantom taken foreign numbered positive clear mayJoin

theorem addBookOrder_run {id : Nat} {side : BookSide} {price qty : Int} {timestamp : Nat}
    {isLast : Bool} (current : ¬ Regresses state.book.l3 seqNum)
    (absent : state.ledger.entry id = none) (foreign : ¬ state.ledger.Owned id)
    (numbered : id < state.book.globals.nextOrderId) (positive : 0 < qty)
    (clear : state.ledger.Beyond side.opposite price ∨ ∃ other resting,
      state.ledger.entry other = some resting ∧ resting.side = side ∧ resting.price = price)
    (mayJoin : state.ledger.MayJoin permit side price state.ledger.Draws) :
    state.FeedRun env permit seqNum (state.onBook fun book =>
      book.addBookOrder id side price qty timestamp seqNum isLast) := by
  have ranks : effectivePriority (state.book.globals.nextPriority + 1) timestamp =
      state.book.globals.nextPriority + 1 := if_neg (Nat.succ_ne_zero _)
  have draws : state.FeedRun env permit seqNum (state.onBook OrderBook.nextOrderPriority) :=
    .tick current _ ⟨Nat.le_succ _, le_rfl, le_rfl, le_rfl, le_rfl⟩
  unfold onBook
  dsimp only
  rw [OrderBook.addBookOrder_eq absent]
  refine draws.trans (addL3Order_run draws.current foreign numbered positive clear ?_)
  refine mayJoin _ _ (fun _ _ _ => Iff.rfl) ?_ rfl rfl
  show state.ledger.Draws _ (effectivePriority (state.book.globals.nextPriority + 1) timestamp)
  rw [ranks]
  exact ⟨Nat.lt_succ_self _, le_rfl⟩

theorem addBookOrder_ranked {id : Nat} {side : BookSide} {price qty : Int} {timestamp : Nat}
    {isLast : Bool} (current : ¬ Regresses state.book.l3 seqNum) (positive : 0 < qty)
    (absent : state.ledger.entry id = none) (ranked : state.ledger.Ranked) :
    (state.onBook fun book =>
      book.addBookOrder id side price qty timestamp seqNum isLast).ledger.Ranked := by
  let drawn := state.onBook OrderBook.nextOrderPriority
  let order : BookOrder :=
    { orderId := id, side, price, quantity := qty, priority := state.book.globals.nextPriority + 1 }
  have added := (OrderBook.addL3Order_ledger state.responses order isLast
    (show ¬ Regresses drawn.book.l3 seqNum from current) absent positive
    (show order.priority = effectivePriority (state.book.globals.nextPriority + 1) timestamp from
      (if_neg (Nat.succ_ne_zero _)).symm)).1
  have added : (state.onBook fun book => book.addBookOrder id side price qty timestamp seqNum
      isLast).ledger = drawn.ledger.setEntry order.orderId (some order) timestamp := by
    unfold onBook
    dsimp only
    rw [OrderBook.addBookOrder_eq absent]
    exact added
  have drawnRanked : drawn.ledger.Ranked := fun other resting found =>
    Nat.le_succ_of_le (ranked other resting found)
  rw [added]
  exact drawnRanked.setEntry le_rfl

theorem modifyL3Order_run {order : BookOrder} {qty : Int} {timestamp : Nat} {isLast : Bool}
    (current : ¬ Regresses state.book.l3 seqNum)
    (rests : state.ledger.entry order.orderId = some order)
    (phantom : state.ledger.owner order.orderId = none) (nonneg : 0 ≤ qty) (within : qty ≤ order.quantity) :
    state.FeedRun env permit seqNum (state.onBook fun book =>
      book.modifyL3Order order.orderId order.price qty timestamp order.priority seqNum isLast) ∧
    ∀ {after : Ledger}, after = (state.onBook fun book => book.modifyL3Order order.orderId order.price
        qty timestamp order.priority seqNum isLast).ledger →
      after.owner = state.ledger.owner ∧
      ∀ other, other ≠ order.orderId → after.entry other = state.ledger.entry other := by
  have outside : ∀ next : Option BookOrder,
      (∀ entry, next = some entry → entry.orderId = order.orderId) →
      (state.ledger.setEntry order.orderId next timestamp).owner = state.ledger.owner ∧
      ∀ other, other ≠ order.orderId →
        (state.ledger.setEntry order.orderId next timestamp).entry other = state.ledger.entry other := by
    intro next keyed
    rw [Ledger.setEntry_phantom (by rintro _ found; cases rests.symm.trans found; rfl) keyed phantom]
    exact ⟨rfl, fun other different => Function.update_of_ne different ..⟩
  rcases Int.le_iff_eq_or_lt.mp nonneg with rfl | positive
  · obtain ⟨gone, still⟩ := OrderBook.modifyL3Order_zero state.responses order.price timestamp
      order.priority isLast current rests
    have gone : (state.onBook fun book => book.modifyL3Order order.orderId order.price 0 timestamp
      order.priority seqNum isLast).ledger = _ := gone
    refine ⟨⟨.single ?_, still⟩, ?_⟩
    · rw [gone]
      exact .dropPhantom rests phantom
    · intro after isAfter
      rw [isAfter, gone]
      exact outside none (by rintro _ ⟨⟩)
  · let next : BookOrder := { order with
      quantity := qty, priority := effectivePriority order.priority timestamp }
    obtain ⟨resized, still⟩ := OrderBook.modifyL3Order_ledger state.responses order next isLast current
      rests positive rfl rfl rfl
    have resized : (state.onBook fun book => book.modifyL3Order order.orderId order.price qty timestamp
      order.priority seqNum isLast).ledger = _ := resized
    refine ⟨⟨.single ?_, still⟩, ?_⟩
    · rw [resized]
      refine .resizePhantom rests phantom positive within ?_
      intro somePriority
      exact if_neg (by omega)
    · intro after isAfter
      rw [isAfter, resized]
      exact outside (some next) (by rintro _ ⟨⟩; rfl)

end MatchState

/-- A reduction that is due to a resting phantom order. -/
def PhantomReduction.Due (ledger : Ledger) (price : Int) (reduction : PhantomReduction) : Prop :=
  ∃ order, ledger.entry reduction.orderId = some order ∧ order.orderId = reduction.orderId ∧
    ledger.owner reduction.orderId = none ∧ order.price = price ∧
    reduction.priority = order.priority ∧ 0 ≤ reduction.newQty ∧ reduction.newQty ≤ order.quantity

namespace Exchange

variable {β : Type} [OrderBookL3 β] {env : Environment} {permit : Permit} {seqNum : Nat}
  {exchange : Exchange β} {config : SymbolConfig}

/-! ## Reconciling a level -/

section Reconcile

variable {state : MatchState β}

omit [OrderBookL3 β] in
theorem phantomReductions_sublist (book : OrderBook β) (orders : List BookOrder) (diff : Int) :
    ((phantomReductions book orders diff).map PhantomReduction.orderId).Sublist
      (orders.map BookOrder.orderId) := by
  induction orders generalizing diff with
  | nil => exact List.Sublist.refl _
  | cons order rest ih =>
      unfold phantomReductions
      split
      · exact List.nil_sublist _
      · split
        · exact (ih diff).cons _
        · exact (ih _).cons_cons _

theorem phantomReductions_due {orders : List BookOrder} {price diff : Int}
    (inv : state.ledger.Represents .none)
    (resting : ∀ order ∈ orders, state.ledger.entry order.orderId = some order ∧ order.price = price) :
    ∀ reduction ∈ phantomReductions state.book orders diff, reduction.Due state.ledger price := by
  induction orders generalizing diff with
  | nil => rintro _ ⟨⟩
  | cons order rest ih =>
      obtain ⟨rests, samePrice⟩ := resting order List.mem_cons_self
      have below := fun diff => @ih diff fun other member =>
        resting other (List.mem_cons_of_mem _ member)
      intro reduction member
      unfold phantomReductions at member
      split at member
      · cases member
      · rename_i more
        split at member
        · exact below diff reduction member
        · rename_i foreign
          rcases List.mem_cons.mp member with rfl | later
          · refine ⟨order, rests, rfl, ?_, samePrice, rfl, ?_, ?_⟩
            · exact Option.not_isSome_iff_eq_none.mp foreign
            · have := inv.agrees.positive rests
              dsimp only
              omega
            · dsimp only
              have := inv.agrees.positive rests
              omega
          · exact below _ reduction later

theorem reducePhantoms_run (price : Int) (eventTime : Nat) (endEvent : Bool)
    (reductions : List PhantomReduction)
    (distinct : (reductions.map PhantomReduction.orderId).Nodup)
    (current : ¬ Regresses state.book.l3 seqNum)
    (due : ∀ reduction ∈ reductions, reduction.Due state.ledger price) :
    state.FeedRun env permit seqNum (state.onBook fun book =>
      reducePhantoms book price eventTime seqNum endEvent reductions) := by
  induction reductions generalizing state with
  | nil => exact .refl current
  | cons reduction rest ih =>
      obtain ⟨fresh, distinct⟩ := List.nodup_cons.mp distinct
      obtain ⟨order, rests, keyed, phantom, rfl, ranked, nonneg, within⟩ := due reduction List.mem_cons_self
      rw [← keyed] at rests phantom
      obtain ⟨run, frame⟩ := @MatchState.modifyL3Order_run β _ env permit seqNum state order
        reduction.newQty eventTime (endEvent && rest.isEmpty) current rests phantom nonneg within
      obtain ⟨sameOwner, others⟩ := frame rfl
      rw [keyed, ← ranked] at run others sameOwner
      refine run.trans (ih distinct run.current ?_)
      intro later member
      have different : later.orderId ≠ reduction.orderId := by
        intro same
        exact fresh (same ▸ List.mem_map_of_mem member)
      obtain ⟨other, otherRests, otherKeyed, otherPhantom, facts⟩ :=
        due later (List.mem_cons_of_mem _ member)
      refine ⟨other, (others _ different).trans otherRests, otherKeyed, ?_, facts⟩
      rw [← otherPhantom]
      exact congrFun sameOwner _

omit [OrderBookL3 β] in
@[simp] theorem takeTradedQty_matching (side : Side) (price : Int) (asOf : Nat) :
    (exchange.takeTradedQty side price asOf).2.matching = exchange.matching := by
  unfold takeTradedQty
  split
  · rfl
  · dsimp only
    split <;> rfl

omit [OrderBookL3 β] in
@[simp] theorem noteMark_matching (mark : VenueMark) :
    (exchange.noteMark mark).matching = exchange.matching := rfl

omit [OrderBookL3 β] in
@[simp] theorem noteMark_book (mark : VenueMark) :
    (exchange.noteMark mark).book = exchange.book := rfl

theorem nextOrderId_foreign (inv : exchange.ledger.Represents .none) :
    ¬ exchange.ledger.Owned exchange.book.globals.nextOrderId := by
  intro owned
  exact Nat.lt_irrefl _ (inv.indexed.owned_bound owned)

theorem nextOrderId_absent (inv : exchange.ledger.Represents .none) :
    exchange.ledger.entry exchange.book.globals.nextOrderId = none := by
  cases found : exchange.ledger.entry exchange.book.globals.nextOrderId with
  | none => rfl
  | some resting => exact absurd (inv.indexed.entry_bound found) (Nat.lt_irrefl _)

variable (env) in
/-- Bringing the phantom quantity of a level to a target. -/
theorem reconcilePhantomQty_run (side : Side) (price targetQty : Int) (eventTime : Nat)
    (endEvent : Bool) (inv : exchange.ledger.Represents .none)
    (current : ¬ Regresses exchange.book.l3 seqNum)
    (mayJoin : exchange.book.getMDLevelQty price < max targetQty 0 → exchange.ledger.MayJoin permit
      (toBookSide side) price exchange.ledger.Draws) :
    exchange.matching.FeedRun env permit seqNum
      (exchange.reconcilePhantomQty side price targetQty eventTime seqNum endEvent).matching := by
  unfold reconcilePhantomQty
  cases found : OrderBookL3.getLevel exchange.book.l3 (toBookSide side) price with
  | none => exact .refl current
  | some level =>
      obtain ⟨filled, inside, prices⟩ := OrderBookL3.getLevel_eq_some found
      have resting : ∀ order ∈ level.orders, exchange.ledger.entry order.orderId = some order ∧
          order.side = toBookSide side ∧ order.price = price := by
        intro order member
        have atSide := inside.subset member
        exact ⟨MatchState.entry_of_mem atSide, OrderBookL3.side_of_mem atSide, prices order member⟩
      dsimp only
      generalize taken : exchange.takeTradedQty side price eventTime = took
      have sameMatching : took.2.matching = exchange.matching := by
        rw [← taken]
        exact takeTradedQty_matching side price eventTime
      generalize isTarget : (if 0 < took.1 then if targetQty > took.1 then targetQty - took.1 else 0
        else targetQty) = target
      have sameBook : took.2.book = exchange.book := congrArg MatchState.book sameMatching
      rw [noteMark_book, sameBook]
      split <;> rename_i more
      · have short : exchange.book.getMDLevelQty price < max targetQty 0 := by
          rw [← isTarget] at more
          split at more
          · split at more <;> omega
          · omega
        -- The level exists, so it is known not to cross.
        rw [onBook_matching, noteMark_matching, sameMatching]
        have ticks : exchange.matching.FeedRun env permit seqNum
            (exchange.matching.onBook OrderBook.nextOrderId) :=
          .tick current _ ⟨le_rfl, Nat.le_succ _, le_rfl, le_rfl, le_rfl⟩
        refine ticks.trans (MatchState.addBookOrder_run ticks.current (nextOrderId_absent inv)
          (nextOrderId_foreign inv) (Nat.lt_succ_self _) (by omega) (.inr ?_) (mayJoin short))
        obtain ⟨front, rest, queue⟩ := List.exists_cons_of_ne_nil filled
        exact ⟨front.orderId, front, resting front (queue ▸ List.mem_cons_self)⟩
      · split
        · rw [onBook_matching, noteMark_matching, sameMatching]
          refine reducePhantoms_run price eventTime endEvent _ ?_ current ?_
          · refine (phantomReductions_sublist _ _ _).nodup ?_
            rw [List.map_reverse]
            apply List.nodup_reverse.mpr
            exact (inside.map _).nodup (OrderBookL3.restingOrders_distinct _ _)
          · apply phantomReductions_due inv
            intro order member
            have facts := resting order (List.mem_reverse.mp member)
            exact ⟨facts.1, facts.2.2⟩
        · rw [noteMark_matching, sameMatching]
          exact .refl current

end Reconcile

/-! ## Resting venue liquidity -/

section Rest

/-- An aggressor from the feed has quantity left when it has taken what it can. -/
def LeavesQty (exchange : Exchange β) (side : Side) (price qty : Int) : Prop :=
  crossableQty (sweptSide side) price (fun _ => false)
    (restingOrders exchange.book.l3 (sweptSide side)) < qty

instance (side : Side) (price qty : Int) : Decidable (exchange.LeavesQty side price qty) :=
  inferInstanceAs (Decidable (_ < _))

variable (env config) in
theorem matchFeed_run (side : Side) (orderId : Nat) (price qty : Int) (eventTime : Nat)
    (inv : exchange.ledger.Represents .none) (current : ¬ Regresses exchange.book.l3 seqNum) :
    ∃ left summaries after, config.matchingEngine.matchFeed env side orderId price qty eventTime seqNum
        exchange.matching = (left, summaries, after) ∧
      exchange.matching.FeedRun env permit seqNum after ∧ min qty 0 ≤ left ∧
      exchange.ledger.SameSide (toBookSide side) after.ledger ∧
      exchange.ledger.globals.Le after.ledger.globals ∧
      (∀ id, after.ledger.Owned id ↔ exchange.ledger.Owned id) ∧
      (∀ id resting, after.ledger.entry id = some resting →
        ∃ old, exchange.ledger.entry id = some old ∧ resting.Shrinks old) ∧
      (0 < left → after.ledger.Beyond (toBookSide side).opposite price ∧
        exchange.LeavesQty side price qty) := by
  obtain ⟨left, summaries, after, matched, sweeps, still, least, rests⟩ :=
    MatchingEngine.matchFeed_spec env side orderId price qty eventTime inv current
  have frame := sweeps.takenFrom inv
  refine ⟨left, summaries, after, matched, ⟨sweeps.micros, still⟩, least, ?_, frame.later,
    fun _ => frame.owned, fun _ _ found => frame.shrinks found, ?_⟩
  · refine frame.sameSide ?_
    rw [MatchingEngine.sweptSide_eq]
    exact (BookSide.opposite_ne _).symm
  · rw [← MatchingEngine.sweptSide_eq]
    exact rests

theorem nextOrderId_run (current : ¬ Regresses exchange.book.l3 seqNum) :
    exchange.matching.FeedRun env permit seqNum (exchange.onBook OrderBook.nextOrderId).matching :=
  .tick current _ ⟨le_rfl, Nat.le_succ _, le_rfl, le_rfl, le_rfl⟩

variable (env config) in
theorem restVenueQty_run (side : Side) (price : Int) {qty : Int} (eventTime : Nat)
    (isLast : Bool) (inv : exchange.ledger.Represents .none)
    (current : ¬ Regresses exchange.book.l3 seqNum) (nonneg : 0 ≤ qty)
    (mayJoin : exchange.LeavesQty side price qty → exchange.ledger.MayJoin permit (toBookSide side)
      price exchange.ledger.Draws) :
    exchange.matching.FeedRun env permit seqNum
        (exchange.restVenueQty env config side price qty eventTime seqNum isLast).2.2.matching ∧
      (exchange.ledger.Ranked →
        (exchange.restVenueQty env config side price qty eventTime seqNum isLast).2.2.ledger.Ranked) := by
  have ticks := @nextOrderId_run β _ env permit seqNum exchange current
  obtain ⟨left, summaries, after, matched, run, least, sameSide, later, owned, shrinks, rests⟩ :=
    @matchFeed_run β _ env permit seqNum (exchange.onBook OrderBook.nextOrderId) config side
      exchange.book.globals.nextOrderId price qty eventTime (ticks.represents inv) ticks.current
  have sweptRanked : exchange.ledger.Ranked → after.ledger.Ranked := by
    intro ranked id resting found
    obtain ⟨old, foundOld, smaller⟩ := shrinks id resting found
    rw [smaller.priority]
    exact (ranked id old foundOld).trans later.nextPriority
  unfold restVenueQty
  dsimp only
  rw [matched]
  dsimp only
  split <;> rename_i some
  · obtain ⟨clear, leaves⟩ := rests (by omega)
    have absent : after.ledger.entry exchange.book.globals.nextOrderId = none := by
      cases found : after.ledger.entry exchange.book.globals.nextOrderId with
      | none => rfl
      | some resting =>
          obtain ⟨old, foundOld, -⟩ := shrinks _ resting found
          exact absurd (inv.indexed.entry_bound foundOld) (Nat.lt_irrefl _)
    refine ⟨(ticks.trans run).trans (MatchState.addBookOrder_run run.current absent ?_ ?_ (by omega)
      (.inl clear) ((mayJoin leaves).later sameSide ?_)), ?_⟩
    · rw [owned]
      exact nextOrderId_foreign inv
    · exact Nat.lt_of_lt_of_le (Nat.lt_succ_self _) later.nextOrderId
    · intro last priority drawn
      exact ⟨Nat.lt_of_le_of_lt later.nextPriority drawn.1, drawn.2⟩
    · intro ranked
      exact MatchState.addBookOrder_ranked run.current (by omega) absent (sweptRanked ranked)
  · exact ⟨ticks.trans run, sweptRanked⟩

variable (env config) in
theorem restTimestamped_run (side : Side) (price qty : Int) (eventTimeNs : Nat)
    (inv : exchange.ledger.Represents .none)
    (mayJoin : exchange.LeavesQty side price qty → exchange.ledger.MayJoin permit (toBookSide side)
      price (fun _ => (· = eventTimeNs))) :
    exchange.matching.FeedRun env permit 0
      (exchange.restTimestamped env config side price qty eventTimeNs).2.matching := by
  have current : ¬ Regresses exchange.book.l3 0 := fun stale => stale.1.false
  have ticks := @nextOrderId_run β _ env permit 0 exchange current
  obtain ⟨left, summaries, after, matched, run, -, sameSide, later, owned, -, rests⟩ :=
    @matchFeed_run β _ env permit 0 (exchange.onBook OrderBook.nextOrderId) config side
      exchange.book.globals.nextOrderId price qty eventTimeNs (ticks.represents inv) ticks.current
  unfold restTimestamped
  dsimp only
  rw [matched]
  dsimp only
  split <;> rename_i some
  · obtain ⟨clear, leaves⟩ := rests some
    refine (ticks.trans run).trans (MatchState.addL3Order_run run.current ?_ ?_ some (.inl clear)
      (mayJoin leaves _ _ sameSide rfl rfl rfl))
    · rw [owned]
      exact nextOrderId_foreign inv
    · exact Nat.lt_of_lt_of_le (Nat.lt_succ_self _) later.nextOrderId
  · exact ticks.trans run

end Rest

/-! ## Mirrored venue orders -/

section Mirror

variable (env config) in
theorem restMarketOrder_run (event : MarketOrderEvent) (inv : exchange.ledger.Represents .none)
    (foreign : ¬ exchange.ledger.Owned event.bookOrderId)
    (numbered : event.bookOrderId < exchange.ledger.globals.nextOrderId)
    (mayJoin : exchange.LeavesQty event.side event.price event.qty → exchange.ledger.MayJoin permit
      (toBookSide event.side) event.price
        (fun _ => (· = effectivePriority event.bookPriority event.transactTime))) :
    exchange.matching.FeedRun env permit 0 (exchange.restMarketOrder env config event).matching := by
  have current : ¬ Regresses exchange.book.l3 0 := fun stale => stale.1.false
  obtain ⟨left, summaries, after, matched, run, -, sameSide, later, owned, -, rests⟩ :=
    @matchFeed_run β _ env permit 0 exchange config event.side event.bookOrderId event.price event.qty
      event.transactTime inv current
  unfold restMarketOrder
  dsimp only
  rw [matched]
  dsimp only
  split <;> rename_i some
  · obtain ⟨clear, leaves⟩ := rests some
    rw [onBook_matching, publishTradeSummaries_matching]
    refine run.trans (MatchState.addL3Order_run run.current ?_ ?_ some (.inl clear)
      (mayJoin leaves _ _ sameSide rfl rfl rfl))
    · rw [owned]
      exact foreign
    · exact Nat.lt_of_lt_of_le numbered later.nextOrderId
  · rw [publishTradeSummaries_matching]
    exact run

/-- What a mirrored order event needs of the book and of a permit. -/
structure MarketOrderLicence (permit : Permit) (exchange : Exchange β) (event : MarketOrderEvent) :
    Prop where
  foreign : ¬ exchange.ledger.Owned event.bookOrderId
  numbered : event.bookOrderId < exchange.ledger.globals.nextOrderId
  move : ∀ resting, exchange.ledger.entry event.bookOrderId = some resting →
    event.action = .change → event.requeue = false → permit.move resting
      { resting with
        price := event.price
        quantity := event.qty
        priority := effectivePriority resting.priority event.transactTime }
  arrive : ∀ after entry, permit.arrive after entry

variable {event : MarketOrderEvent}

theorem deleteL3Order_run {id timestamp : Nat} (inv : exchange.ledger.Represents .none)
    (foreign : ¬ exchange.ledger.Owned id) :
    exchange.matching.FeedRun env permit 0
        (exchange.onBook fun book => book.deleteL3Order id timestamp 0 true).matching ∧
      (exchange.onBook fun book => book.deleteL3Order id timestamp 0 true).ledger.globals =
        exchange.ledger.globals ∧
      ∀ other, (exchange.onBook fun book => book.deleteL3Order id timestamp 0 true).ledger.Owned other ↔
        exchange.ledger.Owned other := by
  have phantom := Ledger.owner_eq_none_of_not_owned inv foreign
  obtain ⟨gone, still⟩ := OrderBook.deleteL3Order_ledger exchange.matching.responses id timestamp true
    (show ¬ Regresses exchange.book.l3 0 from fun stale => stale.1.false)
  have gone : (exchange.onBook fun book => book.deleteL3Order id timestamp 0 true).ledger =
    exchange.ledger.setEntry id none timestamp := gone
  have globalsSame : (exchange.ledger.setEntry id none timestamp).globals = exchange.ledger.globals ∧
      (exchange.ledger.setEntry id none timestamp).responses = exchange.ledger.responses := by
    rw [Ledger.setEntry_phantom (fun _ found => inv.indexed.entry_id found) (by rintro _ ⟨⟩) phantom]
    exact ⟨rfl, rfl⟩
  refine ⟨⟨?_, still⟩, gone ▸ globalsSame.1, ?_⟩
  · show Micros env permit (.none, exchange.ledger) (.none, Exchange.ledger _)
    rw [gone]
    cases rests : exchange.ledger.entry id with
    | none => rw [Ledger.setEntry_absent rests]
    | some resting =>
        obtain rfl := inv.indexed.entry_id rests
        exact .single (.dropPhantom rests phantom)
  · intro other
    unfold Ledger.Owned
    rw [gone, globalsSame.2]

variable (env config) in
theorem applyMarketOrder_run (inv : exchange.ledger.Represents .none)
    (licence : MarketOrderLicence permit exchange event) :
    exchange.matching.FeedRun env permit 0 (exchange.applyMarketOrder env config event).matching := by
  have rests : exchange.matching.FeedRun env permit 0
      (exchange.restMarketOrder env config event).matching :=
    restMarketOrder_run env config event inv licence.foreign licence.numbered
      (fun _ after entry _ _ _ _ => licence.arrive after entry)
  obtain ⟨deletes, sameGlobals, sameOwned⟩ := @deleteL3Order_run β _ env permit exchange
    event.bookOrderId event.transactTime inv licence.foreign
  unfold applyMarketOrder
  cases action : event.action with
  | new => exact rests
  | delete => exact deletes
  | change =>
      dsimp only
      cases found : OrderBookL3.findOrder exchange.book.l3 event.bookOrderId with
      | none => exact rests
      | some resting =>
          dsimp only
          have found : exchange.ledger.entry event.bookOrderId = some resting := found
          split <;> rename_i stays
          · have keyed := inv.indexed.entry_id found
            have phantom := Ledger.owner_eq_none_of_not_owned inv licence.foreign
            have current : ¬ Regresses exchange.book.l3 0 := fun stale => stale.1.false
            rcases Int.le_iff_eq_or_lt.mp event.qty_nonneg with empty | positive
            · obtain ⟨gone, still⟩ := OrderBook.modifyL3Order_zero exchange.matching.responses
                event.price event.transactTime resting.priority true current found
              rw [← empty]
              have drops : Micro env permit (.none, exchange.ledger) (.none, _) :=
                @Micro.dropPhantom env permit exchange.ledger resting event.transactTime
                  (keyed ▸ found) (keyed ▸ phantom)
              rw [keyed, show exchange.ledger.setEntry _ none _ = _ from gone.symm] at drops
              exact ⟨.single drops, still⟩
            · let next : BookOrder := { resting with
                price := event.price
                quantity := event.qty
                priority := effectivePriority resting.priority event.transactTime }
              obtain ⟨moved, still⟩ := OrderBook.modifyL3Order_ledger exchange.matching.responses resting
                next true current (keyed ▸ found) positive rfl rfl rfl
              have moves : Micro env permit (.none, exchange.ledger) (.none, _) :=
                @Micro.movePhantom env permit exchange.ledger resting next event.transactTime
                  (keyed ▸ found) (keyed ▸ phantom) positive rfl rfl
                  (licence.move resting found action stays)
              rw [show exchange.ledger.setEntry _ (some next) _ = _ from moved.symm, keyed] at moves
              rw [keyed] at still
              exact ⟨.single moves, still⟩
          · refine deletes.trans (restMarketOrder_run env config event (deletes.represents inv) ?_ ?_ ?_)
            · rw [sameOwned]
              exact licence.foreign
            · rw [sameGlobals]
              exact licence.numbered
            · exact fun _ after entry _ _ _ _ => licence.arrive after entry

variable (env config) in
theorem replayMarketTrade_run (event : MarketTradeEvent) (inv : exchange.ledger.Represents .none) :
    exchange.matching.FeedRun env permit 0 (exchange.replayMarketTrade env config event).matching := by
  have ticks := @nextOrderId_run β _ env permit 0 exchange fun stale => stale.1.false
  obtain ⟨left, summaries, after, matched, run, -⟩ :=
    @matchFeed_run β _ env permit 0 (exchange.onBook OrderBook.nextOrderId) config event.aggressor
      exchange.book.globals.nextOrderId event.price event.qty event.transactTime (ticks.represents inv)
      ticks.current
  unfold replayMarketTrade
  dsimp only
  rw [matched]
  dsimp only
  rw [publishTradeSummaries_matching]
  exact ticks.trans run

end Mirror

end Exchange

end SlickSim
