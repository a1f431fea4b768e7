import SlickSim.Ledger.CreditHistory
import SlickSim.OrderBook.Reference

/-!
# What a level update leaves

A level update should leave at its level what the venue reports, less what the
prints it does not know of have taken since the book was rebuilt. The law here says
what it leaves instead and when the two agree.
-/

set_option autoImplicit false

namespace SlickSim

open OrderBookL3 (Regresses restingOrders)

namespace Exchange

variable {β : Type} [OrderBookL3 β] {env : Environment} {config : SymbolConfig}
  {exchange : Exchange β} {seqNum : Nat} {side : Side} {price : Int}

/-! ## Taking phantom quantity off a level -/

omit [OrderBookL3 β] in
private theorem shares_nonneg {book : OrderBook β} {bookSide : BookSide} {orders : List BookOrder}
    (positive : ∀ order ∈ orders, 0 < order.quantity) :
    0 ≤ (orders.map (book.phantomShare bookSide price)).sum := by
  apply List.sum_nonneg
  intro share member
  obtain ⟨order, inside, rfl⟩ := List.mem_map.mp member
  have := positive order inside
  unfold OrderBook.phantomShare
  split <;> omega

/-- The reductions take off what is asked for, as far as the orders they are chosen from
go, and leave the other levels. They are chosen before the first of them is applied. -/
theorem reducePhantoms_phantomQty {state : MatchState β} {chosen : OrderBook β} (bookSide : BookSide)
    (eventTime : Nat) (endEvent : Bool) (orders : List BookOrder) (diff : Int)
    (distinct : (orders.map BookOrder.orderId).Nodup) (current : ¬ Regresses state.book.l3 seqNum)
    (sameOwner : state.book.orders = chosen.orders)
    (resting : ∀ order ∈ orders, state.ledger.entry order.orderId = some order ∧
      order.side = bookSide ∧ order.price = price ∧ 0 < order.quantity) (otherSide : BookSide) (other : Int) :
    (reducePhantoms state.book price eventTime seqNum endEvent
        (phantomReductions chosen orders diff)).phantomQtyAt otherSide other =
      state.book.phantomQtyAt otherSide other -
        if bookSide = otherSide ∧ price = other then
          min (max diff 0) (orders.map (chosen.phantomShare bookSide price)).sum
        else 0 := by
  induction orders generalizing state diff with
  | nil =>
      show state.book.phantomQtyAt otherSide other = _
      simp
  | cons order rest ih =>
      obtain ⟨rests, onSide, atPrice, positive⟩ := resting order List.mem_cons_self
      obtain ⟨fresh, distinct⟩ := List.nodup_cons.mp distinct
      have later := fun other member => resting other (List.mem_cons_of_mem _ member)
      have restNonneg := @shares_nonneg β price chosen bookSide rest
        fun other member => (later other member).2.2.2
      rw [List.map_cons, List.sum_cons]
      unfold phantomReductions
      split <;> rename_i more
      · have shareNonneg : 0 ≤ chosen.phantomShare bookSide price order := by
          unfold OrderBook.phantomShare
          split <;> omega
        show state.book.phantomQtyAt otherSide other = _
        split <;> omega
      · split <;> rename_i ours
        · have noShare : chosen.phantomShare bookSide price order = 0 := by
            unfold OrderBook.phantomShare
            refine if_neg fun holds => ?_
            rw [Option.isNone_iff_eq_none.mp holds.2.2] at ours
            cases ours
          rw [ih diff distinct current sameOwner later, noShare, zero_add]
        · have foreignChosen : chosen.findOrder order.orderId = none :=
            Option.not_isSome_iff_eq_none.mp ours
          have foreign : state.book.findOrder order.orderId = none := by
            unfold OrderBook.findOrder
            rw [sameOwner]
            exact foreignChosen
          have share : chosen.phantomShare bookSide price order = order.quantity := by
            unfold OrderBook.phantomShare
            rw [if_pos ⟨onSide, atPrice, by rw [foreignChosen]; rfl⟩]
          dsimp only
          generalize isLast : (endEvent && (phantomReductions chosen rest
            (diff - min diff order.quantity)).isEmpty) = last
          obtain ⟨run, frame⟩ := @MatchState.modifyL3Order_run β _ (Environment.counted fun _ => default)
            .all seqNum state order (order.quantity - min diff order.quantity) eventTime last current rests
            foreign (by omega) (by omega)
          have others := (frame rfl).2
          have moved := @OrderBook.modifyL3Order_phantomQty β _ state.book seqNum eventTime order.priority
            last order (order.quantity - min diff order.quantity) current rests foreign (by omega)
            otherSide other
          rw [onSide, atPrice] at moved
          rw [atPrice] at run others
          unfold reducePhantoms
          rw [isLast]
          have below := @ih (state.onBook fun book => book.modifyL3Order order.orderId price
            (order.quantity - min diff order.quantity) eventTime order.priority seqNum last)
            (diff - min diff order.quantity) distinct run.current
            ((OrderBook.absorb_orders ..).trans sameOwner) ?_
          · refine below.trans ?_
            show OrderBook.phantomQtyAt (state.book.modifyL3Order ..) _ _ - _ = _
            rw [moved, share]
            split <;> omega
          · intro other member
            have different : other.orderId ≠ order.orderId := by
              intro same
              exact fresh (same ▸ List.mem_map_of_mem member)
            rw [others _ different]
            exact later other member

/-! ## The two branches of an update -/

omit [OrderBookL3 β] in
private theorem sum_shares_at_price {book : OrderBook β} (bookSide : BookSide) (orders : List BookOrder) :
    ((orders.filter fun order => order.price = price).map (book.phantomShare bookSide price)).sum =
      (orders.map (book.phantomShare bookSide price)).sum := by
  induction orders with
  | nil => rfl
  | cons order rest ih =>
      rw [List.filter_cons, List.map_cons, List.sum_cons, ← ih]
      split <;> rename_i here
      · rw [List.map_cons, List.sum_cons]
      · rw [OrderBook.phantomShare, if_neg fun holds => here (by simpa using holds.2.1), zero_add]

/-- Phantom quantity that is added under a fresh id shows at its level. -/
private theorem addBookOrder_phantomQtyAt {bookSide : BookSide} {qty : Int} {eventTime : Nat}
    (endEvent : Bool) (inv : exchange.ledger.Represents .none)
    (current : ¬ Regresses exchange.book.l3 seqNum) (positive : 0 < qty) (otherSide : BookSide) (other : Int) :
    (exchange.book.nextOrderId.addBookOrder exchange.book.globals.nextOrderId bookSide price qty eventTime
        seqNum endEvent).phantomQtyAt otherSide other = exchange.book.phantomQtyAt otherSide other +
      if bookSide = otherSide ∧ price = other then qty else 0 := by
  let order : BookOrder :=
    { orderId := exchange.book.globals.nextOrderId, side := bookSide, price, quantity := qty
      priority := exchange.book.globals.nextPriority + 1 }
  have absent : (exchange.book.nextOrderId.ledger exchange.matching.responses).entry
    exchange.book.globals.nextOrderId = none := nextOrderId_absent inv
  have foreign := Ledger.owner_eq_none_of_not_owned inv (nextOrderId_foreign inv)
  have added := @OrderBook.addL3Order_phantomQtyAt β _ exchange.book.nextOrderId.nextOrderPriority seqNum
    eventTime (exchange.book.globals.nextPriority + 1) endEvent order current absent foreign positive
    (if_neg (Nat.succ_ne_zero _)).symm otherSide other
  rw [OrderBook.addBookOrder_eq absent]
  exact added

/-- The other side has no order at a price the update does not cross. -/
theorem apart_of_beyond {bookSide : BookSide} (clear : exchange.ledger.Beyond bookSide.opposite price) :
    ∀ order ∈ restingOrders exchange.book.l3 bookSide.opposite, order.price ≠ price := by
  intro order inside here
  have beyond := clear order.orderId order (OrderBookL3.findOrder_of_mem inside)
    (OrderBookL3.side_of_mem inside)
  rw [here] at beyond
  unfold beyondLimit isPriceBetterOrEqual at beyond
  cases bookSide <;> simp [BookSide.opposite] at beyond

/-- Where the other side has no order at a price, the total of the price is that of its level. -/
theorem getMDLevelQty_of_apart {bookSide : BookSide} (inv : exchange.ledger.Represents .none)
    (totalled : exchange.ledger.Totalled)
    (apart : ∀ order ∈ restingOrders exchange.book.l3 bookSide.opposite, order.price ≠ price) :
    exchange.book.getMDLevelQty price = exchange.book.phantomQtyAt bookSide price := by
  have total : exchange.book.getMDLevelQty price = exchange.book.phantomQtyAt bookSide price +
      exchange.book.phantomQtyAt bookSide.opposite price :=
    OrderBook.getMDLevelQty_eq_sides inv totalled bookSide price
  have nothing : exchange.book.phantomQtyAt bookSide.opposite price = 0 := by
    apply List.sum_eq_zero
    intro share member
    obtain ⟨order, inside, rfl⟩ := List.mem_map.mp member
    exact if_neg fun holds => apart order inside holds.1
  rw [total, nothing, add_zero]

omit [OrderBookL3 β] in
theorem CreditsPositive.takeTradedQty_nonneg (positive : exchange.CreditsPositive) (side : Side)
    (price : Int) (asOf : Nat) : 0 ≤ (exchange.takeTradedQty side price asOf).1 := by
  by_cases known : side = .unknownSide
  · rw [takeTradedQty, if_pos known]
  · rw [(takeTradedQty_held known positive).1]
    exact positive.heldCredit_nonneg _ _ _

/-- What an update of a level that is there does to the book, given how much it is short of
its goal or exceeds it. -/
theorem reconcilePhantomQty_goal {level : PriceLevelL3} (targetQty : Int) (eventTime : Nat)
    (endEvent : Bool) (inv : exchange.ledger.Represents .none) (totalled : exchange.ledger.Totalled)
    (positive : exchange.CreditsPositive)
    (apart : ∀ order ∈ restingOrders exchange.book.l3 (toBookSide side).opposite, order.price ≠ price)
    (found : OrderBookL3.getLevel exchange.book.l3 (toBookSide side) price = some level) :
    ∃ goal, max 0 goal = max 0 (targetQty - (exchange.takeTradedQty side price eventTime).1) ∧
      (exchange.reconcilePhantomQty side price targetQty eventTime seqNum endEvent).matching =
        exchange.matching.onBook fun book =>
          if exchange.book.phantomQtyAt (toBookSide side) price < goal then
            book.nextOrderId.addBookOrder book.globals.nextOrderId (toBookSide side) price
              (goal - exchange.book.phantomQtyAt (toBookSide side) price) eventTime seqNum endEvent
          else reducePhantoms book price eventTime seqNum endEvent
            (phantomReductions exchange.book level.orders.reverse
              (exchange.book.phantomQtyAt (toBookSide side) price - goal)) := by
  have creditNonneg := positive.takeTradedQty_nonneg side price eventTime
  have total := getMDLevelQty_of_apart inv totalled apart
  unfold reconcilePhantomQty
  rw [found]
  dsimp only
  generalize taken : exchange.takeTradedQty side price eventTime = took at creditNonneg ⊢
  have sameMatching : took.2.matching = exchange.matching := by
    rw [← taken]
    exact takeTradedQty_matching side price eventTime
  have sameBook : took.2.book = exchange.book := congrArg MatchState.book sameMatching
  generalize isTarget : (if 0 < took.1 then if targetQty > took.1 then targetQty - took.1 else 0
    else targetQty) = goal
  refine ⟨goal, ?_, ?_⟩
  · rw [← isTarget]
    split
    · split <;> omega
    · omega
  rw [noteMark_book, sameBook, total]
  by_cases more : exchange.book.phantomQtyAt (toBookSide side) price < goal
  · simp only [if_pos more]
    rw [onBook_matching, noteMark_matching, sameMatching]
    rfl
  · simp only [if_neg more]
    split <;> rename_i less
    · rw [onBook_matching, noteMark_matching, sameMatching]
    · have nothing_due : phantomReductions exchange.book level.orders.reverse
          (exchange.book.phantomQtyAt (toBookSide side) price - goal) = [] := by
        cases level.orders.reverse with
        | nil => rfl
        | cons => exact if_pos (by omega)
      rw [nothing_due, noteMark_matching, sameMatching]
      rfl

/-- An update of a level that is there leaves its target less the credits it takes, and
no other level changes. -/
theorem reconcilePhantomQty_phantomQty {level : PriceLevelL3} (targetQty : Int) (eventTime : Nat)
    (endEvent : Bool) (inv : exchange.ledger.Represents .none) (totalled : exchange.ledger.Totalled)
    (current : ¬ Regresses exchange.book.l3 seqNum) (positive : exchange.CreditsPositive)
    (apart : ∀ order ∈ restingOrders exchange.book.l3 (toBookSide side).opposite, order.price ≠ price)
    (found : OrderBookL3.getLevel exchange.book.l3 (toBookSide side) price = some level)
    (otherSide : BookSide) (other : Int) :
    (exchange.reconcilePhantomQty side price targetQty eventTime seqNum endEvent).book.phantomQtyAt
        otherSide other =
      if toBookSide side = otherSide ∧ price = other then
        max 0 (targetQty - (exchange.takeTradedQty side price eventTime).1)
      else exchange.book.phantomQtyAt otherSide other := by
  obtain ⟨-, inside, prices⟩ := OrderBookL3.getLevel_eq_some found
  have levelShares : (level.orders.map (exchange.book.phantomShare (toBookSide side) price)).sum =
      exchange.book.phantomQtyAt (toBookSide side) price := by
    rw [OrderBook.phantomQtyAt_eq_queue, getLevel_orders found]
    exact sum_shares_at_price _ _
  have positiveQty : ∀ order ∈ level.orders, 0 < order.quantity := by
    intro order member
    exact inv.agrees.positive (MatchState.entry_of_mem (inside.subset member))
  have hasNonneg : 0 ≤ exchange.book.phantomQtyAt (toBookSide side) price := by
    rw [← levelShares]
    exact shares_nonneg positiveQty
  have here : toBookSide side = otherSide ∧ price = other → exchange.book.phantomQtyAt otherSide other =
      exchange.book.phantomQtyAt (toBookSide side) price := by
    rintro ⟨rfl, rfl⟩
    rfl
  obtain ⟨goal, adjusted, isBook⟩ := @reconcilePhantomQty_goal β _ exchange seqNum side price level targetQty
    eventTime endEvent inv totalled positive apart found
  rw [← adjusted]
  show OrderBook.phantomQtyAt (MatchState.book (Exchange.matching _)) _ _ = _
  rw [isBook]
  show OrderBook.phantomQtyAt (if _ then _ else _) _ _ = _
  split <;> rename_i more
  · -- The level is raised by one more phantom order, under an id drawn for it.
    refine (addBookOrder_phantomQtyAt endEvent inv current (by omega) otherSide other).trans ?_
    split <;> rename_i at_
    · rw [here at_]
      omega
    · omega
  · have lowered := @reducePhantoms_phantomQty β _ seqNum price exchange.matching exchange.book
      (toBookSide side) eventTime endEvent level.orders.reverse
      (exchange.book.phantomQtyAt (toBookSide side) price - goal) ?_ current rfl ?_ otherSide other
    · rw [List.map_reverse, List.sum_reverse, levelShares] at lowered
      refine lowered.trans ?_
      show exchange.book.phantomQtyAt _ _ - _ = _
      split <;> rename_i at_
      · rw [here at_]
        omega
      · omega
    · rw [List.map_reverse]
      exact List.nodup_reverse.mpr
        ((inside.map _).nodup (OrderBookL3.restingOrders_distinct _ _))
    · intro order member
      have member := List.mem_reverse.mp member
      have atSide := inside.subset member
      exact ⟨MatchState.entry_of_mem atSide, OrderBookL3.side_of_mem atSide, prices order member,
        positiveQty order member⟩

/-- An aggressor that crosses nothing keeps its quantity. -/
theorem matchFeed_of_beyond {state : MatchState β} (engine : MatchingEngine) (orderId : Nat) (qty : Int)
    (eventTime : Nat) (clear : state.ledger.Beyond (toBookSide side).opposite price) :
    engine.matchFeed env side orderId price qty eventTime seqNum state = (qty, [], state) := by
  rw [← MatchingEngine.sweptSide_eq] at clear
  have nothing : state.crossableLevel (MatchingEngine.sweptSide side) price = none := by
    cases crosses : state.crossableLevel (MatchingEngine.sweptSide side) price with
    | none => rfl
    | some level =>
        obtain ⟨within, rest, cut, -, filled, prices⟩ := MatchState.crossableLevel_eq_some crosses
        obtain ⟨front, queue, isQueue⟩ := List.exists_cons_of_ne_nil filled
        have member : front ∈ restingOrders state.book.l3 (MatchingEngine.sweptSide side) := by
          rw [cut, isQueue]
          exact List.mem_cons_self
        have beyond := clear front.orderId front (MatchState.entry_of_mem member)
          (OrderBookL3.side_of_mem member)
        rw [prices front (isQueue ▸ List.mem_cons_self), within] at beyond
        cases beyond
  cases engine with
  | fifo =>
      unfold MatchingEngine.matchFeed MatchingEngine.feedLoop
      dsimp only
      cases state.sweepFuel (MatchingEngine.sweptSide side) with
      | zero => rfl
      | succ fuel =>
          unfold Fifo.feedLoop
          rw [nothing]
          split <;> rfl
  | proRata config =>
      unfold MatchingEngine.matchFeed MatchingEngine.feedLoop
      dsimp only
      cases state.sweepFuel (MatchingEngine.sweptSide side) with
      | zero => rfl
      | succ fuel =>
          unfold ProRata.feedLoop
          rw [nothing]
          split <;> rfl

/-- Where there is no level there is no phantom quantity. -/
theorem phantomQtyAt_eq_zero {book : OrderBook β} {bookSide : BookSide}
    (missing : OrderBookL3.getLevel book.l3 bookSide price = none) : book.phantomQtyAt bookSide price = 0 := by
  apply List.sum_eq_zero
  intro share member
  obtain ⟨order, inside, rfl⟩ := List.mem_map.mp member
  exact if_neg fun holds => price_ne_of_getLevel_none missing inside holds.1

variable (env config) in
/-- What crosses nothing rests on Coinbase as it was offered. -/
theorem restVenueQty_of_beyond {qty : Int} (eventTime seqNum : Nat) (isLast : Bool)
    (clear : exchange.ledger.Beyond (toBookSide side).opposite price) :
    exchange.restVenueQty env config side price qty eventTime seqNum isLast =
      (qty, [], if qty ≠ 0 then
          (exchange.onBook OrderBook.nextOrderId).onBook fun book => book.addBookOrder
            exchange.book.globals.nextOrderId (toBookSide side) price qty eventTime seqNum isLast
        else exchange.onBook OrderBook.nextOrderId) := by
  have matched := @matchFeed_of_beyond β _ env seqNum side price
    (exchange.onBook OrderBook.nextOrderId).matching config.matchingEngine
    exchange.book.globals.nextOrderId qty eventTime clear
  unfold restVenueQty
  dsimp only
  rw [matched]
  dsimp only
  split <;> rfl

variable (env config) in
/-- What crosses nothing rests on Hyperliquid as it was offered. -/
theorem restTimestamped_of_beyond {qty : Int} (eventTimeNs : Nat) (positive : 0 < qty)
    (clear : exchange.ledger.Beyond (toBookSide side).opposite price) :
    exchange.restTimestamped env config side price qty eventTimeNs =
      ([], (exchange.onBook OrderBook.nextOrderId).onBook fun book => book.addL3Order
        exchange.book.globals.nextOrderId (toBookSide side) price qty eventTimeNs 0 0 true) := by
  have matched := @matchFeed_of_beyond β _ env 0 side price
    (exchange.onBook OrderBook.nextOrderId).matching config.matchingEngine
    exchange.book.globals.nextOrderId qty eventTimeNs clear
  unfold restTimestamped
  dsimp only
  rw [matched]
  dsimp only
  rw [if_pos positive]

variable (env config) in
/-- What rests on Coinbase without crossing adds to its level, and to no other. -/
theorem restVenueQty_phantomQty {qty : Int} (eventTime : Nat) (isLast : Bool)
    (inv : exchange.ledger.Represents .none) (current : ¬ Regresses exchange.book.l3 seqNum)
    (nonneg : 0 ≤ qty) (clear : exchange.ledger.Beyond (toBookSide side).opposite price)
    (otherSide : BookSide) (other : Int) :
    (exchange.restVenueQty env config side price qty eventTime seqNum isLast).2.2.book.phantomQtyAt
        otherSide other =
      exchange.book.phantomQtyAt otherSide other +
        if toBookSide side = otherSide ∧ price = other then qty else 0 := by
  rw [restVenueQty_of_beyond env config eventTime seqNum isLast clear]
  by_cases some : qty ≠ 0
  · rw [if_pos some]
    exact addBookOrder_phantomQtyAt isLast inv current (by omega) otherSide other
  · rw [if_neg some, not_not.mp some, ite_self, add_zero]
    rfl

variable (env config) in
/-- On Coinbase an update of a level that is missing rests the venue's quantity. -/
theorem restVenueQty_phantomQtyAt {qty : Int} (eventTime : Nat) (isLast : Bool)
    (inv : exchange.ledger.Represents .none) (current : ¬ Regresses exchange.book.l3 seqNum)
    (nonneg : 0 ≤ qty) (clear : exchange.ledger.Beyond (toBookSide side).opposite price)
    (missing : OrderBookL3.getLevel exchange.book.l3 (toBookSide side) price = none) :
    (exchange.restVenueQty env config side price qty eventTime seqNum isLast).2.2.book.phantomQtyAt
      (toBookSide side) price = qty := by
  rw [restVenueQty_phantomQty env config eventTime isLast inv current nonneg clear,
    phantomQtyAt_eq_zero missing, if_pos ⟨rfl, rfl⟩, zero_add]

variable (env config) in
/-- What rests on Hyperliquid without crossing adds to its level, and to no other. -/
theorem restTimestamped_phantomQty {qty : Int} (eventTimeNs : Nat)
    (inv : exchange.ledger.Represents .none) (positive : 0 < qty)
    (clear : exchange.ledger.Beyond (toBookSide side).opposite price) (otherSide : BookSide) (other : Int) :
    (exchange.restTimestamped env config side price qty eventTimeNs).2.book.phantomQtyAt otherSide other =
      exchange.book.phantomQtyAt otherSide other +
        if toBookSide side = otherSide ∧ price = other then qty else 0 := by
  let order : BookOrder :=
    { orderId := exchange.book.globals.nextOrderId, side := toBookSide side, price, quantity := qty
      priority := effectivePriority 0 eventTimeNs }
  rw [restTimestamped_of_beyond env config eventTimeNs positive clear]
  exact @OrderBook.addL3Order_phantomQtyAt β _ exchange.book.nextOrderId 0 eventTimeNs 0 true order
    (fun stale => stale.1.false) (nextOrderId_absent inv)
    (Ledger.owner_eq_none_of_not_owned inv (nextOrderId_foreign inv)) positive rfl otherSide other

variable (env config) in
/-- On Hyperliquid likewise. -/
theorem restTimestamped_phantomQtyAt {qty : Int} (eventTimeNs : Nat)
    (inv : exchange.ledger.Represents .none) (positive : 0 < qty)
    (clear : exchange.ledger.Beyond (toBookSide side).opposite price)
    (missing : OrderBookL3.getLevel exchange.book.l3 (toBookSide side) price = none) :
    (exchange.restTimestamped env config side price qty eventTimeNs).2.book.phantomQtyAt
      (toBookSide side) price = qty := by
  rw [restTimestamped_phantomQty env config eventTimeNs inv positive clear, phantomQtyAt_eq_zero missing,
    if_pos ⟨rfl, rfl⟩, zero_add]

/-! ## The law -/

/-- What a venue that reports levels brings: sides it knows, and no orders to mirror. -/
def ByLevel (_ : Exchange β) (input : Input) : Prop :=
  input.Sided ∧
    match input with
    | .marketOrder _ | .marketTrade _ => False
    | _ => True

instance (exchange : Exchange β) (input : Input) : Decidable (exchange.ByLevel input) :=
  match input with
  | .marketOrder _ | .marketTrade _ => isFalse And.right
  | .newOrder .. | .amend .. | .cancel .. | .level2Snapshot .. | .coinbaseEvent .. | .l2Snapshot ..
  | .l2Diff .. | .trades .. | .flushMarketEvents | .subscribe .. | .subscribeServed | .elsewhere .. =>
      inferInstanceAs (Decidable (Input.Sided _ ∧ True))

/-- The states a level update can meet: those between inputs, and those inside a diff. -/
inductive Updatable (env : Environment) (config : SymbolConfig) : Exchange β → Prop
  | settled {exchange : Exchange β} (reachable : Reachable env config ByLevel exchange) :
      Updatable env config exchange
  | updated {exchange : Exchange β} (earlier : Updatable env config exchange) {side : Side}
      (known : side ≠ .unknownSide) (price targetQty : Int) (eventTimeNs : Nat) :
      Updatable env config (exchange.applyPhantomLevelUpdate env config side price targetQty eventTimeNs)
  | mirrored {exchange : Exchange β} (earlier : Updatable env config exchange) (side : BookSide)
      (prices : List Int) : Updatable env config (exchange.setRefLevels side prices)

theorem Updatable.invariant (updatable : Updatable env config exchange) :
    exchange.ledger.Represents .none ∧ exchange.ledger.Totalled ∧ exchange.CreditsKept := by
  induction updatable with
  | settled reachable =>
      obtain ⟨inv, totalled⟩ := reachable.represents
      exact ⟨inv, totalled, reachable.creditsKept fun _ _ allowed => allowed.1⟩
  | @updated exchange earlier side known price targetQty eventTimeNs ih =>
      obtain ⟨inv, totalled, kept⟩ := ih
      have free : exchange.LevelJoin .all side price targetQty eventTimeNs := by
        unfold LevelJoin
        split
        · intro _ _ _ _ _ _ _ _
          trivial
        · intro _ _ _ _ _ _ _
          trivial
      have run := applyPhantomLevelUpdate_run env config side price targetQty eventTimeNs inv free
      exact ⟨run.represents inv, run.micros.totalled inv totalled,
        kept.applyPhantomLevelUpdate env config known price targetQty eventTimeNs⟩
  | mirrored earlier side prices ih =>
      obtain ⟨inv, totalled, kept⟩ := ih
      exact ⟨inv, totalled, kept.of_record rfl⟩

/-- An update that finds something to trade with on the other side. -/
def Crosses (exchange : Exchange β) (side : Side) (price : Int) : Prop :=
  ∃ order ∈ restingOrders exchange.book.l3 (toBookSide side).opposite,
    beyondLimit (toBookSide side).opposite order.price price = false

instance (side : Side) (price : Int) : Decidable (exchange.Crosses side price) :=
  inferInstanceAs (Decidable (∃ order ∈ _, _))

private theorem beyond_of_not_crosses (clear : ¬ exchange.Crosses side price) :
    exchange.ledger.Beyond (toBookSide side).opposite price := by
  apply MatchState.beyond_of_queue
  intro order member
  cases beyond : beyondLimit (toBookSide side).opposite order.price price with
  | true => rfl
  | false => exact absurd ⟨order, member, beyond⟩ clear

/-- The update leaves its target less what the later prints have removed. -/
def LeavesUnremoved (exchange after : Exchange β) (side : BookSide) (price targetQty : Int) (asOf : Nat) :
    Prop :=
  after.book.phantomQtyAt side price =
    max 0 (targetQty - removedSince side price asOf exchange.venueLog)

/-- When an update finds its level, the credits still held must be what was removed, or
both must use up the target. When it does not, nothing may have been removed. -/
def CreditsTell (exchange : Exchange β) (side : BookSide) (price targetQty : Int) (asOf : Nat) : Prop :=
  let removed := removedSince side price asOf exchange.venueLog
  let credited := creditedQty side price exchange.venueLog asOf
  let level := OrderBookL3.getLevel exchange.book.l3 side price
  level.isSome ∧ (credited = removed ∨ targetQty ≤ credited ∧ targetQty ≤ removed) ∨
    level.isNone ∧ (removed = 0 ∨ targetQty ≤ 0)

instance (side : BookSide) (price targetQty : Int) (asOf : Nat) :
    Decidable (exchange.CreditsTell side price targetQty asOf) :=
  inferInstanceAs (Decidable (_ ∧ (_ ∨ _ ∧ _) ∨ _ ∧ (_ ∨ _)))

/-- An update of a level that is there, with what it holds in credits. -/
private theorem leavesUnremoved_of_level {after : Exchange β} {bookSide : BookSide} {targetQty : Int}
    {asOf : Nat} {level : PriceLevelL3}
    (found : OrderBookL3.getLevel exchange.book.l3 bookSide price = some level)
    (leaves : after.book.phantomQtyAt bookSide price =
      max 0 (targetQty - creditedQty bookSide price exchange.venueLog asOf)) :
    exchange.LeavesUnremoved after bookSide price targetQty asOf ↔
      exchange.CreditsTell bookSide price targetQty asOf := by
  unfold LeavesUnremoved CreditsTell
  dsimp only
  rw [leaves, found]
  simp only [Option.isSome_some, Option.isNone_some, true_and, Bool.false_eq_true, false_and, or_false]
  omega

private theorem leavesUnremoved_of_missing {after : Exchange β} {bookSide : BookSide} {targetQty : Int}
    {asOf : Nat} (missing : OrderBookL3.getLevel exchange.book.l3 bookSide price = none)
    (nonneg : 0 ≤ removedSince bookSide price asOf exchange.venueLog)
    (leaves : after.book.phantomQtyAt bookSide price = max 0 targetQty) :
    exchange.LeavesUnremoved after bookSide price targetQty asOf ↔
      exchange.CreditsTell bookSide price targetQty asOf := by
  unfold LeavesUnremoved CreditsTell
  dsimp only
  rw [leaves, missing]
  simp only [Option.isSome_none, Option.isNone_none, true_and, Bool.false_eq_true, false_and, false_or]
  omega

variable (env config) in
private theorem applyPhantomLevelUpdate_leaves {targetQty : Int} {eventTimeNs : Nat}
    (inv : exchange.ledger.Represents .none) (totalled : exchange.ledger.Totalled)
    (kept : exchange.CreditsKept) (known : side ≠ .unknownSide) (priced : price ≠ nullPrice)
    (clear : ¬ exchange.Crosses side price) :
    exchange.LeavesUnremoved (exchange.applyPhantomLevelUpdate env config side price targetQty eventTimeNs)
        (toBookSide side) price targetQty eventTimeNs ↔
      exchange.CreditsTell (toBookSide side) price targetQty eventTimeNs := by
  have clear := beyond_of_not_crosses clear
  cases found : OrderBookL3.getLevel exchange.book.l3 (toBookSide side) price with
  | none =>
      refine leavesUnremoved_of_missing found (removedSince_nonneg kept.taken _ priced _) ?_
      unfold applyPhantomLevelUpdate
      rw [found]
      dsimp only
      split <;> rename_i nothing
      · rw [phantomQtyAt_eq_zero found]
        omega
      · show OrderBook.phantomQtyAt (MatchState.book (publishTradeSummaries _ _).matching) _ _ = _
        rw [publishTradeSummaries_matching]
        refine (restTimestamped_phantomQtyAt env config eventTimeNs inv (by omega) clear found).trans ?_
        omega
  | some level =>
      refine leavesUnremoved_of_level found ?_
      rw [← kept.held _ _ priced, ← (takeTradedQty_held known kept.positive).1]
      unfold applyPhantomLevelUpdate
      rw [found]
      exact (reconcilePhantomQty_phantomQty targetQty eventTimeNs true inv totalled
        (fun stale => stale.1.false) kept.positive (apart_of_beyond clear) found _ _).trans (if_pos ⟨rfl, rfl⟩)

variable (env config) in
private theorem dispatchEvent_leaves {event : CoinbaseEvent} (isLevel : event.type = .levelUpdate)
    (inv : exchange.ledger.Represents .none) (totalled : exchange.ledger.Totalled)
    (kept : exchange.CreditsKept) (known : event.side ≠ .unknownSide) (priced : event.price ≠ nullPrice)
    (later : exchange.book.lastUpdateTime ≤ event.eventTime)
    (clear : ¬ exchange.Crosses event.side event.price) :
    exchange.LeavesUnremoved (exchange.dispatchEvent env config event) (toBookSide event.side) event.price
        event.qty event.eventTime ↔
      exchange.CreditsTell (toBookSide event.side) event.price event.qty event.eventTime := by
  have clear := beyond_of_not_crosses clear
  have current := nextBookSeqNum_current exchange
  have sameBook : exchange.nextBookSeqNum.2.book = exchange.book := rfl
  have placed : ∀ hadLevel, hadLevel =
        (OrderBookL3.getLevel exchange.book.l3 (toBookSide event.side) event.price).isSome →
      (exchange.dispatchEvent env config event).book.phantomQtyAt (toBookSide event.side) event.price =
      (exchange.nextBookSeqNum.2.placeVenueLevel env config event exchange.nextBookSeqNum.1
        hadLevel).2.book.phantomQtyAt (toBookSide event.side) event.price := by
    rintro hadLevel rfl
    unfold dispatchEvent
    dsimp only
    rw [isLevel]
    dsimp only
    unfold dispatchLevelUpdate
    rw [if_neg (by rw [sameBook]; omega)]
    dsimp only
    show OrderBook.phantomQtyAt (MatchState.book (bufferLevelRow _ _ _ _ _).matching) _ _ = _
    rw [bufferLevelRow_matching]
    rfl
  cases found : OrderBookL3.getLevel exchange.book.l3 (toBookSide event.side) event.price with
  | none =>
      refine leavesUnremoved_of_missing found (removedSince_nonneg kept.taken _ priced _) ?_
      rw [placed false (by rw [found]; rfl)]
      unfold placeVenueLevel
      rw [if_pos rfl]
      show OrderBook.phantomQtyAt (MatchState.book (flushMarketDataCaches _).matching) _ _ = _
      rw [flushMarketDataCaches_matching, publishTradeSummaries_matching]
      refine (@restVenueQty_phantomQtyAt β _ env config exchange.nextBookSeqNum.2
        exchange.nextBookSeqNum.1 event.side event.price event.qty event.eventTime event.flags.endEvent inv
        current event.qty_nonneg clear found).trans ?_
      have := event.qty_nonneg
      omega
  | some level =>
      refine leavesUnremoved_of_level found ?_
      have credited := (@takeTradedQty_held β exchange.nextBookSeqNum.2 event.side event.price
        event.eventTime known kept.positive).1
      rw [placed true (by rw [found]; rfl), ← kept.held _ _ priced]
      unfold placeVenueLevel
      rw [if_neg (by simp)]
      refine (@reconcilePhantomQty_phantomQty β _ exchange.nextBookSeqNum.2 _ event.side event.price level
        event.qty event.eventTime event.flags.endEvent inv totalled current kept.positive
        (apart_of_beyond clear) found _ _).trans ((if_pos ⟨rfl, rfl⟩).trans ?_)
      rw [credited]
      rfl

/-- An update that is in time and does not cross leaves what it should exactly when the
credits tell what was removed. -/
theorem levelUpdate_leavesUnremoved_iff (updatable : Updatable env config exchange) :
    (∀ event : CoinbaseEvent, event.type = .levelUpdate → event.side ≠ .unknownSide →
      event.price ≠ nullPrice → exchange.book.lastUpdateTime ≤ event.eventTime →
      ¬ exchange.Crosses event.side event.price →
      (exchange.LeavesUnremoved (exchange.dispatchEvent env config event) (toBookSide event.side)
          event.price event.qty event.eventTime ↔
        exchange.CreditsTell (toBookSide event.side) event.price event.qty event.eventTime)) ∧
    ∀ (side : Side) (price targetQty : Int) (eventTimeNs : Nat), side ≠ .unknownSide →
      price ≠ nullPrice → exchange.book.lastUpdateTime ≤ eventTimeNs → ¬ exchange.Crosses side price →
      (exchange.LeavesUnremoved
          (exchange.applyPhantomLevelUpdate env config side price targetQty eventTimeNs) (toBookSide side)
          price targetQty eventTimeNs ↔
        exchange.CreditsTell (toBookSide side) price targetQty eventTimeNs) := by
  obtain ⟨inv, totalled, kept⟩ := updatable.invariant
  constructor
  · intro event isLevel known priced later clear
    exact dispatchEvent_leaves env config isLevel inv totalled kept known priced later clear
  · intro side price targetQty eventTimeNs known priced _ clear
    exact applyPhantomLevelUpdate_leaves env config inv totalled kept known priced clear

/-- An offered level of 5, and a print that buys some of it. -/
private def printed (taken : Int) (nonneg : 0 ≤ taken) : List Input :=
  [.level2Snapshot 1
      [{ side := .sell, price := 103, newQuantity := 5, eventTime := 1, newQuantity_nonneg := by decide }],
    .coinbaseEvent
      { type := .trade, eventTime := 9, seqNum := 2, price := 103, qty := taken, side := .buy
        flags := {}, qty_nonneg := nonneg }]

/-- The venue's figure for the level from before the print. -/
private def outdated : CoinbaseEvent :=
  { type := .levelUpdate, eventTime := 5, seqNum := 3, price := 103, qty := 5, side := .sell
    flags := {}, qty_nonneg := by decide }

/-- A print of 3, then the venue's 5 from before it: the level is left at 2. -/
theorem levelUpdate_leavesUnremoved_printed :
    let exchange := (Exchange.new (fun _ => default) true : Exchange ReferenceBook).run
      (.counted fun _ => default) (.reference .cancelResting) (printed 3 (by decide))
    let after := exchange.dispatchEvent (.counted fun _ => default) (.reference .cancelResting) outdated
    after.book.phantomQtyAt .sell 103 = 2 ∧ exchange.LeavesUnremoved after .sell 103 5 5 := by
  have start : Reachable (.counted fun _ => default) (.reference .cancelResting) ByLevel
      (Exchange.new (fun _ => default) true : Exchange ReferenceBook) := .new _ _
  refine ⟨by decide +kernel, ?_⟩
  refine ((levelUpdate_leavesUnremoved_iff (.settled (start.run (by decide +kernel)))).1 outdated rfl
    (by decide) (by decide) (by decide +kernel) (by decide +kernel)).mpr ?_
  decide +kernel

/-- A print that empties the level, then the venue's 5 from before it: the update does
not find the level and rests all of it again. -/
theorem levelUpdate_rests_raw :
    let exchange := (Exchange.new (fun _ => default) true : Exchange ReferenceBook).run
      (.counted fun _ => default) (.reference .cancelResting) (printed 5 (by decide))
    let after := exchange.dispatchEvent (.counted fun _ => default) (.reference .cancelResting) outdated
    Updatable (.counted fun _ => default) (.reference .cancelResting) exchange ∧
      exchange.book.lastUpdateTime ≤ outdated.eventTime ∧ ¬ exchange.Crosses .sell 103 ∧
      removedSince .sell 103 5 exchange.venueLog = 5 ∧ after.book.phantomQtyAt .sell 103 = 5 ∧
      ¬ exchange.LeavesUnremoved after .sell 103 5 5 := by
  have start : Reachable (.counted fun _ => default) (.reference .cancelResting) ByLevel
      (Exchange.new (fun _ => default) true : Exchange ReferenceBook) := .new _ _
  refine ⟨.settled (start.run (by decide +kernel)), by decide +kernel, by decide +kernel,
    by decide +kernel, by decide +kernel, ?_⟩
  unfold LeavesUnremoved
  decide +kernel

end Exchange

end SlickSim
