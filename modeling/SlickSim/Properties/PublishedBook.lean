import SlickSim.OrderBook.Reference
import SlickSim.Exchange.Trail
import SlickSim.Ledger.PhantomLevels
import SlickSim.Ledger.Trails

/-!
# Published data reconstructs the book

What was published and what the caches still hold is all the observers were told.
Replayed from nothing it gives the orders and the levels of the book.
-/

set_option autoImplicit false

namespace SlickSim

open OrderBookL3 (restingOrders)

/-- What is left of a level that was told a quantity. -/
def heldQty (told : Option Int) : Option Int :=
  told.bind fun qty => if qty = 0 then none else some qty

theorem replayLevels_append (first later : List MDLevel) (levels : BookSide → Int → Option Int) :
    replayLevels (first ++ later) levels = replayLevels later (replayLevels first levels) :=
  List.foldl_append ..

/-- The flags of a row are nothing to a subscriber. -/
theorem replayLevels_unflagged (rows : List MDLevel) (levels : BookSide → Int → Option Int) :
    replayLevels (rows.map MDLevel.unflagged) levels = replayLevels rows levels :=
  List.foldl_map ..

/-- A subscriber holds what a level was last told, or what it held before. -/
theorem replayLevels_told (told : Nat) (updates : List PriceLevelUpdate)
    (levels : BookSide → Int → Option Int) (side : BookSide) (price : Int) :
    replayLevels (OrderBook.cacheLevelUpdates told updates) levels side price =
      match toldQty updates side price with
      | none => levels side price
      | some qty => heldQty (some qty) := by
  induction updates using List.reverseRecOn with
  | nil => rfl
  | append_singleton earlier update ih =>
      rw [OrderBook.cacheLevelUpdates_append, replayLevels_append, toldQty_append]
      show MDLevel.apply (replayLevels _ levels) (OrderBook.cacheLevelUpdate _ update) side price = _
      unfold MDLevel.apply toldQty OrderBook.cacheLevelUpdate
      dsimp only
      rw [toBookSide_ofBookSide]
      by_cases here : update.side = side ∧ update.price = price
      · rw [if_pos ⟨here.1.symm, here.2.symm⟩, List.filter_cons_of_pos (by simpa using here)]
        rfl
      · rw [if_neg (fun same => here ⟨same.1.symm, same.2.symm⟩), List.filter_cons_of_neg (by simpa using here),
          ih]
        rfl

/-- An input of a symbol whose venue is mirrored order by order. -/
def Input.Mirrors : Input → Prop
  | .newOrder .. | .amend .. | .cancel .. | .marketOrder .. | .marketTrade .. | .flushMarketEvents
  | .subscribe .. | .subscribeServed | .elsewhere .. => True
  | .level2Snapshot .. | .coinbaseEvent .. | .l2Snapshot .. | .l2Diff .. | .trades .. => False

instance (input : Input) : Decidable input.Mirrors :=
  match input with
  | .newOrder .. | .amend .. | .cancel .. | .marketOrder .. | .marketTrade .. | .flushMarketEvents
  | .subscribe .. | .subscribeServed | .elsewhere .. => isTrue trivial
  | .level2Snapshot .. | .coinbaseEvent .. | .l2Snapshot .. | .l2Diff .. | .trades .. => isFalse id

namespace Exchange

variable {β : Type} [OrderBookL3 β] {before after exchange : Exchange β} {env : Environment}
  {config : SymbolConfig} {input : Input}

/-- All the observers were told is published or waits in the caches. -/
structure Told (exchange : Exchange β) : Prop where
  levels : (exchange.publishedLevels ++ exchange.book.mdLevelUpdateCache).map MDLevel.unflagged =
    (OrderBook.cacheLevelUpdates 0 exchange.book.levelTrail).map MDLevel.unflagged
  orders : exchange.publishOrderUpdates = true →
    exchange.publishedOrders ++ exchange.book.mdOrderUpdateCache =
      exchange.book.orderTrail.map OrderBook.cacheOrderUpdate
  exact : ∀ side price, (toldQty exchange.book.levelTrail side price).getD 0 =
    levelQty (restingOrders exchange.book.l3 side) price

theorem Told.quiet (told : before.Told) (quiet : before.Quiet after) : after.Told := by
  obtain ⟨levels, orders, more⟩ := quiet.tells
  constructor
  · rw [quiet.levels, List.map_append, more.levelCache, ← List.map_append, ← List.append_assoc,
      List.map_append, told.levels, more.levelTrail, OrderBook.cacheLevelUpdates_append, List.map_append,
      Nat.zero_add]
  · intro publishes
    rw [quiet.orders, more.orderCache, ← List.append_assoc, told.orders (quiet.publishes ▸ publishes),
      more.orderTrail, List.map_append]
  · intro side price
    rw [more.levelTrail, toldQty_append, ← more.exact, ← told.exact]
    cases toldQty levels side price <;> rfl

theorem Told.flush (told : exchange.Told) : exchange.flushMarketDataCaches.Told := by
  have same : exchange.flushMarketDataCaches.book = exchange.book.clearCaches := by
    unfold flushMarketDataCaches
    dsimp only
    split <;> split <;> rfl
  constructor
  · rw [flushMarketDataCaches_publishedLevels, same]
    exact (congrArg _ (List.append_nil _)).trans told.levels
  · intro publishes
    have publishing : exchange.publishOrderUpdates = true := by
      rw [← publishes]
      unfold flushMarketDataCaches
      dsimp only
      split <;> split <;> rfl
    rw [flushMarketDataCaches_publishedOrders _ publishing, same]
    exact (List.append_nil _).trans (told.orders publishing)
  · rw [same]
    exact told.exact

theorem Told.flushes (told : before.Told) (done : before.Quiet after ∨ before.Flushes after) : after.Told := by
  rcases done with quiet | ⟨between, quiet, rfl⟩
  · exact told.quiet quiet
  · exact (told.quiet quiet).flush

theorem Told.step (told : exchange.Told) (mirrors : input.Mirrors) : (exchange.step env config input).Told := by
  cases input with
  | newOrder header msg => exact told.flushes (handleNewOrderRequest_flushes ..)
  | amend header msg => exact told.flushes (handleModifyOrderRequest_flushes ..)
  | cancel header msg => exact told.flushes (handleCancelOrderRequest_flushes ..)
  | marketOrder event => exact told.quiet (applyMarketOrder_quiet ..)
  | marketTrade event => exact told.quiet (replayMarketTrade_quiet ..)
  | flushMarketEvents =>
      show exchange.flushMarketEvents.Told
      unfold flushMarketEvents
      split
      · exact ⟨told.flush.levels, told.flush.orders, told.flush.exact⟩
      · exact told
  | subscribe level2 l2Book l2 => exact ⟨told.levels, told.orders, told.exact⟩
  | subscribeServed => exact told.quiet (populateL2SubscriptionResponse_quiet _)
  | elsewhere draws => exact told.quiet (.onBook (.of_observed rfl))
  | level2Snapshot seqNum updates => exact mirrors.elim
  | coinbaseEvent event => exact mirrors.elim
  | l2Snapshot snapshot => exact mirrors.elim
  | l2Diff diff => exact mirrors.elim
  | trades trades => exact mirrors.elim

theorem Reachable.told (reachable : Reachable env config (fun _ input => input.Mirrors) exchange) :
    exchange.Told := by
  induction reachable with
  | new pool publishOrderUpdates =>
      refine ⟨rfl, fun _ => rfl, ?_⟩
      intro side price
      show 0 = levelQty (restingOrders OrderBookL3.empty side) price
      rw [OrderBookL3.empty_restingOrders]
      rfl
  | step earlier input admitted mirrors ih => exact ih.step mirrors

/-- Whenever the caches are empty, the published frames replayed from nothing always fit
and give the orders and the levels of the book. -/
theorem frames_reconstruct (reachable : Reachable env config (fun _ input => input.Mirrors) exchange)
    (publishes : exchange.publishOrderUpdates = true)
    (noLevels : exchange.book.mdLevelUpdateCache = []) (noOrders : exchange.book.mdOrderUpdateCache = []) :
    replayOrders exchange.publishedOrders (fun _ => none) = some (OrderBookL3.findOrder exchange.book.l3) ∧
      ∀ side price, replayLevels exchange.publishedLevels (fun _ _ => none) side price =
        (OrderBookL3.getLevel exchange.book.l3 side price).map PriceLevelL3.totalQuantity := by
  have told := reachable.told
  obtain ⟨inv, -⟩ := reachable.represents
  constructor
  · have rows := told.orders publishes
    rw [noOrders, List.append_nil] at rows
    rw [rows]
    exact reachable.retold
  · intro side price
    have rows := told.levels
    rw [noLevels, List.append_nil] at rows
    have positive : ∀ order ∈ restingOrders exchange.book.l3 side, 0 < order.quantity :=
      fun order member => inv.agrees.positive (OrderBookL3.findOrder_of_mem member)
    rw [getLevel_totalQuantity positive, ← replayLevels_unflagged, rows, replayLevels_unflagged,
      replayLevels_told, ← told.exact]
    cases toldQty exchange.book.levelTrail side price <;> rfl

/-- A client takes part of a mirrored offer and all of another, the venue reports both
again, one of them requeued, and the packet is flushed. -/
theorem frames_reconstruct_restored :
    let offer (id priority : Nat) (qty : Int) (nonneg : 0 ≤ qty) (action : MDUpdateAction) (requeue : Bool) :=
      Input.marketOrder
        { bookOrderId := id, bookPriority := priority, price := 100, transactTime := 7, qty, side := .sell
          action, requeue, qty_nonneg := nonneg }
    let exchange := (Exchange.new (fun _ => default) true : Exchange ReferenceBook).run
      (.counted fun _ => default) (.reference .cancelResting)
      [.elsewhere { nextPriority := 3, nextOrderId := 2, nextTradeId := 0, uuidDraws := 0, clockReads := 0 },
        offer 1 1 4 (by decide) .new false, offer 2 2 5 (by decide) .new false, .limit 1 .buy 100 6,
        offer 1 1 4 (by decide) .change false, offer 2 3 5 (by decide) .change true, .flushMarketEvents]
    replayOrders exchange.publishedOrders (fun _ => none) = some (OrderBookL3.findOrder exchange.book.l3) ∧
      ∀ side price, replayLevels exchange.publishedLevels (fun _ _ => none) side price =
        (OrderBookL3.getLevel exchange.book.l3 side price).map PriceLevelL3.totalQuantity := by
  have start : Reachable (.counted fun _ => default) (.reference .cancelResting) (fun _ input => input.Mirrors)
      (Exchange.new (fun _ => default) true : Exchange ReferenceBook) := .new _ _
  exact frames_reconstruct (start.run (by decide +kernel)) (by decide +kernel) (by decide +kernel)
    (by decide +kernel)

end Exchange

end SlickSim
