import SlickSim.Exchange.Symbol

/-!
# What a book tells

Whatever the engines do to a book, the observers are told level by level and order
by order, and the two caches hold what they were told and was not published yet.
-/

set_option autoImplicit false

namespace SlickSim

open OrderBookL3 (restingOrders)

/-- A row without its flags, which `Symbol::addOrder` sets after the fact. -/
def MDLevel.unflagged (row : MDLevel) : MDLevel :=
  { row with flags := {} }

theorem closeEvent_unflagged (rows : List MDLevel) :
    (closeEvent rows).map MDLevel.unflagged = rows.map MDLevel.unflagged := by
  induction rows with
  | nil => rfl
  | cons row rest ih =>
      cases rest with
      | nil => rfl
      | cons next others =>
          unfold closeEvent
          rw [List.map_cons, ih, List.map_cons, List.map_cons, List.map_cons]

theorem toldQty_append (first later : List PriceLevelUpdate) (side : BookSide) (price : Int) :
    toldQty (first ++ later) side price = (toldQty later side price).or (toldQty first side price) := by
  unfold toldQty
  rw [List.filter_append, List.getLast?_append]
  cases (later.filter fun update => update.side = side ∧ update.price = price).getLast? <;> rfl

namespace OrderBook

theorem cacheLevelUpdates_append (told : Nat) (first later : List PriceLevelUpdate) :
    cacheLevelUpdates told (first ++ later) =
      cacheLevelUpdates told first ++ cacheLevelUpdates (told + first.length) later := by
  induction first generalizing told with
  | nil => rfl
  | cons update rest ih =>
      rw [List.cons_append, cacheLevelUpdates, ih, cacheLevelUpdates, List.length_cons, List.cons_append]
      rw [show told + 1 + rest.length = told + (rest.length + 1) by omega]

variable {β : Type} [OrderBookL3 β] {first second third : OrderBook β}

/-- Between two books the observers were told these updates, and cached them. -/
structure Told (levels : List PriceLevelUpdate) (orders : List OrderUpdate) (before after : OrderBook β) :
    Prop where
  levelTrail : after.levelTrail = before.levelTrail ++ levels
  orderTrail : after.orderTrail = before.orderTrail ++ orders
  levelCache : after.mdLevelUpdateCache.map MDLevel.unflagged =
    (before.mdLevelUpdateCache ++ cacheLevelUpdates before.levelTrail.length levels).map MDLevel.unflagged
  orderCache : after.mdOrderUpdateCache = before.mdOrderUpdateCache ++ orders.map cacheOrderUpdate
  exact : ∀ side price, (toldQty levels side price).getD (levelQty (restingOrders before.l3 side) price) =
    levelQty (restingOrders after.l3 side) price

/-- One book comes from another, and all that changed was told. -/
def Tells (before after : OrderBook β) : Prop :=
  ∃ levels orders, Told levels orders before after

theorem Told.trans {levels laterLevels : List PriceLevelUpdate} {orders laterOrders : List OrderUpdate}
    (left : Told levels orders first second) (right : Told laterLevels laterOrders second third) :
    Told (levels ++ laterLevels) (orders ++ laterOrders) first third where
  levelTrail := by rw [right.levelTrail, left.levelTrail, List.append_assoc]
  orderTrail := by rw [right.orderTrail, left.orderTrail, List.append_assoc]
  levelCache := by
    rw [right.levelCache, List.map_append, left.levelCache, left.levelTrail, List.length_append,
      cacheLevelUpdates_append, ← List.map_append, List.append_assoc]
  orderCache := by rw [right.orderCache, left.orderCache, List.map_append, List.append_assoc]
  exact := by
    intro side price
    rw [toldQty_append, ← right.exact, ← left.exact]
    cases toldQty laterLevels side price <;> rfl

def observed (book : OrderBook β) :
    β × List PriceLevelUpdate × List OrderUpdate × List MDLevel × List MDOrder :=
  (book.l3, book.levelTrail, book.orderTrail, book.mdLevelUpdateCache.map MDLevel.unflagged,
    book.mdOrderUpdateCache)

theorem Told.of_observed (same : second.observed = first.observed) : Told [] [] first second := by
  unfold observed at same
  obtain ⟨sameL3, sameLevels, sameOrders, sameLevelCache, sameOrderCache⟩ : second.l3 = first.l3 ∧
      second.levelTrail = first.levelTrail ∧ second.orderTrail = first.orderTrail ∧
      second.mdLevelUpdateCache.map MDLevel.unflagged = first.mdLevelUpdateCache.map MDLevel.unflagged ∧
      second.mdOrderUpdateCache = first.mdOrderUpdateCache := by
    simpa only [Prod.mk.injEq] using same
  constructor
  · rw [sameLevels, List.append_nil]
  · rw [sameOrders, List.append_nil]
  · rw [sameLevelCache, cacheLevelUpdates, List.append_nil]
  · rw [sameOrderCache, List.map_nil, List.append_nil]
  · intro side price
    rw [sameL3]
    rfl

namespace Tells

theorem refl (book : OrderBook β) : book.Tells book :=
  ⟨_, _, .of_observed rfl⟩

theorem trans (left : first.Tells second) (right : second.Tells third) : first.Tells third := by
  obtain ⟨levels, orders, told⟩ := left
  obtain ⟨laterLevels, laterOrders, later⟩ := right
  exact ⟨_, _, told.trans later⟩

theorem of_observed (same : second.observed = first.observed) : first.Tells second :=
  ⟨_, _, .of_observed same⟩

theorem quiet (left : first.Tells second) (same : third.observed = second.observed) : first.Tells third :=
  left.trans (.of_observed same)

theorem since (run : second.Tells third) (same : second.observed = first.observed) : first.Tells third :=
  (of_observed same).trans run

end Tells

/-! ## Mutators -/

omit [OrderBookL3 β] in
theorem onOrderUpdate_observed (book : OrderBook β) (update : OrderUpdate) :
    (book.onOrderUpdate update).observed = book.observed := by
  unfold onOrderUpdate
  split
  · rfl
  · split <;> rfl

theorem absorb_told {book : OrderBook β} {result : L3Result β} {id : Nat}
    (tells : result.TellsLevels restingOrders book.l3 id) :
    Told result.levelUpdates result.orderUpdates book (book.absorb result) := by
  have unseen : ∀ (updates : List OrderUpdate) (start : OrderBook β),
      (updates.foldl onOrderUpdate start).observed = start.observed := by
    intro updates
    induction updates with
    | nil => exact fun _ => rfl
    | cons update rest ih => exact fun start => (ih _).trans (start.onOrderUpdate_observed update)
  have run := Told.of_observed (unseen result.orderUpdates { book with
    l3 := result.book
    mdLevelUpdateCache := book.mdLevelUpdateCache ++
      cacheLevelUpdates book.levelTrail.length result.levelUpdates
    mdOrderUpdateCache := book.mdOrderUpdateCache ++ result.orderUpdates.map cacheOrderUpdate
    joins := book.joins ++ joinedIds result.orderUpdates
    orderTrail := book.orderTrail ++ result.orderUpdates
    levelTrail := book.levelTrail ++ result.levelUpdates })
  have cached : Told result.levelUpdates result.orderUpdates book { book with
    l3 := result.book
    mdLevelUpdateCache := book.mdLevelUpdateCache ++
      cacheLevelUpdates book.levelTrail.length result.levelUpdates
    mdOrderUpdateCache := book.mdOrderUpdateCache ++ result.orderUpdates.map cacheOrderUpdate
    joins := book.joins ++ joinedIds result.orderUpdates
    orderTrail := book.orderTrail ++ result.orderUpdates
    levelTrail := book.levelTrail ++ result.levelUpdates } :=
    ⟨rfl, rfl, rfl, rfl, tells.told⟩
  have both := cached.trans run
  rw [List.append_nil, List.append_nil] at both
  exact both

theorem absorb_tells {book : OrderBook β} {result : L3Result β} {id : Nat}
    (tells : result.TellsLevels restingOrders book.l3 id) : book.Tells (book.absorb result) :=
  ⟨_, _, absorb_told tells⟩

section Mutators

variable (book : OrderBook β) (ref id timestamp priority seqNum : Nat) (side : BookSide) (price qty : Int)
  (isLast : Bool)

omit [OrderBookL3 β] in
theorem dropOrder_observed : (book.dropOrder ref).observed = book.observed := by
  unfold dropOrder
  dsimp only
  split <;> rfl

theorem addL3Order_tells :
    book.Tells (book.addL3Order id side price qty timestamp priority seqNum isLast) := by
  unfold addL3Order
  dsimp only
  refine Tells.trans (.of_observed ?_) (absorb_tells (OrderBookL3.addOrder_tells ..))
  rfl

theorem addOrder_tells : book.Tells (book.addOrder ref timestamp seqNum isLast) := by
  unfold addOrder
  dsimp only
  refine Tells.trans (.of_observed ?_) (absorb_tells (OrderBookL3.addOrder_tells ..))
  rfl

theorem deleteL3Order_tells : book.Tells (book.deleteL3Order id timestamp seqNum isLast) := by
  unfold deleteL3Order
  dsimp only
  refine Tells.trans (.of_observed ?_) (absorb_tells (OrderBookL3.deleteOrder_tells ..))
  rfl

theorem modifyL3Order_tells :
    book.Tells (book.modifyL3Order id price qty timestamp priority seqNum isLast) := by
  unfold modifyL3Order
  dsimp only
  refine Tells.trans (.of_observed ?_) (absorb_tells (OrderBookL3.modifyOrder_tells ..))
  rfl

theorem deleteOrder_tells : book.Tells (book.deleteOrder ref timestamp seqNum isLast) := by
  unfold deleteOrder
  dsimp only
  split
  · exact (deleteL3Order_tells ..).quiet rfl
  · exact deleteL3Order_tells ..

theorem modifyOrder_tells : book.Tells (book.modifyOrder ref price qty timestamp seqNum isLast) := by
  have finishes : ∀ (entered : OrderBook β) (gone : Prop) [Decidable gone] (id priority : Nat)
      (newPrice newQty : Int), entered.observed = book.observed →
      book.Tells (if gone then (entered.modifyL3Order id newPrice newQty timestamp priority seqNum
        isLast).unregisterOrder ref else
          entered.modifyL3Order id newPrice newQty timestamp priority seqNum isLast) := by
    intro entered gone _ id priority newPrice newQty same
    have modified := Tells.trans (.of_observed same)
      (entered.modifyL3Order_tells id timestamp priority seqNum newPrice newQty isLast)
    split
    · exact modified.quiet rfl
    · exact modified
  unfold modifyOrder
  dsimp only
  apply finishes
  cases book.findOrder (book.heap ref).id with
  | none =>
      dsimp only
      split <;> rfl
  | some _ =>
      dsimp only
      split <;> rfl

theorem executeOrder_tells : book.Tells (book.executeOrder id qty timestamp seqNum isLast).2 := by
  unfold executeOrder
  split
  · exact .of_observed rfl
  · cases found : book.findOrder id with
    | none =>
        dsimp only
        refine Tells.trans (.of_observed ?_) (absorb_tells (OrderBookL3.executeOrder_tells ..))
        rfl
    | some ref =>
        dsimp only
        have filled : book.Tells (((book.updateOrder ref fun order =>
            order.execute order.price qty timestamp).noteDeclined ((OrderBookL3.executeOrder book.l3 id qty
              timestamp seqNum isLast).accepted = false)).absorb (OrderBookL3.executeOrder book.l3 id qty
                timestamp seqNum isLast)) := by
          refine Tells.trans (.of_observed ?_) (absorb_tells (OrderBookL3.executeOrder_tells ..))
          rfl
        split
        · exact filled.quiet rfl
        · exact filled

end Mutators

end OrderBook

/-! ## Engines -/

namespace MatchState

variable {β : Type} [OrderBookL3 β] (state : MatchState β) (env : Environment)

open OrderBook (Tells)

theorem reportRestingFill_tells (resting : Option Nat) :
    state.book.Tells (state.reportRestingFill env resting).book := by
  unfold reportRestingFill
  split
  · exact .refl _
  · dsimp only
    split
    · exact (Tells.refl _).quiet (OrderBook.dropOrder_observed ..)
    · exact .of_observed rfl

omit [OrderBookL3 β] in
theorem recordTrade_observed (ctx : MatchContext) (side : BookSide) (aggressorId bookOrderId : Nat)
    (price tradeQty phantomQty : Int) :
    (state.recordTrade ctx side aggressorId bookOrderId price tradeQty phantomQty).2.book.observed =
      state.book.observed := by
  unfold recordTrade
  split <;> rfl

theorem handleSelfMatch_tells (bookRef requestTime eventTime seqNum : Nat)
    (smpMode : SelfMatchPreventionMode) :
    state.book.Tells
      (state.handleSelfMatch env bookRef requestTime eventTime seqNum smpMode).2.book := by
  cases smpMode with
  | none => exact .refl _
  | cancelResting => exact (OrderBook.deleteOrder_tells ..).quiet rfl
  | cancelNewest => exact .refl _

theorem fillResting_tells (ctx : MatchContext) (side : BookSide) (ref bookOrderId : Nat)
    (resting : Option Nat) (price tradeQty remaining : Int) :
    state.book.Tells
      (state.fillResting env ctx side ref bookOrderId resting price tradeQty remaining).2.2.book := by
  unfold fillResting
  dsimp only
  have executed := OrderBook.executeOrder_tells ((state.onBook fun book => book.updateOrder ref fun order =>
    order.execute price tradeQty ctx.eventTime).publishOrderExecution env ref true).book bookOrderId
    ctx.eventTime ctx.seqNum tradeQty (decide (remaining = 0))
  have executed := executed.since (show _ = state.book.observed from rfl)
  split
  · exact executed
  · refine (Tells.trans ?_ (reportRestingFill_tells _ env resting)).quiet (recordTrade_observed ..)
    exact executed

theorem fillRestingFromFeed_tells (ctx : MatchContext) (side : BookSide) (aggressorId bookOrderId : Nat)
    (price tradeQty qty : Int) :
    state.book.Tells
      (state.fillRestingFromFeed env ctx side aggressorId bookOrderId price tradeQty qty).2.2.2.book := by
  unfold fillRestingFromFeed
  dsimp only
  have executed := OrderBook.executeOrder_tells state.book bookOrderId ctx.eventTime ctx.seqNum tradeQty
    (decide (qty - tradeQty = 0))
  split
  · exact executed
  · refine (Tells.trans ?_ (reportRestingFill_tells _ env _)).quiet (recordTrade_observed ..)
    exact executed

theorem prepareOrder_observed (side : BookSide) (reach : Reach) (ref : Nat) (orderPrice orderQty : Int)
    (requestTime : Nat) (smpMode : SelfMatchPreventionMode) :
    (state.prepareOrder env side reach ref orderPrice orderQty requestTime smpMode).2.book.observed =
      state.book.observed := by
  unfold prepareOrder
  dsimp only
  split_ifs <;> rfl

theorem cancelUnrestableRemainder_tells (ref : Nat) (remaining : Int) (requestTime : Nat) :
    state.book.Tells (state.cancelUnrestableRemainder env ref remaining requestTime).book := by
  unfold cancelUnrestableRemainder
  split
  · exact .of_observed rfl
  · exact .refl _

end MatchState

namespace Fifo

variable {β : Type} [OrderBookL3 β] (env : Environment)

open OrderBook (Tells)

theorem matchLoop_tells (side : BookSide) (ref : Nat) (orderPrice : Int) (requestTime : Nat)
    (smpMode : SelfMatchPreventionMode) (fuel : Nat) (ctx : MatchContext) (orderQty : Int)
    (state : MatchState β) :
    state.book.Tells
      (matchLoop env side ref orderPrice requestTime smpMode fuel ctx orderQty state).state.book := by
  induction fuel generalizing ctx orderQty state with
  | zero => exact .refl _
  | succ fuel ih =>
      unfold matchLoop
      split
      · exact .refl _
      · split
        · exact .refl _
        · rename_i level _
          split
          · exact .refl _
          · rename_i bookOrder _ _
            dsimp only
            split
            · have handled := state.handleSelfMatch_tells env
                ((state.book.findOrder bookOrder.orderId).getD 0) requestTime ctx.eventTime ctx.seqNum smpMode
              generalize state.handleSelfMatch env _ requestTime ctx.eventTime ctx.seqNum smpMode = result
                at handled ⊢
              obtain ⟨_ | _, after⟩ := result
              · exact handled
              · exact handled.trans (ih ..)
            · have filled := state.fillResting_tells env ctx side ref bookOrder.orderId
                (state.book.findOrder bookOrder.orderId) level.price (min orderQty bookOrder.quantity)
                (orderQty - min orderQty bookOrder.quantity)
              generalize state.fillResting env ctx side ref bookOrder.orderId _ level.price _ _ = result
                at filled ⊢
              obtain ⟨_ | _, ctx', after⟩ := result
              · exact filled
              · exact filled.trans (ih ..)

theorem feedLoop_tells (side : BookSide) (aggressorId : Nat) (price : Int) (fuel : Nat)
    (ctx : MatchContext) (qty : Int) (state : MatchState β) :
    state.book.Tells (feedLoop env side aggressorId price fuel ctx qty state).state.book := by
  induction fuel generalizing ctx qty state with
  | zero => exact .refl _
  | succ fuel ih =>
      unfold feedLoop
      split
      · exact .refl _
      · split
        · exact .refl _
        · rename_i level _
          split
          · exact .refl _
          · rename_i bookOrder _ _
            have filled := state.fillRestingFromFeed_tells env ctx side aggressorId bookOrder.orderId
              level.price (min qty bookOrder.quantity) qty
            generalize state.fillRestingFromFeed env ctx side aggressorId bookOrder.orderId level.price _ qty =
              result at filled ⊢
            obtain ⟨_ | _, left, ctx', after⟩ := result
            · exact filled
            · exact filled.trans (ih ..)

end Fifo

namespace ProRata

variable {β : Type} [OrderBookL3 β] (env : Environment)

open OrderBook (Tells)

theorem cancelOwn_tells (ref requestTime : Nat) (ctx : MatchContext) (smpMode : SelfMatchPreventionMode)
    (items : List Allocation) (state : MatchState β) :
    state.book.Tells (cancelOwn env ref requestTime ctx smpMode items state).2.book := by
  induction items generalizing state with
  | nil => exact .refl _
  | cons item rest ih =>
      unfold cancelOwn
      split
      · have handled := state.handleSelfMatch_tells env (item.order.getD 0) requestTime ctx.eventTime
          ctx.seqNum smpMode
        generalize state.handleSelfMatch env (item.order.getD 0) requestTime ctx.eventTime ctx.seqNum smpMode =
          result at handled ⊢
        obtain ⟨_ | _, after⟩ := result
        · exact handled
        · dsimp only
          have below := handled.trans (ih after)
          generalize cancelOwn env ref requestTime ctx smpMode rest after = result at below ⊢
          obtain ⟨_ | _, last⟩ := result
          · exact below
          · exact below
      · exact ih state

theorem fillLevel_tells (side : BookSide) (ref : Nat) (levelPrice : Int) (checkSelfMatch : Bool)
    (items : List Allocation) (ctx : MatchContext) (orderQty : Int) (state : MatchState β) :
    state.book.Tells
      (fillLevel env side ref levelPrice checkSelfMatch items ctx orderQty state).2.2.2.book := by
  induction items generalizing ctx orderQty state with
  | nil => exact .refl _
  | cons item rest ih =>
      unfold fillLevel
      split
      · exact ih ctx orderQty state
      · dsimp only
        generalize (if checkSelfMatch then item.order else state.book.findOrder item.orderId) = resting
        have filled := state.fillResting_tells env ctx side ref item.orderId resting levelPrice item.qty
          (orderQty - item.qty)
        generalize state.fillResting env ctx side ref item.orderId resting levelPrice item.qty _ = result
          at filled ⊢
        obtain ⟨_ | _, ctx', after⟩ := result
        · exact filled
        · exact filled.trans (ih ..)

theorem feedLevel_tells (side : BookSide) (aggressorId : Nat) (levelPrice : Int)
    (items : List Allocation) (ctx : MatchContext) (qty : Int) (state : MatchState β) :
    state.book.Tells (feedLevel env side aggressorId levelPrice items ctx qty state).2.2.2.book := by
  induction items generalizing ctx qty state with
  | nil => exact .refl _
  | cons item rest ih =>
      unfold feedLevel
      split
      · exact ih ctx qty state
      · have filled := state.fillRestingFromFeed_tells env ctx side aggressorId item.orderId levelPrice
          item.qty qty
        generalize state.fillRestingFromFeed env ctx side aggressorId item.orderId levelPrice item.qty qty =
          result at filled ⊢
        obtain ⟨_ | _, left, ctx', after⟩ := result
        · exact filled
        · exact filled.trans (ih ..)

theorem matchLoop_tells (config : ProRataConfig) (side : BookSide) (ref : Nat) (orderPrice : Int)
    (requestTime : Nat) (smpMode : SelfMatchPreventionMode) (fuel : Nat) (ctx : MatchContext)
    (orderQty : Int) (state : MatchState β) :
    state.book.Tells
      (matchLoop env config side ref orderPrice requestTime smpMode fuel ctx orderQty state).state.book := by
  induction fuel generalizing ctx orderQty state with
  | zero => exact .refl _
  | succ fuel ih =>
      unfold matchLoop
      split
      · exact .refl _
      · split
        · exact .refl _
        · rename_i level _
          dsimp only
          generalize allocate config _ orderQty = allocations
          have handled : state.book.Tells (if decide (smpMode ≠ .none) = true then
              cancelOwn env ref requestTime ctx smpMode allocations state
            else (some false, state)).2.book := by
            split
            · exact cancelOwn_tells ..
            · exact .refl _
          generalize (if decide (smpMode ≠ .none) = true then
            cancelOwn env ref requestTime ctx smpMode allocations state else (some false, state)) = result
            at handled ⊢
          obtain ⟨_ | _ | _, after⟩ := result
          · exact handled
          · dsimp only
            have filled := handled.trans (fillLevel_tells env side ref level.price
              (decide (smpMode ≠ .none)) allocations ctx orderQty after)
            generalize fillLevel env side ref level.price (decide (smpMode ≠ .none)) allocations ctx orderQty
              after = result at filled ⊢
            obtain ⟨_ | _, left, ctx', last⟩ := result
            · exact filled
            · exact filled.trans (ih ..)
          · exact handled.trans (ih ..)

theorem feedLoop_tells (config : ProRataConfig) (side : BookSide) (aggressorId : Nat) (price : Int)
    (fuel : Nat) (ctx : MatchContext) (qty : Int) (state : MatchState β) :
    state.book.Tells (feedLoop env config side aggressorId price fuel ctx qty state).state.book := by
  induction fuel generalizing ctx qty state with
  | zero => exact .refl _
  | succ fuel ih =>
      unfold feedLoop
      split
      · exact .refl _
      · split
        · exact .refl _
        · rename_i level _
          dsimp only
          generalize allocate config _ qty = allocations
          have filled := feedLevel_tells env side aggressorId level.price allocations ctx qty state
          generalize feedLevel env side aggressorId level.price allocations ctx qty state = result at filled ⊢
          obtain ⟨_ | _, left, ctx', after⟩ := result
          · exact filled
          · exact filled.trans (ih ..)

end ProRata

namespace MatchState

variable {β : Type} [OrderBookL3 β] (env : Environment) (config : SymbolConfig) (state : MatchState β)

open OrderBook (Tells)

theorem matchOrder_tells (engine : MatchingEngine) (ref : Nat) (orderPrice orderQty : Int)
    (requestTime eventTime seqNum : Nat) (smpMode : SelfMatchPreventionMode) :
    state.book.Tells (engine.matchOrder env ref orderPrice orderQty requestTime eventTime seqNum smpMode
      state).2.2.book := by
  unfold MatchingEngine.matchOrder
  dsimp only
  have prepared := Tells.of_observed (state.prepareOrder_observed env (MatchingEngine.sweptSide
    (state.order ref).side) engine.reach ref orderPrice orderQty requestTime smpMode)
  generalize state.prepareOrder env _ engine.reach ref orderPrice orderQty requestTime smpMode = result
    at prepared ⊢
  obtain ⟨_ | done, after⟩ := result
  · dsimp only
    have looped : after.book.Tells (engine.matchLoop env (MatchingEngine.sweptSide (state.order ref).side)
        ref orderPrice requestTime smpMode (MatchContext.start eventTime seqNum)
        (after.order ref).leavesQuantity after).state.book := by
      cases engine with
      | fifo => exact Fifo.matchLoop_tells ..
      | proRata config => exact ProRata.matchLoop_tells ..
    split
    · exact prepared.trans looped
    · exact (prepared.trans looped).trans (cancelUnrestableRemainder_tells ..)
  · exact prepared

theorem matchFeed_tells (engine : MatchingEngine) (side : Side) (orderId : Nat) (price qty : Int)
    (eventTime seqNum : Nat) :
    state.book.Tells (engine.matchFeed env side orderId price qty eventTime seqNum state).2.2.book := by
  cases engine with
  | fifo => exact Fifo.feedLoop_tells ..
  | proRata config => exact ProRata.feedLoop_tells ..

/-! ## Symbols -/

theorem addOrder_tells (ref requestTime : Nat) :
    state.book.Tells (state.addOrder env config ref requestTime).2.2.book := by
  unfold addOrder
  dsimp only
  have matched := matchOrder_tells env state config.matchingEngine ref (state.order ref).price
    (state.order ref).quantity requestTime (state.order ref).createdTime 0 config.smpMode
  generalize config.matchingEngine.matchOrder env ref _ _ requestTime _ 0 config.smpMode state = result
    at matched ⊢
  split
  · exact matched.trans (OrderBook.addOrder_tells ..)
  · refine matched.quiet ?_
    have sameRows := closeEvent_unflagged result.2.2.book.mdLevelUpdateCache
    unfold OrderBook.observed
    rw [← sameRows]
    rfl

theorem modifyOrder_tells (ref : Nat) (newPrice newQty : Int) (requestTime : Nat) :
    state.book.Tells (state.modifyOrder env config ref newPrice newQty requestTime).2.2.book := by
  unfold modifyOrder
  dsimp only
  have matched := matchOrder_tells env state config.matchingEngine ref newPrice newQty requestTime
    (state.order ref).lastUpdateTime 0 config.smpMode
  generalize config.matchingEngine.matchOrder env ref newPrice newQty requestTime _ 0 config.smpMode state =
    result at matched ⊢
  have touched : state.book.Tells (result.2.2.touchOrder env ref).book := matched.quiet rfl
  generalize result.2.2.touchOrder env ref = touchedState at touched ⊢
  have finishes : ∀ after : MatchState β, state.book.Tells after.book →
      state.book.Tells (if (after.order ref).leavesQuantity = 0 then
        (result.1, result.2.1, after.onBook fun book => book.freeOrder ref)
      else (result.1, result.2.1, after)).2.2.book := by
    intro after run
    split
    · exact run.quiet rfl
    · exact run
  apply finishes
  split
  · refine Tells.trans ?_ (OrderBook.modifyOrder_tells ..)
    split
    · exact touched.quiet rfl
    · exact touched
  · exact touched

theorem cancelOrder_tells (ref requestTime : Nat) :
    state.book.Tells (state.cancelOrder env ref requestTime).book := by
  unfold cancelOrder
  dsimp only
  have deleted := OrderBook.deleteOrder_tells (state.touchOrder env ref).book ref
    ((state.touchOrder env ref).order ref).lastUpdateTime 0 true
  exact (deleted.since (show _ = state.book.observed from rfl)).quiet rfl

end MatchState

end SlickSim
