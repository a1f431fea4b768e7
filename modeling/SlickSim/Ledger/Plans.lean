import SlickSim.Lib.Sweeping
import SlickSim.Ledger.FifoFills

/-!
# The plan of a match

What a match does is planned from the queue it starts with: the engine's policy sweeps the
levels within the limit. A matching loop performs its plan act by act.
-/

set_option autoImplicit false

namespace SlickSim

open KeyedList Sweeping
open OrderBookL3 (Regresses restingOrders)

/-! ## Levels within a limit -/

def levelsWithin (side : BookSide) (limit : Int) (orders : List BookOrder) : List (List BookOrder) :=
  ((priceLevels orders).takeWhile fun level => !beyondLimit side level.price limit).map PriceLevelL3.orders

section Levels

variable {side : BookSide} {limit price : Int} {orders rest : List BookOrder} {level : PriceLevelL3}

theorem levelsWithin_of_beyond
    (beyond : ∀ order ∈ orders, beyondLimit side order.price limit = true) :
    levelsWithin side limit orders = [] := by
  unfold levelsWithin
  cases cut : priceLevels orders with
  | nil => rfl
  | cons level levels =>
      obtain ⟨rest, rfl, -, filled, prices⟩ := priceLevels_eq_cons cut
      obtain ⟨front, queue, isQueue⟩ := List.exists_cons_of_ne_nil filled
      have member : front ∈ level.orders := by
        rw [isQueue]
        exact List.mem_cons_self
      rw [List.takeWhile_cons_of_neg, List.map_nil]
      rw [← prices front member, beyond front (List.mem_append_left _ member)]
      decide

theorem levelsWithin_cons (cut : priceLevels orders = level :: priceLevels rest)
    (within : beyondLimit side level.price limit = false) :
    levelsWithin side limit orders = level.orders :: levelsWithin side limit rest := by
  unfold levelsWithin
  rw [cut, List.takeWhile_cons_of_pos (by rw [within]; rfl), List.map_cons]

theorem flatten_levelsWithin (side : BookSide) (limit : Int) (orders : List BookOrder) :
    (levelsWithin side limit orders).flatten = withinLimit side limit orders := by
  generalize cut : priceLevels orders = levels
  induction levels generalizing orders with
  | nil =>
      rw [priceLevels_eq_nil cut]
      rfl
  | cons level levels ih =>
      obtain ⟨rest, rfl, restLevels, filled, prices⟩ := priceLevels_eq_cons cut
      rw [← restLevels] at cut
      cases beyond : beyondLimit side level.price limit with
      | true =>
          obtain ⟨front, queue, isQueue⟩ := List.exists_cons_of_ne_nil filled
          have stops : beyondLimit side front.price limit = true := by
            rw [prices front (by rw [isQueue]; exact List.mem_cons_self), beyond]
          unfold levelsWithin withinLimit
          rw [cut, List.takeWhile_cons_of_neg (by rw [beyond]; decide), isQueue, List.cons_append,
            List.takeWhile_cons_of_neg (by rw [stops]; decide)]
          rfl
      | false =>
          rw [levelsWithin_cons cut beyond, List.flatten_cons, ih rest restLevels]
          unfold withinLimit
          rw [List.takeWhile_append_of_pos]
          intro order member
          rw [prices order member, beyond]
          rfl

theorem mem_levelsWithin {level : List BookOrder} (member : level ∈ levelsWithin side limit orders) :
    (∀ order ∈ level, order ∈ orders) ∧ ∃ price, ∀ order ∈ level, order.price = price := by
  obtain ⟨priceLevel, inside, rfl⟩ := List.mem_map.mp member
  obtain ⟨-, sub, prices⟩ := mem_priceLevels (List.takeWhile_subset _ inside)
  exact ⟨fun order member => sub.subset member, priceLevel.price, prices⟩

/-- Neighbouring levels have different prices. -/
theorem priceLevels_next_ne {next : PriceLevelL3} {levels : List PriceLevelL3}
    (cut : priceLevels orders = level :: next :: levels) : next.price ≠ level.price := by
  induction orders generalizing level next levels with
  | nil => cases cut
  | cons order orders ih =>
      unfold priceLevels at cut
      split at cut
      · cases (List.cons.inj cut).2
      · rename_i below _ isBelow
        split at cut <;> rename_i samePrice
        · obtain ⟨rfl, rfl⟩ := List.cons.inj cut
          exact fun same => ih isBelow (same.trans samePrice.symm)
        · obtain ⟨rfl, others⟩ := List.cons.inj cut
          obtain ⟨rfl, -⟩ := List.cons.inj others
          exact samePrice

theorem priceLevels_block (filled : orders ≠ []) (prices : ∀ order ∈ orders, order.price = price)
    (apart : ∀ next ∈ (priceLevels rest).head?, next.price ≠ price) :
    priceLevels (orders ++ rest) = ⟨price, orders⟩ :: priceLevels rest := by
  induction orders with
  | nil => exact absurd rfl filled
  | cons order orders ih =>
      have samePrice := prices order List.mem_cons_self
      have others := fun other member => prices other (List.mem_cons_of_mem order member)
      rw [List.cons_append, priceLevels]
      cases orders with
      | nil =>
          rw [List.nil_append]
          cases cut : priceLevels rest with
          | nil => rw [samePrice]
          | cons next levels =>
              have different := apart next (by rw [cut]; rfl)
              dsimp only
              rw [if_neg (by rw [samePrice]; exact different), samePrice]
      | cons second orders =>
          rw [ih (List.cons_ne_nil _ _) others]
          dsimp only
          rw [if_pos samePrice.symm, samePrice]

theorem PriceLevelL3.totalQuantity_pos (level : PriceLevelL3)
    (positive : ∀ order ∈ level.orders, 0 < order.quantity) (filled : 0 < level.orders.length) :
    0 < level.totalQuantity := by
  apply List.sum_pos
  · intro qty member
    obtain ⟨order, inside, rfl⟩ := List.mem_map.mp member
    exact positive order inside
  · rw [← List.length_pos_iff, List.length_map]
    exact filled

theorem priceLevels_thinned {left : List BookOrder} (cut : priceLevels orders = level :: priceLevels rest)
    (filled : left ≠ []) (thinner : left.Sublist level.orders) :
    priceLevels (left ++ rest) = ⟨level.price, left⟩ :: priceLevels rest := by
  obtain ⟨_, -, -, -, prices⟩ := priceLevels_eq_cons cut
  refine priceLevels_block filled (fun order member => prices order (thinner.subset member)) ?_
  intro next isNext
  obtain ⟨levels, isRest⟩ := List.head?_eq_some_iff.mp isNext
  rw [isRest] at cut
  exact priceLevels_next_ne cut

theorem levelsWithin_thinned {left : List BookOrder} (cut : priceLevels orders = level :: priceLevels rest)
    (within : beyondLimit side level.price limit = false) (thinner : left.Sublist level.orders) :
    levelsWithin side limit (left ++ rest) =
      (if left = [] then [] else [left]) ++ levelsWithin side limit rest := by
  split <;> rename_i filled
  · rw [filled]
    rfl
  · exact levelsWithin_cons (priceLevels_thinned cut filled thinner) within

end Levels

/-! ## Performing a plan -/

namespace MatchState

variable {β : Type} [OrderBookL3 β]

section Perform

variable (env : Environment) (side : BookSide)

def perform (ref requestTime : Nat) (smpMode : SelfMatchPreventionMode) :
    List (Act BookOrder) → MatchContext → Int → MatchState β → LoopResult β
  | [], ctx, qty, state => ⟨false, qty, ctx, state⟩
  | .withdraw order :: acts, ctx, qty, state =>
      match state.handleSelfMatch env ((state.book.findOrder order.orderId).getD 0) requestTime
          ctx.eventTime ctx.seqNum smpMode with
      | (false, state) => ⟨true, qty, ctx, state⟩
      | (true, state) => perform ref requestTime smpMode acts ctx qty state
  | .fill order tradeQty :: acts, ctx, qty, state =>
      match state.fillResting env ctx side ref order.orderId (state.book.findOrder order.orderId)
          order.price tradeQty (qty - tradeQty) with
      | (false, ctx, state) => ⟨false, qty - tradeQty, ctx, state⟩
      | (true, ctx, state) => perform ref requestTime smpMode acts ctx (qty - tradeQty) state

def performFeed (aggressorId : Nat) :
    List (Act BookOrder) → MatchContext → Int → MatchState β → LoopResult β
  | [], ctx, qty, state => ⟨false, qty, ctx, state⟩
  | .withdraw _ :: acts, ctx, qty, state => performFeed aggressorId acts ctx qty state
  | .fill order tradeQty :: acts, ctx, qty, state =>
      match state.fillRestingFromFeed env ctx side aggressorId order.orderId order.price tradeQty
          qty with
      | (false, qty, ctx, state) => ⟨false, qty, ctx, state⟩
      | (true, qty, ctx, state) => performFeed aggressorId acts ctx qty state

end Perform

variable {env : Environment} {side : BookSide} {ref requestTime aggressorId : Nat}
  {smpMode : SelfMatchPreventionMode} {acts : List (Act BookOrder)} {order : BookOrder} {tradeQty : Int}
  {ctx ctx' : MatchContext} {qty left : Int} {state state' : MatchState β}

theorem perform_fill (filled : state.fillResting env ctx side ref order.orderId
      (state.book.findOrder order.orderId) order.price tradeQty (qty - tradeQty) = (true, ctx', state')) :
    state.perform env side ref requestTime smpMode (.fill order tradeQty :: acts) ctx qty =
      state'.perform env side ref requestTime smpMode acts ctx' (qty - tradeQty) := by
  rw [perform, filled]

theorem perform_withdraw (handled : state.handleSelfMatch env ((state.book.findOrder order.orderId).getD 0)
      requestTime ctx.eventTime ctx.seqNum smpMode = (true, state')) :
    state.perform env side ref requestTime smpMode (.withdraw order :: acts) ctx qty =
      state'.perform env side ref requestTime smpMode acts ctx qty := by
  rw [perform, handled]

theorem performFeed_fill (filled : state.fillRestingFromFeed env ctx side aggressorId order.orderId order.price
      tradeQty qty = (true, left, ctx', state')) :
    state.performFeed env side aggressorId (.fill order tradeQty :: acts) ctx qty =
      state'.performFeed env side aggressorId acts ctx' left := by
  rw [performFeed, filled]

theorem performFeed_declined (declined : state.fillRestingFromFeed env ctx side aggressorId order.orderId
      order.price tradeQty qty = (false, left, ctx', state')) :
    state.performFeed env side aggressorId (.fill order tradeQty :: acts) ctx qty =
      ⟨false, left, ctx', state'⟩ := by
  rw [performFeed, declined]

end MatchState

/-! ## FIFO -/

namespace Fifo

open MatchState

variable {β : Type} [OrderBookL3 β] {env : Environment} {hand : Hand} {side : BookSide}
  {seqNum ref requestTime : Nat} {limit : Int} {own : Nat → Bool}
  {smpMode : SelfMatchPreventionMode}

/-- The FIFO loop performs the queue in order. -/
theorem matchLoop_performs (held : hand.aggressor = some ref) (fuel : Nat) :
    ∀ (ctx : MatchContext) (qty : Int) (state : MatchState β),
      ctx.seqNum = seqNum → state.Sweepable hand side seqNum → state.Own smpMode side ref own →
      qty ≤ (state.order ref).leavesQuantity →
      (0 < qty → (restingOrders state.book.l3 side).length < fuel) →
      matchLoop env side ref limit requestTime smpMode fuel ctx qty state =
        state.perform env side ref requestTime smpMode
          (inOrder BookOrder.quantity (own ∘ BookOrder.orderId)
            (withinLimit side limit (restingOrders state.book.l3 side)) qty) ctx qty := by
  induction fuel with
  | zero =>
      intro ctx qty state _ _ _ _ enough
      rw [inOrder_of_nonpos (not_lt.mp fun more => absurd (enough more) (Nat.not_lt_zero _))]
      rfl
  | succ fuel ih =>
      intro ctx qty state sameSeq ready mine leaves enough
      unfold matchLoop
      by_cases done : qty ≤ 0
      · rw [if_pos done, inOrder_of_nonpos done]
        rfl
      rw [if_neg done]
      have more : 0 < qty := by omega
      cases crosses : state.crossableLevel side limit with
      | none =>
          rw [withinLimit_of_beyond (beyond_of_crossableLevel_none crosses)]
          rfl
      | some level =>
          obtain ⟨front, queue, rest, isQueue, orders, price, within⟩ :=
            front_of_crossableLevel crosses
          have member : front ∈ restingOrders state.book.l3 side := by
            rw [orders]
            exact List.mem_cons_self
          have distinct := OrderBookL3.restingOrders_distinct state.book.l3 side
          have rests := entry_of_mem member
          have swept := OrderBookL3.side_of_mem member
          have positive := ready.inv.agrees.positive rests
          rw [orders] at distinct
          rw [orders, withinLimit_cons within]
          dsimp only
          rw [isQueue]
          dsimp only
          split
          · -- A self-match: `CANCEL_NEWEST` refuses here, and `CANCEL_RESTING` goes on.
            rename_i selfMatch
            have isOwn : (own ∘ BookOrder.orderId) front = true := (mine front member).mp selfMatch
            obtain ⟨bookRef, ours⟩ := ref_of_selfMatch selfMatch.2
            rw [inOrder_own more isOwn]
            cases smpMode with
            | none => exact absurd rfl selfMatch.1
            | cancelNewest => rfl
            | cancelResting =>
                obtain ⟨state', cancelled, takes, others⟩ := handleSelfMatch_takes env
                  requestTime ctx.eventTime ready rests swept ours
                have sameOrder := others ref (ready.aggressor_ne held rests swept ours)
                have handled : state.handleSelfMatch env ((state.book.findOrder front.orderId).getD 0)
                    requestTime ctx.eventTime ctx.seqNum .cancelResting = (true, state') := by
                  rw [show state.book.findOrder front.orderId = some bookRef from ours, sameSeq]
                  exact cancelled
                have left : restingOrders state'.book.l3 side = rest := by
                  rw [takes.queue, orders, takeFromQueue_front distinct]
                rw [perform_withdraw handled, handled]
                dsimp only
                rw [← left]
                refine ih ctx qty state' sameSeq (ready.sweeps takes.sweeps takes.current)
                  (mine.sweeps ready takes.sweeps) (by rw [sameOrder]; exact leaves) ?_
                intro _
                have := enough more
                rw [orders, List.length_cons] at this
                rw [left]
                omega
          · rename_i noSelfMatch
            have foreign : (own ∘ BookOrder.orderId) front = false := by
              rw [← Bool.not_eq_true]
              exact fun isOwn => noSelfMatch ((mine front member).mpr isOwn)
            obtain ⟨ctx', state', filled, seqIs, takes, left, -⟩ := fillResting_takes env ready.inv
              (sameSeq ▸ ready.current) rests swept (fun _ ours => ready.apart rests swept ours)
              (show 0 < min qty front.quantity by omega) (Int.min_le_right _ _) front.price held
              (by omega) (qty - min qty front.quantity)
            rw [sameSeq] at takes
            rw [inOrder_foreign more foreign, perform_fill filled, ← price, filled]
            dsimp only
            rw [ih ctx' (qty - min qty front.quantity) state' (seqIs.trans sameSeq)
              (ready.sweeps takes.sweeps takes.current) (mine.sweeps ready takes.sweeps) (by omega) ?_]
            · by_cases spent : qty - min qty front.quantity ≤ 0
              · rw [inOrder_of_nonpos spent, inOrder_of_nonpos spent]
              · rw [takes.queue, orders, show min qty front.quantity = front.quantity by omega,
                  takeFromQueue_front distinct]
            · intro spent
              have := enough more
              rw [takes.queue, orders, show min qty front.quantity = front.quantity by omega,
                takeFromQueue_front distinct]
              rw [orders, List.length_cons] at this
              omega

/-- The FIFO loop of a feed aggressor performs the queue in order, unless the book has moved on. -/
theorem feedLoop_performs (aggressorId fuel : Nat) :
    ∀ (ctx : MatchContext) (qty : Int) (state : MatchState β),
      state.Sweepable hand side 0 → (0 < qty → (restingOrders state.book.l3 side).length < fuel) →
      feedLoop env side aggressorId limit fuel ctx qty state =
        state.performFeed env side aggressorId
          (inOrder BookOrder.quantity (fun _ => false)
            (withinLimit side limit (restingOrders state.book.l3 side)) qty) ctx qty := by
  induction fuel with
  | zero =>
      intro ctx qty state _ enough
      rw [inOrder_of_nonpos (not_lt.mp fun more => absurd (enough more) (Nat.not_lt_zero _))]
      rfl
  | succ fuel ih =>
      intro ctx qty state ready enough
      unfold feedLoop
      by_cases done : qty ≤ 0
      · rw [if_pos done, inOrder_of_nonpos done]
        rfl
      rw [if_neg done]
      have more : 0 < qty := by omega
      cases crosses : state.crossableLevel side limit with
      | none =>
          rw [withinLimit_of_beyond (beyond_of_crossableLevel_none crosses)]
          rfl
      | some level =>
          obtain ⟨front, queue, rest, isQueue, orders, price, within⟩ :=
            front_of_crossableLevel crosses
          have member : front ∈ restingOrders state.book.l3 side := by
            rw [orders]
            exact List.mem_cons_self
          have distinct := OrderBookL3.restingOrders_distinct state.book.l3 side
          have rests := entry_of_mem member
          have swept := OrderBookL3.side_of_mem member
          have positive := ready.inv.agrees.positive rests
          rw [orders] at distinct
          rw [orders, withinLimit_cons within, inOrder_foreign more rfl]
          dsimp only
          rw [isQueue]
          dsimp only
          by_cases stale : Regresses state.book.l3 ctx.seqNum
          · rw [performFeed_declined (fillRestingFromFeed_stale stale ..), fillRestingFromFeed_stale stale]
          · obtain ⟨ctx', state', filled, seqIs, takes⟩ := fillRestingFromFeed_takes env
              ready.inv stale rests swept (fun _ ours => ready.apart rests swept ours)
              (show 0 < min qty front.quantity by omega) (Int.min_le_right _ _) front.price aggressorId qty
            rw [performFeed_fill filled, ← price, filled]
            dsimp only
            rw [ih ctx' (qty - min qty front.quantity) state'
              (ready.sweeps takes.sweeps fun regresses => regresses.1.false) ?_]
            · by_cases spent : qty - min qty front.quantity ≤ 0
              · rw [inOrder_of_nonpos spent, inOrder_of_nonpos spent]
              · rw [takes.queue, orders, show min qty front.quantity = front.quantity by omega,
                  takeFromQueue_front distinct]
            · intro spent
              have := enough more
              rw [takes.queue, orders, show min qty front.quantity = front.quantity by omega,
                takeFromQueue_front distinct]
              rw [orders, List.length_cons] at this
              omega

end Fifo

/-! ## Pro rata -/

namespace ProRata

open MatchState

def blankAllocation (order : BookOrder) : Allocation :=
  { orderId := order.orderId, size := order.quantity, qty := 0, order := none }

def share (config : ProRataConfig) (orders : List BookOrder) (qty : Int) : List (BookOrder × Int) :=
  orders.zip ((allocate config (orders.map blankAllocation) qty).map Allocation.qty)

section Share

variable (config : ProRataConfig) {orders : List BookOrder} {items : List Allocation} {qty : Int}

def withOwner (owner : Nat → Option Nat) (item : Allocation) : Allocation :=
  { item with order := owner item.orderId }

theorem takeInQueue_withOwner (owner : Nat → Option Nat) (items : List Allocation) (left : Int) :
    takeInQueue (items.map (withOwner owner)) left =
      ((takeInQueue items left).1.map (withOwner owner), (takeInQueue items left).2) := by
  induction items generalizing left with
  | nil => rfl
  | cons head rest ih =>
      rw [List.map_cons, takeInQueue, takeInQueue]
      dsimp only
      rw [show (withOwner owner head).size - (withOwner owner head).qty = head.size - head.qty from rfl, ih]
      rfl

theorem shareOut_withOwner (owner : Nat → Option Nat) (total qty left : Int) (items : List Allocation) :
    shareOut config total qty left (items.map (withOwner owner)) =
      (shareOut config total qty left items).map (withOwner owner) ∧
    sharesOf config total qty left (items.map (withOwner owner)) = sharesOf config total qty left items := by
  unfold shareOut sharesOf
  split
  · rw [List.map_map, List.map_map, List.map_map]
    exact ⟨rfl, rfl⟩
  · rw [List.map_map]
    exact ⟨rfl, rfl⟩

theorem allocate_withOwner (owner : Nat → Option Nat) (items : List Allocation) (qty : Int) :
    allocate config (items.map (withOwner owner)) qty = (allocate config items qty).map (withOwner owner) := by
  have sizes : allocatableQty (items.map (withOwner owner)) = allocatableQty items := by
    unfold allocatableQty
    rw [List.map_map]
    rfl
  by_cases whole : allocatableQty items ≤ qty
  · rw [allocate_whole whole, allocate_whole (sizes.trans_le whole), List.map_map, List.map_map]
    rfl
  · have partly : qty < allocatableQty items := not_le.mp whole
    rw [allocate_passes config partly, allocate_passes config (sizes ▸ partly)]
    dsimp only
    rw [sizes, takeInQueue_withOwner]
    dsimp only
    rw [(shareOut_withOwner ..).1, (shareOut_withOwner ..).2, takeInQueue_withOwner]

theorem share_eq {β : Type} (book : OrderBook β) (level : PriceLevelL3) (resolve : Bool) (qty : Int) :
    share config level.orders qty =
      level.orders.zip ((allocate config (blankAllocations book level resolve) qty).map Allocation.qty) := by
  have blanks : blankAllocations book level resolve = (level.orders.map blankAllocation).map
      (withOwner fun id => if resolve then book.findOrder id else none) := by
    rw [List.map_map]
    rfl
  rw [blanks, allocate_withOwner, List.map_map]
  rfl

private theorem blank_blankAllocation (positive : ∀ order ∈ orders, 0 < order.quantity) :
    ∀ item ∈ orders.map blankAllocation, item.qty = 0 ∧ 0 ≤ item.size := by
  intro item member
  obtain ⟨order, inside, rfl⟩ := List.mem_map.mp member
  exact ⟨rfl, (positive order inside).le⟩

theorem share_shares : Shares BookOrder.quantity (share config) where
  items := by
    intro orders qty
    unfold share
    rw [List.map_fst_zip]
    rw [List.length_map, (allocate_reallocates ..).length_eq, List.length_map]
  within := by
    intro orders qty positive more given member
    obtain ⟨same, within, -⟩ := allocate_spec config (blank_blankAllocation positive) more
    unfold share at member
    rw [List.zip_map_right] at member
    obtain ⟨⟨order, item⟩, paired, rfl⟩ := List.mem_map.mp member
    have matched : List.Forall₂ (fun order item => Allocation.SameOrder item (blankAllocation order)) orders _ :=
      (List.forall₂_map_right_iff.mp same).flip
    obtain ⟨nonneg, fits⟩ := within item (List.of_mem_zip paired).2
    rw [((List.forall₂_iff_zip.mp matched).2 paired).size] at fits
    exact ⟨nonneg, fits⟩
  total := by
    intro orders qty positive more
    obtain ⟨same, -, total⟩ := allocate_spec config (blank_blankAllocation positive) more
    have sizes : allocatableQty (orders.map blankAllocation) = (orders.map BookOrder.quantity).sum := by
      unfold allocatableQty
      rw [List.map_map]
      rfl
    unfold share
    rw [List.map_snd_zip, ← sizes]
    · exact total
    · rw [List.length_map, same.length_eq, List.length_map]

end Share

variable {β : Type} [OrderBookL3 β] {env : Environment} {hand : Hand} {side : BookSide}
  {seqNum ref requestTime : Nat} {limit price : Int} {own : Nat → Bool} {resolve : Bool}
  {smpMode : SelfMatchPreventionMode} {config : ProRataConfig} {items : List Allocation}
  {orders : List BookOrder} {more : List (Act BookOrder)}

theorem feedLevel_performs (aggressorId : Nat)
    (same : List.Forall₂ (fun item order => Allocation.orderId item = order.orderId) items orders)
    (prices : ∀ order ∈ orders, order.price = price) (ctx : MatchContext) (qty : Int) (state : MatchState β) :
    state.performFeed env side aggressorId (fillsOf (orders.zip (items.map Allocation.qty)) ++ more) ctx qty =
      match feedLevel env side aggressorId price items ctx qty state with
      | (false, qty, ctx, state) => ⟨false, qty, ctx, state⟩
      | (true, qty, ctx, state) => state.performFeed env side aggressorId more ctx qty := by
  induction same generalizing ctx qty state with
  | nil => rfl
  | @cons item order items orders sameId _ ih =>
      have others := ih fun other member => prices other (List.mem_cons_of_mem _ member)
      rw [List.map_cons, List.zip_cons_cons, fillsOf, feedLevel]
      by_cases nothing : item.qty = 0
      · rw [if_pos nothing, if_pos nothing]
        exact others ctx qty state
      · rw [if_neg nothing, if_neg nothing, List.cons_append, performFeed, sameId,
          ← prices order List.mem_cons_self]
        rw [← prices order List.mem_cons_self] at others
        cases filled : state.fillRestingFromFeed env ctx side aggressorId order.orderId order.price item.qty
          qty with
        | mk taken result =>
        cases taken with
        | false => rfl
        | true => exact others ..

theorem feedLevel_stale (aggressorId : Nat) {ctx : MatchContext} {state : MatchState β}
    (stale : Regresses state.book.l3 ctx.seqNum) (qty : Int) (some : allocatedQty items ≠ 0) :
    (feedLevel env side aggressorId price items ctx qty state).1 = false := by
  induction items with
  | nil => exact absurd rfl some
  | cons item items ih =>
      rw [feedLevel]
      by_cases nothing : item.qty = 0
      · rw [if_pos nothing]
        rw [allocatedQty_cons, nothing, Int.zero_add] at some
        exact ih some
      · rw [if_neg nothing, fillRestingFromFeed_stale stale]

/-- The pro-rata loop of a feed aggressor performs the shares of the levels, unless the book has
moved on. -/
theorem feedLoop_performs (aggressorId fuel : Nat) :
    ∀ (ctx : MatchContext) (qty : Int) (state : MatchState β),
      state.Sweepable hand side 0 → (0 < qty → (restingOrders state.book.l3 side).length < fuel) →
      feedLoop env config side aggressorId limit fuel ctx qty state =
        state.performFeed env side aggressorId
          (sweep (withdrawThenShare (fun _ => false) (share config))
            (levelsWithin side limit (restingOrders state.book.l3 side)) qty) ctx qty := by
  induction fuel with
  | zero =>
      intro ctx qty state _ enough
      rw [sweep_of_nonpos (not_lt.mp fun more => absurd (enough more) (Nat.not_lt_zero _))]
      rfl
  | succ fuel ih =>
      intro ctx qty state ready enough
      unfold feedLoop
      by_cases done : qty ≤ 0
      · rw [if_pos done, sweep_of_nonpos done]
        rfl
      rw [if_neg done]
      have more : 0 < qty := by omega
      cases crosses : state.crossableLevel side limit with
      | none =>
          rw [levelsWithin_of_beyond (beyond_of_crossableLevel_none crosses)]
          rfl
      | some level =>
          obtain ⟨rest, queue, cut, filled, levelWithin, within, prices⟩ :=
            level_of_crossableLevel crosses
          obtain ⟨offers, distinct, total, whole⟩ := offers_of_level config false ready.positive queue within more
          have positive : ∀ order ∈ level.orders, 0 < order.quantity := fun order member =>
            ready.inv.agrees.positive (entry_of_mem (by rw [queue]; exact List.mem_append_left _ member))
          have offering : 0 < level.totalQuantity := level.totalQuantity_pos positive filled
          have policy : Splits BookOrder.quantity (fun _ => false) (withdrawThenShare _ (share config)) :=
            withdrawThenShare_splits (share_shares config)
          have shares := policy.total positive more
          rw [foreignQty_of_foreign fun _ _ => rfl] at shares
          rw [levelsWithin_cons cut levelWithin, sweep_cons more, shares,
            withdrawThenShare_foreign fun _ _ => rfl, share_eq config state.book level false,
            feedLevel_performs aggressorId (offers.imp fun _ _ offer => offer.orderId) prices]
          dsimp only
          cases performed : feedLevel env side aggressorId level.price
            (allocate config (blankAllocations state.book level false) qty) ctx qty state with
          | mk taken result =>
          obtain ⟨left, ctx', state'⟩ := result
          cases taken with
          | false => rfl
          | true =>
              dsimp only
              have current : ¬ Regresses state.book.l3 ctx.seqNum := by
                intro stale
                have declined : (feedLevel env side aggressorId level.price _ ctx qty state).1 = false :=
                  feedLevel_stale aggressorId stale qty (by rw [total]; omega)
                rw [performed] at declined
                cases declined
              obtain ⟨ctx'', state'', fills, -, round, -⟩ := feedLevel_spec feedKeeps_trivial
                (fun _ => false) aggressorId level.price _ level.orders ctx qty state rfl
                ⟨ready.inv, current, ready.apart⟩ offers distinct
                (fun order member => ⟨rfl, prices order member⟩) trivial
              rw [performed, total] at fills
              obtain ⟨-, rfl, rfl, rfl⟩ : _ ∧ _ ∧ _ ∧ _ := by simpa only [Prod.mk.injEq] using fills
              have emptied : 0 < qty - min qty level.totalQuantity →
                  restingOrders state'.book.l3 side = rest :=
                fun spent => round.emptied rest (whole (by omega)) queue
              rw [ih ctx' _ state' (ready.sweeps round.sweeps fun regresses => regresses.1.false) ?_]
              · by_cases spent : qty - min qty level.totalQuantity ≤ 0
                · rw [sweep_of_nonpos spent]
                  exact congrArg (fun acts => state'.performFeed env side aggressorId acts ctx' _)
                    (sweep_of_nonpos spent).symm
                · rw [emptied (by omega)]
                  rfl
              · intro spent
                have := enough more
                rw [queue, List.length_append] at this
                rw [emptied spent]
                omega

theorem fillLevel_performs (requestTime : Nat) (smpMode : SelfMatchPreventionMode)
    (held : hand.aggressor = some ref) (items : List Allocation) :
    ∀ (orders : List BookOrder) (ctx : MatchContext) (qty : Int) (state : MatchState β),
      ctx.seqNum = seqNum → state.Sweepable hand side seqNum →
      List.Forall₂ (Offer side limit resolve state) items orders →
      (orders.map BookOrder.orderId).Nodup → (∀ order ∈ orders, order.price = price) →
      allocatedQty items ≤ (state.order ref).leavesQuantity →
      state.perform env side ref requestTime smpMode (fillsOf (orders.zip (items.map Allocation.qty)) ++ more)
          ctx qty =
        match fillLevel env side ref price resolve items ctx qty state with
        | (false, qty, ctx, state) => ⟨false, qty, ctx, state⟩
        | (true, qty, ctx, state) => state.perform env side ref requestTime smpMode more ctx qty := by
  induction items with
  | nil =>
      intro orders ctx qty state _ _ offers _ _ _
      cases offers
      rfl
  | cons item items ih =>
      intro orders ctx qty state sameSeq ready offers distinct prices enough
      cases offers with
      | @cons _ front _ orders offer offers =>
          have restNonneg := offers_nonneg offers
          obtain ⟨fresh, distinct⟩ := List.nodup_cons.mp distinct
          have samePrice := prices front List.mem_cons_self
          have others := fun order member => prices order (List.mem_cons_of_mem front member)
          obtain ⟨nonneg, fits⟩ := offer.within
          rw [offer.size] at fits
          rw [allocatedQty_cons] at enough
          rw [List.map_cons, List.zip_cons_cons, fillsOf, fillLevel]
          by_cases nothing : item.qty = 0
          · rw [if_pos nothing, if_pos nothing]
            exact ih orders ctx qty state sameSeq ready offers distinct others (by omega)
          · have resting : (if resolve then item.order else state.book.findOrder item.orderId) =
                state.book.findOrder front.orderId := by
              split
              · exact offer.resolved ‹_›
              · rw [offer.orderId]
            obtain ⟨ctx', state', filled, seqIs, takes, left, -⟩ := fillResting_takes env ready.inv
              (sameSeq ▸ ready.current) offer.rests offer.swept
              (fun _ ours => ready.apart offer.rests offer.swept ours)
              (show 0 < item.qty by omega) fits front.price held (by omega) (qty - item.qty)
            rw [sameSeq] at takes
            rw [if_neg nothing, if_neg nothing, List.cons_append, perform_fill filled]
            dsimp only
            rw [resting, offer.orderId, ← samePrice, filled]
            dsimp only
            rw [samePrice]
            exact ih orders ctx' (qty - item.qty) state' (seqIs.trans sameSeq)
              (ready.sweeps takes.sweeps takes.current) (offers_take offers ready takes fresh) distinct others
              (by omega)

theorem cancelOwn_performs {ctx : MatchContext} (sameSeq : ctx.seqNum = seqNum) (qty : Int)
    (rest : List BookOrder) (items : List Allocation) :
    ∀ (kept orders : List BookOrder) (state : MatchState β), state.Sweepable hand side seqNum →
      state.Own .cancelResting side ref own → List.Forall₂ (Offer side limit true state) items orders →
      restingOrders state.book.l3 side = kept ++ orders ++ rest →
      ∃ cancelled state', cancelOwn env ref requestTime ctx .cancelResting items state =
          (some cancelled, state') ∧
        state.perform env side ref requestTime .cancelResting
            ((orders.filter (own ∘ BookOrder.orderId)).map .withdraw ++ more) ctx qty =
          state'.perform env side ref requestTime .cancelResting more ctx qty ∧
        restingOrders state'.book.l3 side =
          kept ++ (orders.filter fun order => !(own ∘ BookOrder.orderId) order) ++ rest := by
  induction items with
  | nil =>
      intro kept orders state _ _ offers queue
      cases offers
      exact ⟨false, state, rfl, rfl, queue⟩
  | cons item items ih =>
      intro kept orders state ready mine offers queue
      cases offers with
      | @cons _ front _ orders head tail =>
          have distinct := OrderBookL3.restingOrders_distinct state.book.l3 side
          have member := mem_of_entry head.rests
          rw [head.swept] at member
          rw [queue] at distinct
          unfold cancelOwn
          rw [head.resolved rfl]
          by_cases selfMatch : isSelfMatch (state.order ref)
              ((state.book.findOrder front.orderId).map state.book.heap) = true
          · rw [if_pos selfMatch]
            have isOwn : (own ∘ BookOrder.orderId) front = true :=
              (mine front member).mp ⟨by decide, selfMatch⟩
            obtain ⟨bookRef, ours⟩ := ref_of_selfMatch selfMatch
            obtain ⟨between, cancelled, takes, -⟩ := handleSelfMatch_takes env requestTime
              ctx.eventTime ready head.rests head.swept ours
            have handled : state.handleSelfMatch env ((state.book.findOrder front.orderId).getD 0)
                requestTime ctx.eventTime ctx.seqNum .cancelResting = (true, between) := by
              rw [show state.book.findOrder front.orderId = some bookRef from ours, sameSeq]
              exact cancelled
            rw [List.append_assoc, List.cons_append] at queue distinct
            have left : restingOrders between.book.l3 side = kept ++ orders ++ rest := by
              rw [takes.queue, queue, takeFromQueue_middle distinct, List.append_assoc]
            have fresh : front.orderId ∉ orders.map BookOrder.orderId := by
              rw [List.map_append, List.map_cons, List.map_append] at distinct
              have := (List.nodup_cons.mp (List.nodup_append.mp distinct).2.1).1
              exact fun inside => this (List.mem_append_left _ inside)
            obtain ⟨_, state', rest, performs, kept⟩ := ih kept orders between
              (ready.sweeps takes.sweeps takes.current) (mine.sweeps ready takes.sweeps)
              (offers_take tail ready takes fresh) left
            rw [handled]
            dsimp only
            rw [rest, List.filter_cons_of_pos isOwn, List.filter_cons_of_neg (by rw [isOwn]; decide),
              List.map_cons, List.cons_append, perform_withdraw handled]
            exact ⟨true, state', rfl, performs, kept⟩
          · rw [if_neg selfMatch]
            have foreign : (own ∘ BookOrder.orderId) front = false := by
              rw [← Bool.not_eq_true]
              exact fun isOwn => selfMatch ((mine front member).mpr isOwn).2
            obtain ⟨cancelled, state', rest, performs, kept⟩ := ih (kept ++ [front]) orders state ready mine tail
              (by rw [queue]; simp)
            refine ⟨cancelled, state', rest, ?_, ?_⟩
            · rw [List.filter_cons_of_neg (by rw [foreign]; decide)]
              exact performs
            · rw [kept, List.filter_cons_of_pos (by rw [foreign]; rfl)]
              simp

theorem cancelOwn_newest (env : Environment) (requestTime : Nat) (ctx : MatchContext) {state : MatchState β}
    (offers : List.Forall₂ (Offer side limit true state) items orders)
    (mine : state.Own .cancelNewest side ref own) (some : ∃ order ∈ orders, own order.orderId = true) :
    cancelOwn env ref requestTime ctx .cancelNewest items state = (none, state) := by
  induction offers with
  | nil =>
      obtain ⟨_, member, -⟩ := some
      cases member
  | @cons item order _ _ head _ ih =>
      have member := mem_of_entry head.rests
      rw [head.swept] at member
      unfold cancelOwn
      rw [head.resolved rfl]
      by_cases selfMatch : isSelfMatch (state.order ref)
          ((state.book.findOrder order.orderId).map state.book.heap) = true
      · rw [if_pos selfMatch]
        rfl
      · rw [if_neg selfMatch]
        obtain ⟨other, inside, isOwn⟩ := some
        rcases List.mem_cons.mp inside with rfl | inside
        · exact absurd ((mine other member).mpr isOwn).2 selfMatch
        · exact ih ⟨other, inside, isOwn⟩

section Round

variable {fuel : Nat} {ctx : MatchContext} {qty : Int} {state : MatchState β} {level : PriceLevelL3}
  {rest : List BookOrder}

variable (resolve) in
private theorem round_performs (held : hand.aggressor = some ref)
    (sameSeq : ctx.seqNum = seqNum) (ready : state.Sweepable hand side seqNum)
    (mine : state.Own smpMode side ref own) (leaves : qty ≤ (state.order ref).leavesQuantity)
    (more : 0 < qty) (enough : (restingOrders state.book.l3 side).length < fuel + 1)
    (crosses : state.crossableLevel side limit = some level)
    (foreign : ∀ order ∈ level.orders, (own ∘ BookOrder.orderId) order = false)
    (next : ∀ (ctx : MatchContext) (qty : Int) (state : MatchState β),
      ctx.seqNum = seqNum → state.Sweepable hand side seqNum → state.Own smpMode side ref own →
      qty ≤ (state.order ref).leavesQuantity →
      (0 < qty → (restingOrders state.book.l3 side).length < fuel) →
      matchLoop env config side ref limit requestTime smpMode fuel ctx qty state =
        state.perform env side ref requestTime smpMode
          (sweep (withdrawThenShare (own ∘ BookOrder.orderId) (share config))
            (levelsWithin side limit (restingOrders state.book.l3 side)) qty) ctx qty) :
    (match fillLevel env side ref level.price resolve
        (allocate config (blankAllocations state.book level resolve) qty) ctx qty state with
      | (false, orderQty, ctx, state) => (⟨false, orderQty, ctx, state⟩ : LoopResult β)
      | (true, orderQty, ctx, state) =>
          matchLoop env config side ref limit requestTime smpMode fuel ctx orderQty state) =
      state.perform env side ref requestTime smpMode
        (sweep (withdrawThenShare (own ∘ BookOrder.orderId) (share config))
          (levelsWithin side limit (restingOrders state.book.l3 side)) qty) ctx qty := by
  obtain ⟨rest, queue, cut, filled, levelWithin, within, prices⟩ := level_of_crossableLevel crosses
  obtain ⟨offers, distinct, total, whole⟩ := offers_of_level config resolve ready.positive queue within more
  have positive : ∀ order ∈ level.orders, 0 < order.quantity := fun order member =>
    ready.inv.agrees.positive (entry_of_mem (by rw [queue]; exact List.mem_append_left _ member))
  have policy : Splits BookOrder.quantity (own ∘ BookOrder.orderId)
      (withdrawThenShare (own ∘ BookOrder.orderId) (share config)) :=
    withdrawThenShare_splits (share_shares config)
  have shares := policy.total positive more
  rw [foreignQty_of_foreign foreign] at shares
  rw [levelsWithin_cons cut levelWithin, sweep_cons more, shares, withdrawThenShare_foreign foreign,
    share_eq config state.book level resolve,
    fillLevel_performs requestTime smpMode held _ level.orders ctx qty state sameSeq ready offers distinct prices
      (by rw [total]; omega)]
  have keeps : MatchKeeps (β := β) env hand side seqNum ref requestTime fun _ _ _ => True := matchKeeps_trivial
  obtain ⟨ctx', state', fills, seqIs, round, left, -⟩ := fillLevel_spec keeps held level.price _
    level.orders ctx qty state sameSeq ready offers distinct
    (fun order member => ⟨foreign order member, prices order member⟩) (by rw [total]; omega)
    (by rw [total]; omega) trivial
  rw [fills, total]
  rw [total] at left
  dsimp only
  have emptied : 0 < qty - min qty level.totalQuantity → restingOrders state'.book.l3 side = rest :=
    fun spent => round.emptied rest (whole (by omega)) queue
  rw [next ctx' _ state' seqIs (ready.sweeps round.sweeps round.current) (mine.sweeps ready round.sweeps)
    (by omega) ?_]
  · by_cases spent : qty - min qty level.totalQuantity ≤ 0
    · rw [sweep_of_nonpos spent]
      exact congrArg (fun acts => state'.perform env side ref requestTime smpMode acts ctx' _)
        (sweep_of_nonpos spent).symm
    · rw [emptied (by omega)]
      rfl
  · intro spent
    rw [queue, List.length_append] at enough
    rw [emptied spent]
    omega

end Round

/-- The pro-rata loop performs, level by level, the withdrawals and then the shares. -/
theorem matchLoop_performs (held : hand.aggressor = some ref) (fuel : Nat) :
    ∀ (ctx : MatchContext) (qty : Int) (state : MatchState β),
      ctx.seqNum = seqNum → state.Sweepable hand side seqNum → state.Own smpMode side ref own →
      qty ≤ (state.order ref).leavesQuantity →
      (0 < qty → (restingOrders state.book.l3 side).length < fuel) →
      matchLoop env config side ref limit requestTime smpMode fuel ctx qty state =
        state.perform env side ref requestTime smpMode
          (sweep (withdrawThenShare (own ∘ BookOrder.orderId) (share config))
            (levelsWithin side limit (restingOrders state.book.l3 side)) qty) ctx qty := by
  induction fuel with
  | zero =>
      intro ctx qty state _ _ _ _ enough
      rw [sweep_of_nonpos (not_lt.mp fun more => absurd (enough more) (Nat.not_lt_zero _))]
      rfl
  | succ fuel ih =>
      intro ctx qty state sameSeq ready mine leaves enough
      unfold matchLoop
      by_cases done : qty ≤ 0
      · rw [if_pos done, sweep_of_nonpos done]
        rfl
      rw [if_neg done]
      have more : 0 < qty := by omega
      cases crosses : state.crossableLevel side limit with
      | none =>
          rw [levelsWithin_of_beyond (beyond_of_crossableLevel_none crosses)]
          rfl
      | some level =>
          obtain ⟨rest, queue, cut, filled, levelWithin, within, prices⟩ :=
            level_of_crossableLevel crosses
          have members : ∀ order ∈ level.orders, order ∈ restingOrders state.book.l3 side := by
            intro order member
            rw [queue]
            exact List.mem_append_left _ member
          by_cases foreign : ∀ order ∈ level.orders, (own ∘ BookOrder.orderId) order = false
          · have round := fun resolve => round_performs resolve held sameSeq ready mine leaves more
              (enough more) crosses foreign ih
            cases smpMode with
            | none => exact round false
            | cancelNewest =>
                obtain ⟨offers, -, -, -⟩ := offers_of_level config true ready.positive queue within more
                have nothing := cancelOwn_none env requestTime ctx offers mine (by decide) foreign
                simp only [ne_eq, reduceCtorEq, not_false_eq_true, decide_true, if_true, nothing]
                exact round true
            | cancelResting =>
                obtain ⟨offers, -, -, -⟩ := offers_of_level config true ready.positive queue within more
                have nothing := cancelOwn_none env requestTime ctx offers mine (by decide) foreign
                simp only [ne_eq, reduceCtorEq, not_false_eq_true, decide_true, if_true, nothing]
                exact round true
          · obtain ⟨order, member, isOwn⟩ : ∃ order ∈ level.orders, own order.orderId = true := by
              by_contra nothing
              refine foreign fun order member => ?_
              rw [← Bool.not_eq_true]
              exact fun isOwn => nothing ⟨order, member, isOwn⟩
            rw [levelsWithin_cons cut levelWithin, sweep_withdrawn (share_shares config) more]
            cases smpMode with
            | none => exact absurd rfl ((mine _ (members _ member)).mpr isOwn).1
            | cancelNewest =>
                obtain ⟨offers, -, -, -⟩ := offers_of_level config true ready.positive queue within more
                have refused := cancelOwn_newest env requestTime ctx offers mine ⟨_, member, isOwn⟩
                simp only [ne_eq, reduceCtorEq, not_false_eq_true, decide_true, if_true, refused]
                obtain ⟨front, others, isFilter⟩ := List.exists_cons_of_ne_nil
                  (List.ne_nil_of_mem (List.mem_filter.mpr ⟨member,
                    show (own ∘ BookOrder.orderId) order = true from isOwn⟩))
                rw [isFilter]
                rfl
            | cancelResting =>
                obtain ⟨offers, distinct, -, -⟩ := offers_of_level config true ready.positive queue within more
                have keeps : MatchKeeps (β := β) env hand side seqNum ref requestTime fun _ _ _ => True :=
                  matchKeeps_trivial
                obtain ⟨cancelled, between, cancels, effect, shorter, unchanged, -⟩ := cancelOwn_spec
                  keeps held sameSeq more _ level.orders state ready mine offers distinct trivial
                obtain ⟨_, _, same, performs, left⟩ := cancelOwn_performs sameSeq qty rest _ [] level.orders
                  state ready mine offers queue
                rw [cancels] at same
                obtain ⟨rfl, rfl⟩ : cancelled = _ ∧ between = _ := by simpa using same
                cases cancelled with
                | false =>
                    have := (unchanged rfl).2 order member
                    rw [isOwn] at this
                    cases this
                | true =>
                    simp only [ne_eq, reduceCtorEq, not_false_eq_true, decide_true, if_true, cancels]
                    rw [performs, ih ctx qty between sameSeq (ready.sweeps effect.sweeps effect.current)
                        (mine.sweeps ready effect.sweeps) (by rw [effect.order]; exact leaves)
                        (fun _ => by have := shorter rfl; have := enough more; omega), left,
                      List.nil_append, levelsWithin_thinned cut levelWithin List.filter_sublist]

end ProRata

/-! ## Both engines -/

namespace MatchingEngine

/-- What an engine does with a level that an aggressor reaches. -/
def splitLevel (engine : MatchingEngine) (own : Nat → Bool) :
    List BookOrder → Int → List (Act BookOrder) :=
  match engine with
  | .fifo => inOrder BookOrder.quantity (own ∘ BookOrder.orderId)
  | .proRata config => withdrawThenShare (own ∘ BookOrder.orderId) (ProRata.share config)

/-- What an aggressor does with a queue. -/
def plan (engine : MatchingEngine) (side : BookSide) (limit : Int) (own : Nat → Bool)
    (orders : List BookOrder) (qty : Int) : List (Act BookOrder) :=
  sweep (engine.splitLevel own) (levelsWithin side limit orders) qty

theorem splitLevel_splits (engine : MatchingEngine) (own : Nat → Bool) :
    Splits BookOrder.quantity (own ∘ BookOrder.orderId) (engine.splitLevel own) := by
  cases engine with
  | fifo => exact inOrder_splits _ _
  | proRata config => exact withdrawThenShare_splits (ProRata.share_shares config)

variable {β : Type} [OrderBookL3 β] {env : Environment} {hand : Hand} {side : BookSide}
  {seqNum ref requestTime : Nat} {limit qty : Int} {own : Nat → Bool} {smpMode : SelfMatchPreventionMode}
  {ctx : MatchContext} {state : MatchState β}

theorem matchLoop_performs (engine : MatchingEngine) (held : hand.aggressor = some ref)
    (sameSeq : ctx.seqNum = seqNum) (ready : state.Sweepable hand side seqNum)
    (mine : state.Own smpMode side ref own) (leaves : qty ≤ (state.order ref).leavesQuantity) :
    engine.matchLoop env side ref limit requestTime smpMode ctx qty state =
      state.perform env side ref requestTime smpMode
        (engine.plan side limit own (restingOrders state.book.l3 side) qty) ctx qty := by
  cases engine with
  | fifo =>
      unfold plan splitLevel
      rw [sweep_inOrder, flatten_levelsWithin]
      exact Fifo.matchLoop_performs held _ ctx qty state sameSeq ready mine leaves fun _ => Nat.lt_succ_self _
  | proRata config =>
      exact ProRata.matchLoop_performs held _ ctx qty state sameSeq ready mine leaves
        fun _ => Nat.lt_succ_self _

theorem feedLoop_performs (engine : MatchingEngine) (aggressorId : Nat) (ready : state.Sweepable hand side 0) :
    engine.feedLoop env side aggressorId limit ctx qty state =
      state.performFeed env side aggressorId
        (engine.plan side limit (fun _ => false) (restingOrders state.book.l3 side) qty) ctx qty := by
  cases engine with
  | fifo =>
      unfold plan splitLevel
      rw [sweep_inOrder, flatten_levelsWithin]
      exact Fifo.feedLoop_performs aggressorId _ ctx qty state ready fun _ => Nat.lt_succ_self _
  | proRata config =>
      exact ProRata.feedLoop_performs aggressorId _ ctx qty state ready fun _ => Nat.lt_succ_self _

end MatchingEngine

end SlickSim
