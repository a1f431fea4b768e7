import SlickSim.Engine.Allocation
import SlickSim.Ledger.Loops

/-!
# The pro-rata loops sweep

A round of the pro-rata engine is a run of fills, one for each order the
allocation gives something. A round that does not use up the aggressor takes the
whole level, so the queue gets shorter with every round.
-/

set_option autoImplicit false

namespace SlickSim

open KeyedList
open OrderBookL3 (Regresses restingOrders)

namespace ProRata

open MatchState

variable {β : Type} [OrderBookL3 β] {env : Environment} {hand : Hand} {side : BookSide}
  {seqNum ref requestTime : Nat} {limit : Int} {own : Nat → Bool} {resolve : Bool}
  {smpMode : SelfMatchPreventionMode} {config : ProRataConfig}

/-- An allocation to an order that rests within reach. -/
structure Offer (side : BookSide) (limit : Int) (resolve : Bool)
    (state : MatchState β) (item : Allocation) (order : BookOrder) : Prop where
  orderId : item.orderId = order.orderId
  size : item.size = order.quantity
  within : item.Within
  rests : state.ledger.entry order.orderId = some order
  swept : order.side = side
  crosses : beyondLimit side order.price limit = false
  resolved : resolve = true → item.order = state.book.findOrder order.orderId

theorem Offer.takes {state after : MatchState β} {item : Allocation} {order resting : BookOrder}
    {qty : Int} (offer : Offer side limit resolve state item order)
    (ready : state.Sweepable hand side seqNum)
    (takes : Takes env hand side seqNum resting qty state after)
    (different : order.orderId ≠ resting.orderId) : Offer side limit resolve after item order :=
  { offer with
    rests := (takes.entry _ different).trans offer.rests
    resolved := by
      intro resolving
      rw [offer.resolved resolving]
      have frame := takes.sweeps.takenFrom ready.inv
      have present : after.ledger.entry order.orderId ≠ none := by
        rw [takes.entry _ different, offer.rests]
        rintro ⟨⟩
      exact (frame.owner present).symm }

theorem offers_nonneg {state : MatchState β} {items : List Allocation} {orders : List BookOrder}
    (offers : List.Forall₂ (Offer side limit resolve state) items orders) :
    0 ≤ allocatedQty items := by
  induction offers with
  | nil => exact Int.le_refl 0
  | cons offer _ ih =>
      rw [allocatedQty_cons]
      have := offer.within.1
      omega

theorem offers_take {state after : MatchState β} {items : List Allocation} {orders : List BookOrder}
    {resting : BookOrder} {qty : Int}
    (offers : List.Forall₂ (Offer side limit resolve state) items orders)
    (ready : state.Sweepable hand side seqNum)
    (takes : Takes env hand side seqNum resting qty state after)
    (apart : resting.orderId ∉ orders.map BookOrder.orderId) :
    List.Forall₂ (Offer side limit resolve after) items orders := by
  induction offers with
  | nil => exact .nil
  | cons offer _ ih =>
      rw [List.map_cons, List.mem_cons, not_or] at apart
      exact .cons (offer.takes ready takes (Ne.symm apart.1)) (ih apart.2)

/-- A round took an allocation from the orders of a level. -/
structure RoundTakes (env : Environment) (hand : Hand) (side : BookSide) (limit : Int)
    (own : Nat → Bool) (seqNum : Nat) (orders : List BookOrder) (items : List Allocation)
    (before after : MatchState β) : Prop where
  sweeps : Sweeps env hand side before.ledger after.ledger
  current : ¬ Regresses after.book.l3 seqNum
  taken : crossableQty side limit own (restingOrders after.book.l3 side) =
    crossableQty side limit own (restingOrders before.book.l3 side) - allocatedQty items
  emptied : ∀ rest, (∀ item ∈ items, item.qty = item.size) →
    restingOrders before.book.l3 side = orders ++ rest → restingOrders after.book.l3 side = rest

theorem RoundTakes.nil {state : MatchState β} (ready : state.Sweepable hand side seqNum) :
    RoundTakes env hand side limit own seqNum [] [] state state where
  sweeps := .refl
  current := ready.current
  taken := (Int.sub_zero _).symm
  emptied := fun _ _ orders => orders

theorem RoundTakes.skip {before after : MatchState β} {item : Allocation} {order : BookOrder}
    {items : List Allocation} {orders : List BookOrder} (nothing : item.qty = 0)
    (sized : 0 < item.size)
    (round : RoundTakes env hand side limit own seqNum orders items before after) :
    RoundTakes env hand side limit own seqNum (order :: orders) (item :: items) before after where
  sweeps := round.sweeps
  current := round.current
  taken := by rw [round.taken, allocatedQty_cons, nothing, Int.zero_add]
  emptied := by
    intro rest whole
    have := whole item List.mem_cons_self
    omega

theorem RoundTakes.cons {before between after : MatchState β} {item : Allocation} {order : BookOrder}
    {items : List Allocation} {orders : List BookOrder}
    (round : RoundTakes env hand side limit own seqNum orders items between after)
    (offer : Offer side limit resolve before item order) (foreign : own order.orderId = false)
    (takes : Takes env hand side seqNum order item.qty before between) :
    RoundTakes env hand side limit own seqNum (order :: orders) (item :: items) before after where
  sweeps := takes.sweeps.trans round.sweeps
  current := round.current
  taken := by
    have member := mem_of_entry offer.rests
    rw [offer.swept] at member
    have := takes.conserved member offer.crosses foreign 0
    rw [round.taken, allocatedQty_cons]
    omega
  emptied := by
    intro rest whole isQueue
    apply round.emptied rest fun other member => whole other (List.mem_cons_of_mem _ member)
    have distinct := OrderBookL3.restingOrders_distinct before.book.l3 side
    rw [isQueue, List.cons_append] at distinct
    have full : item.qty = order.quantity := (whole item List.mem_cons_self).trans offer.size
    rw [takes.queue, full, isQueue, List.cons_append, takeFromQueue_front distinct]

theorem feedLevel_spec {Keeps : MatchContext → MatchState β → Prop}
    (keeps : FeedKeeps env hand side seqNum Keeps) (own : Nat → Bool) (aggressorId : Nat) (price : Int)
    (items : List Allocation) :
    ∀ (orders : List BookOrder) (ctx : MatchContext) (qty : Int) (state : MatchState β),
      ctx.seqNum = seqNum → state.Sweepable hand side seqNum →
      List.Forall₂ (Offer side limit resolve state) items orders →
      (orders.map BookOrder.orderId).Nodup →
      (∀ order ∈ orders, own order.orderId = false ∧ order.price = price) → Keeps ctx state →
      ∃ ctx' state', feedLevel env side aggressorId price items ctx qty state =
          (true, qty - allocatedQty items, ctx', state') ∧
        ctx'.seqNum = seqNum ∧
        RoundTakes env hand side limit own seqNum orders items state state' ∧ Keeps ctx' state' := by
  induction items with
  | nil =>
      intro orders ctx qty state sameSeq ready offers _ _ kept
      cases offers
      exact ⟨ctx, state, by rw [allocatedQty]; simp [feedLevel], sameSeq, .nil ready, kept⟩
  | cons item items ih =>
      intro orders ctx qty state sameSeq ready offers distinct foreign kept
      cases offers with
      | cons offer offers =>
          obtain ⟨fresh, distinct⟩ := List.nodup_cons.mp distinct
          have others := fun order inside => foreign order (List.mem_cons_of_mem _ inside)
          obtain ⟨foreignHere, samePrice⟩ := foreign _ List.mem_cons_self
          have sized : 0 < item.size := by
            rw [offer.size]
            exact ready.inv.agrees.positive offer.rests
          unfold feedLevel
          by_cases nothing : item.qty = 0
          · rw [if_pos nothing]
            obtain ⟨ctx', state', level, seqIs, round, still⟩ :=
              ih _ ctx qty state sameSeq ready offers distinct others kept
            refine ⟨ctx', state', ?_, seqIs, round.skip nothing sized, still⟩
            rw [level, allocatedQty_cons, nothing, Int.zero_add]
          · rw [if_neg nothing, offer.orderId]
            obtain ⟨nonneg, fits⟩ := offer.within
            rw [offer.size] at fits
            have taking : 0 < item.qty := by omega
            obtain ⟨ctx', state', filled, seqIs, takes⟩ := fillRestingFromFeed_takes env ready.inv
              (sameSeq ▸ ready.current) offer.rests offer.swept
              (fun _ ours => ready.apart offer.rests offer.swept ours) taking fits price aggressorId qty
            rw [filled]
            rw [sameSeq] at takes
            have member := mem_of_entry offer.rests
            rw [offer.swept] at member
            have kept' := keeps ctx ctx' state state' _ item.qty qty aggressorId ready member taking fits
              (samePrice ▸ filled) takes kept
            obtain ⟨ctx'', state'', level, seqIs', round, still⟩ := ih _ ctx' (qty - item.qty) state'
              (seqIs.trans sameSeq) (ready.sweeps takes.sweeps takes.current)
              (offers_take offers ready takes fresh) distinct others kept'
            refine ⟨ctx'', state'', ?_, seqIs', round.cons offer foreignHere takes, still⟩
            dsimp only
            rw [level, allocatedQty_cons, Int.sub_sub]

theorem fillLevel_spec {Keeps : MatchContext → Int → MatchState β → Prop}
    (keeps : MatchKeeps env hand side seqNum ref requestTime Keeps) (held : hand.aggressor = some ref)
    (price : Int) (items : List Allocation) :
    ∀ (orders : List BookOrder) (ctx : MatchContext) (qty : Int) (state : MatchState β),
      ctx.seqNum = seqNum → state.Sweepable hand side seqNum →
      List.Forall₂ (Offer side limit resolve state) items orders →
      (orders.map BookOrder.orderId).Nodup →
      (∀ order ∈ orders, own order.orderId = false ∧ order.price = price) →
      allocatedQty items ≤ (state.order ref).leavesQuantity → allocatedQty items ≤ qty →
      Keeps ctx qty state →
      ∃ ctx' state', fillLevel env side ref price resolve items ctx qty state =
          (true, qty - allocatedQty items, ctx', state') ∧
        ctx'.seqNum = seqNum ∧
        RoundTakes env hand side limit own seqNum orders items state state' ∧
        (state'.order ref).leavesQuantity =
          (state.order ref).leavesQuantity - allocatedQty items ∧
        Keeps ctx' (qty - allocatedQty items) state' := by
  induction items with
  | nil =>
      intro orders ctx qty state sameSeq ready offers _ _ _ _ kept
      cases offers
      exact ⟨ctx, state, by simp [fillLevel, allocatedQty], sameSeq, .nil ready, by
        simp [allocatedQty], by simpa [allocatedQty] using kept⟩
  | cons item items ih =>
      intro orders ctx qty state sameSeq ready offers distinct foreign enough fewer kept
      cases offers with
      | @cons _ front _ others offer offers =>
          have rest_nonneg := offers_nonneg offers
          have elsewhere := fun order inside => foreign order (List.mem_cons_of_mem _ inside)
          obtain ⟨fresh, distinct⟩ := List.nodup_cons.mp distinct
          have sized : 0 < item.size := by
            rw [offer.size]
            exact ready.inv.agrees.positive offer.rests
          obtain ⟨nonneg, fits⟩ := offer.within
          rw [allocatedQty_cons] at enough fewer
          obtain ⟨foreignHere, samePrice⟩ := foreign _ List.mem_cons_self
          unfold fillLevel
          by_cases nothing : item.qty = 0
          · rw [if_pos nothing]
            obtain ⟨ctx', state', level, seqIs, round, left, still⟩ :=
              ih _ ctx qty state sameSeq ready offers distinct elsewhere (by omega) (by omega) kept
            refine ⟨ctx', state', ?_, seqIs, round.skip nothing sized, ?_, ?_⟩
            · rw [level, allocatedQty_cons, nothing, Int.zero_add]
            · rw [left, allocatedQty_cons, nothing, Int.zero_add]
            · rwa [allocatedQty_cons, nothing, Int.zero_add]
          · have resting : (if resolve then item.order else state.book.findOrder item.orderId) =
                state.book.findOrder front.orderId := by
              split
              · exact offer.resolved ‹_›
              · rw [offer.orderId]
            rw [if_neg nothing]
            dsimp only
            rw [resting, offer.orderId]
            obtain ⟨ctx', state', filled, seqIs, takes, left, -⟩ := fillResting_takes env ready.inv
              (sameSeq ▸ ready.current) offer.rests offer.swept
              (fun _ ours => ready.apart offer.rests offer.swept ours)
              (show 0 < item.qty by omega) (by rw [← offer.size]; exact fits) price held (by omega)
              (qty - item.qty)
            rw [filled]
            rw [sameSeq] at takes
            have member := mem_of_entry offer.rests
            rw [offer.swept] at member
            have kept' := keeps.fill ctx ctx' state state' front item.qty qty ready member (by omega)
              (by rw [← offer.size]; exact fits) (by omega) (samePrice ▸ filled) takes kept
            obtain ⟨ctx'', state'', level, seqIs', round, left', still⟩ := ih _ ctx' (qty - item.qty)
              state' (seqIs.trans sameSeq) (ready.sweeps takes.sweeps takes.current)
              (offers_take offers ready takes fresh) distinct elsewhere (by omega) (by omega) kept'
            refine ⟨ctx'', state'', ?_, seqIs', round.cons offer foreignHere takes, ?_, ?_⟩
            · dsimp only
              rw [level, allocatedQty_cons, Int.sub_sub]
            · rw [left', left, allocatedQty_cons, Int.sub_sub]
            · rwa [allocatedQty_cons, ← Int.sub_sub]

theorem forall₂_of_mem {α γ : Type} {R S : α → γ → Prop} {left : List α} {right : List γ}
    (related : List.Forall₂ R left right)
    (stronger : ∀ a b, a ∈ left → b ∈ right → R a b → S a b) : List.Forall₂ S left right := by
  induction related with
  | nil => exact .nil
  | cons head _ ih =>
      exact .cons (stronger _ _ List.mem_cons_self List.mem_cons_self head)
        (ih fun a b aIn bIn => stronger a b (List.mem_cons_of_mem _ aIn) (List.mem_cons_of_mem _ bIn))

theorem offers_of_level (config : ProRataConfig) (resolve : Bool)
    {state : MatchState β} {level : PriceLevelL3} {rest : List BookOrder}
    {qty : Int} (sized : ∀ order ∈ restingOrders state.book.l3 side, 0 < order.quantity)
    (orders : restingOrders state.book.l3 side = level.orders ++ rest)
    (crosses : ∀ order ∈ level.orders, beyondLimit side order.price limit = false)
    (positive : 0 < qty) :
    let items := allocate config (blankAllocations state.book level resolve) qty
    List.Forall₂ (Offer side limit resolve state) items level.orders ∧
      (level.orders.map BookOrder.orderId).Nodup ∧
      allocatedQty items = min qty level.totalQuantity ∧
      (level.totalQuantity ≤ qty → ∀ item ∈ items, item.qty = item.size) := by
  intro items
  have members : ∀ order ∈ level.orders, order ∈ restingOrders state.book.l3 side := by
    intro order member
    rw [orders]
    exact List.mem_append_left _ member
  have sizes : allocatableQty (blankAllocations state.book level resolve) = level.totalQuantity := by
    unfold allocatableQty blankAllocations PriceLevelL3.totalQuantity
    rw [List.map_map]
    rfl
  have blank : ∀ item ∈ blankAllocations state.book level resolve, item.qty = 0 ∧ 0 ≤ item.size := by
    intro item member
    obtain ⟨order, inside, rfl⟩ := List.mem_map.mp member
    exact ⟨rfl, (sized order (members order inside)).le⟩
  obtain ⟨same, within, total⟩ := allocate_spec config blank positive
  have distinct := OrderBookL3.restingOrders_distinct state.book.l3 side
  rw [orders, List.map_append] at distinct
  refine ⟨?_, (List.nodup_append.mp distinct).1, by rw [total, sizes], ?_⟩
  · have offerable : ∀ order ∈ level.orders, ∀ item : Allocation, item.Within →
        item.SameOrder { orderId := order.orderId, size := order.quantity, qty := 0
                         order := if resolve then state.book.findOrder order.orderId else none } →
        Offer side limit resolve state item order := by
      intro order member item inside sameOrder
      exact {
        orderId := sameOrder.orderId
        size := sameOrder.size
        within := inside
        rests := entry_of_mem (members order member)
        swept := OrderBookL3.side_of_mem (members order member)
        crosses := crosses order member
        resolved := fun resolving => sameOrder.order.trans (if_pos resolving) }
    exact forall₂_of_mem (List.forall₂_map_right_iff.mp same) fun item order itemIn orderIn sameOrder =>
      offerable order orderIn item (within item itemIn) sameOrder
  · intro whole item member
    rw [show items = _ from allocate_whole (by rw [sizes]; exact whole)] at member
    obtain ⟨old, -, rfl⟩ := List.mem_map.mp member
    rfl

/-- What the orders of the best level have in common. -/
theorem level_of_crossableLevel {state : MatchState β} {level : PriceLevelL3}
    (crosses : state.crossableLevel side limit = some level) :
    ∃ rest, restingOrders state.book.l3 side = level.orders ++ rest ∧
      priceLevels (restingOrders state.book.l3 side) = level :: priceLevels rest ∧
      0 < level.orders.length ∧ beyondLimit side level.price limit = false ∧
      (∀ order ∈ level.orders, beyondLimit side order.price limit = false) ∧
      ∀ order ∈ level.orders, order.price = level.price := by
  obtain ⟨within, rest, orders, cut, filled, prices⟩ := crossableLevel_eq_some crosses
  refine ⟨rest, orders, cut, List.length_pos_iff.mpr filled, within, ?_, prices⟩
  intro order member
  rw [prices order member]
  exact within

theorem feedLoop_delivers {Keeps : MatchContext → MatchState β → Prop}
    (keeps : FeedKeeps env hand side seqNum Keeps) (aggressorId fuel : Nat) :
    ∀ (ctx : MatchContext) (qty : Int) (state : MatchState β),
      ctx.seqNum = seqNum → state.Sweepable hand side seqNum →
      (0 < qty → (restingOrders state.book.l3 side).length < fuel) → Keeps ctx state →
      let result := feedLoop env config side aggressorId limit fuel ctx qty state
      result.Delivers env hand side limit (fun _ => false) seqNum state qty ∧
        Keeps result.ctx result.state := by
  induction fuel with
  | zero =>
      intro ctx qty state _ ready enough kept
      exact ⟨delivers_here ready fun more => absurd (enough more) (Nat.not_lt_zero _), kept⟩
  | succ fuel ih =>
      intro ctx qty state sameSeq ready enough kept
      unfold feedLoop
      by_cases done : qty ≤ 0
      · rw [if_pos done]
        exact ⟨delivers_here ready fun more => absurd done (by omega), kept⟩
      rw [if_neg done]
      cases crosses : state.crossableLevel side limit with
      | none =>
          exact ⟨delivers_here ready fun _ => beyond_of_queue (beyond_of_crossableLevel_none crosses), kept⟩
      | some level =>
          obtain ⟨rest, orders, -, filled, -, within, prices⟩ := level_of_crossableLevel crosses
          obtain ⟨offers, distinct, total, whole⟩ := offers_of_level config false ready.positive
            orders within (show 0 < qty by omega)
          obtain ⟨ctx', state', fills, seqIs, round, still⟩ := feedLevel_spec keeps (fun _ => false)
            aggressorId level.price _ level.orders ctx qty state sameSeq ready offers distinct
            (fun order member => ⟨rfl, prices order member⟩) kept
          dsimp only
          rw [fills, total]
          have next := ih ctx' (qty - min qty level.totalQuantity) state' seqIs
            (ready.sweeps round.sweeps round.current)
            (by
              intro more
              rw [round.emptied rest (whole (show level.totalQuantity ≤ qty by omega)) orders]
              have := enough (by omega)
              rw [orders, List.length_append] at this
              omega)
            still
          exact ⟨delivers_after round.sweeps
            (show min qty 0 ≤ qty - min qty level.totalQuantity by omega)
            (by rw [round.taken, total]; omega) next.1, next.2⟩

/-! ## Orders of the aggressor's own -/

theorem cancelOwn_none (env : Environment) (requestTime : Nat) (ctx : MatchContext) {items : List Allocation} {orders : List BookOrder}
    {state : MatchState β} (offers : List.Forall₂ (Offer side limit true state) items orders)
    (mine : state.Own smpMode side ref own) (active : smpMode ≠ .none)
    (foreign : ∀ order ∈ orders, own order.orderId = false) :
    cancelOwn env ref requestTime ctx smpMode items state = (some false, state) := by
  induction offers with
  | nil => rfl
  | @cons item order _ _ head _ ih =>
      have member := mem_of_entry head.rests
      rw [head.swept] at member
      have different : ¬ isSelfMatch (state.order ref)
          ((state.book.findOrder order.orderId).map state.book.heap) = true := by
        intro selfMatch
        have isOwn := (mine order member).mp ⟨active, selfMatch⟩
        rw [foreign order List.mem_cons_self] at isOwn
        cases isOwn
      unfold cancelOwn
      rw [head.resolved rfl, if_neg different]
      exact ih fun other inside => foreign other (List.mem_cons_of_mem _ inside)

/-- What cancelling the aggressor's own orders of a level leaves. -/
structure Cancels (env : Environment) (hand : Hand) (side : BookSide) (limit : Int)
    (own : Nat → Bool) (seqNum ref : Nat) (before after : MatchState β) : Prop where
  sweeps : Sweeps env hand side before.ledger after.ledger
  current : ¬ Regresses after.book.l3 seqNum
  reach : crossableQty side limit own (restingOrders after.book.l3 side) =
    crossableQty side limit own (restingOrders before.book.l3 side)
  shorter : (restingOrders after.book.l3 side).length ≤ (restingOrders before.book.l3 side).length
  order : after.order ref = before.order ref

theorem Cancels.refl {state : MatchState β} (ready : state.Sweepable hand side seqNum) :
    Cancels env hand side limit own seqNum ref state state :=
  ⟨.refl, ready.current, rfl, le_rfl, rfl⟩

theorem cancelOwn_spec {Keeps : MatchContext → Int → MatchState β → Prop}
    (keeps : MatchKeeps env hand side seqNum ref requestTime Keeps) (held : hand.aggressor = some ref)
    {ctx : MatchContext} (sameSeq : ctx.seqNum = seqNum) {left : Int} (more : 0 < left)
    (items : List Allocation) :
    ∀ (orders : List BookOrder) (state : MatchState β), state.Sweepable hand side seqNum →
      state.Own .cancelResting side ref own →
      List.Forall₂ (Offer side limit true state) items orders → (orders.map BookOrder.orderId).Nodup →
      Keeps ctx left state →
      ∃ cancelled state', cancelOwn env ref requestTime ctx .cancelResting items state =
          (some cancelled, state') ∧
        Cancels env hand side limit own seqNum ref state state' ∧
        (cancelled = true → (restingOrders state'.book.l3 side).length <
          (restingOrders state.book.l3 side).length) ∧
        (cancelled = false → state' = state ∧ ∀ order ∈ orders, own order.orderId = false) ∧
        Keeps ctx left state' := by
  induction items with
  | nil =>
      intro orders state ready _ offers _ kept
      cases offers
      exact ⟨false, state, rfl, .refl ready, (by rintro ⟨⟩), fun _ => ⟨rfl, by simp⟩, kept⟩
  | cons item items ih =>
      intro orders state ready mine offers distinct kept
      cases offers with
      | @cons _ front _ others head tail =>
          obtain ⟨fresh, distinct⟩ := List.nodup_cons.mp distinct
          have member := mem_of_entry head.rests
          rw [head.swept] at member
          have isOwn := mine front member
          unfold cancelOwn
          rw [head.resolved rfl]
          by_cases selfMatch : isSelfMatch (state.order ref)
              ((state.book.findOrder front.orderId).map state.book.heap) = true
          · rw [if_pos selfMatch]
            obtain ⟨bookRef, ours⟩ := ref_of_selfMatch selfMatch
            obtain ⟨between, cancelled, takes, unchanged⟩ := handleSelfMatch_takes env requestTime
              ctx.eventTime ready head.rests head.swept ours
            rw [show state.book.findOrder front.orderId = some bookRef from ours,
              show (some bookRef).getD 0 = bookRef from rfl, sameSeq, cancelled]
            dsimp only
            have sameOrder := unchanged ref (ready.aggressor_ne held head.rests head.swept ours)
            have reach : crossableQty side limit own (restingOrders between.book.l3 side) =
                crossableQty side limit own (restingOrders state.book.l3 side) := by
              rw [takes.queue]
              exact crossableQty_cancel (OrderBookL3.restingOrders_distinct _ _) member
                (isOwn.mp ⟨by decide, selfMatch⟩)
            have fewer := length_takeFromQueue_lt member
            rw [← takes.queue] at fewer
            obtain ⟨_, state', rest, cancels, -, -, still⟩ := ih others between
              (ready.sweeps takes.sweeps takes.current) (mine.sweeps ready takes.sweeps)
              (offers_take tail ready takes fresh) distinct
              (keeps.cancel ctx state between front bookRef left ready member more cancelled takes kept)
            rw [rest]
            refine ⟨true, state', rfl, ?_, fun _ => lt_of_le_of_lt cancels.shorter fewer, by rintro ⟨⟩,
              still⟩
            exact {
              sweeps := takes.sweeps.trans cancels.sweeps
              current := cancels.current
              reach := cancels.reach.trans reach
              shorter := cancels.shorter.trans fewer.le
              order := cancels.order.trans sameOrder }
          · rw [if_neg selfMatch]
            obtain ⟨cancelled, state', rest, cancels, shorter, unchanged, still⟩ :=
              ih others state ready mine tail distinct kept
            refine ⟨cancelled, state', rest, cancels, shorter, ?_, still⟩
            intro nothing
            obtain ⟨same, foreign⟩ := unchanged nothing
            refine ⟨same, ?_⟩
            intro order inside
            rcases List.mem_cons.mp inside with rfl | inside
            · rw [← Bool.not_eq_true, ← isOwn]
              exact fun both => selfMatch both.2
            · exact foreign order inside

private theorem round_delivers {Keeps : MatchContext → Int → MatchState β → Prop}
    (keeps : MatchKeeps env hand side seqNum ref requestTime Keeps) (held : hand.aggressor = some ref)
    {fuel : Nat} {ctx : MatchContext} {qty : Int} {state : MatchState β} {level : PriceLevelL3} {rest : List BookOrder}
    (sameSeq : ctx.seqNum = seqNum) (ready : state.Sweepable hand side seqNum)
    (mine : state.Own smpMode side ref own) (leaves : qty = (state.order ref).leavesQuantity)
    (more : 0 < qty) (enough : (restingOrders state.book.l3 side).length < fuel + 1)
    (clear : smpMode = .cancelNewest →
      LevelClear side limit own (priceLevels (restingOrders state.book.l3 side)) qty)
    (orders : restingOrders state.book.l3 side = level.orders ++ rest)
    (cut : priceLevels (restingOrders state.book.l3 side) = level :: priceLevels rest)
    (filled : 0 < level.orders.length) (levelWithin : beyondLimit side level.price limit = false)
    (within : ∀ order ∈ level.orders, beyondLimit side order.price limit = false)
    (foreign : ∀ order ∈ level.orders, own order.orderId = false)
    (prices : ∀ order ∈ level.orders, order.price = level.price) (kept : Keeps ctx qty state)
    (next : ∀ (ctx : MatchContext) (qty : Int) (state : MatchState β),
      ctx.seqNum = seqNum → state.Sweepable hand side seqNum → state.Own smpMode side ref own →
      qty = (state.order ref).leavesQuantity →
      (0 < qty → (restingOrders state.book.l3 side).length < fuel) →
      (smpMode = .cancelNewest →
        LevelClear side limit own (priceLevels (restingOrders state.book.l3 side)) qty) →
      Keeps ctx qty state →
      let result := matchLoop env config side ref limit requestTime smpMode fuel ctx qty state
      result.Delivers env hand side limit own seqNum state qty ∧
        (result.state.order ref).leavesQuantity = result.remaining ∧
        Keeps result.ctx result.remaining result.state) :
    let result :=
      match fillLevel env side ref level.price resolve
          (allocate config (blankAllocations state.book level resolve) qty) ctx qty state with
      | (false, orderQty, ctx, state) => (⟨false, orderQty, ctx, state⟩ : LoopResult β)
      | (true, orderQty, ctx, state) =>
          matchLoop env config side ref limit requestTime smpMode fuel ctx orderQty state
    result.Delivers env hand side limit own seqNum state qty ∧
      (result.state.order ref).leavesQuantity = result.remaining ∧
      Keeps result.ctx result.remaining result.state := by
  obtain ⟨offers, distinct, total, whole⟩ := offers_of_level config resolve ready.positive orders within more
  obtain ⟨ctx', state', fills, seqIs, round, left, still⟩ := fillLevel_spec keeps held level.price _
    level.orders ctx qty state sameSeq ready offers distinct
    (fun order member => ⟨foreign order member, prices order member⟩) (by rw [total]; omega)
    (by rw [total]; omega) kept
  rw [fills, total]
  rw [total] at left still
  have emptied : 0 < qty - min qty level.totalQuantity →
      restingOrders state'.book.l3 side = rest := by
    intro still
    exact round.emptied rest (whole (show level.totalQuantity ≤ qty by omega)) orders
  obtain ⟨delivers, sameLeaves, keptOn⟩ := next ctx' (qty - min qty level.totalQuantity) state' seqIs
    (ready.sweeps round.sweeps round.current) (mine.sweeps ready round.sweeps) (by omega)
    (by
      intro still
      rw [emptied still]
      rw [orders, List.length_append] at enough
      omega)
    (by
      intro newest
      by_cases still : 0 < qty - min qty level.totalQuantity
      · have before := clear newest
        rw [cut] at before
        rw [emptied still]
        have := (before more levelWithin).2
        rwa [show qty - min qty level.totalQuantity = qty - level.totalQuantity by omega]
      · exact .of_nonpos (by omega)) still
  exact ⟨delivers_after round.sweeps (by omega) (by rw [round.taken, total]; omega) delivers, sameLeaves,
    keptOn⟩

theorem matchLoop_delivers {Keeps : MatchContext → Int → MatchState β → Prop}
    (keeps : MatchKeeps env hand side seqNum ref requestTime Keeps) (held : hand.aggressor = some ref)
    (fuel : Nat) :
    ∀ (ctx : MatchContext) (qty : Int) (state : MatchState β),
      ctx.seqNum = seqNum → state.Sweepable hand side seqNum → state.Own smpMode side ref own →
      qty = (state.order ref).leavesQuantity →
      (0 < qty → (restingOrders state.book.l3 side).length < fuel) →
      (smpMode = .cancelNewest →
        LevelClear side limit own (priceLevels (restingOrders state.book.l3 side)) qty) →
      Keeps ctx qty state →
      let result := matchLoop env config side ref limit requestTime smpMode fuel ctx qty state
      result.Delivers env hand side limit own seqNum state qty ∧
        (result.state.order ref).leavesQuantity = result.remaining ∧
        Keeps result.ctx result.remaining result.state := by
  induction fuel with
  | zero =>
      intro ctx qty state _ ready _ leaves enough _ kept
      exact ⟨delivers_here ready fun more => absurd (enough more) (Nat.not_lt_zero _), leaves.symm, kept⟩
  | succ fuel ih =>
      intro ctx qty state sameSeq ready mine leaves enough clear kept
      unfold matchLoop
      by_cases done : qty ≤ 0
      · rw [if_pos done]
        exact ⟨delivers_here ready fun more => absurd done (by omega), leaves.symm, kept⟩
      rw [if_neg done]
      have more : 0 < qty := by omega
      cases crosses : state.crossableLevel side limit with
      | none =>
          exact ⟨delivers_here ready fun _ => beyond_of_queue (beyond_of_crossableLevel_none crosses),
            leaves.symm, kept⟩
      | some level =>
          obtain ⟨rest, orders, cut, filled, levelWithin, within, prices⟩ :=
            level_of_crossableLevel crosses
          have members : ∀ order ∈ level.orders, order ∈ restingOrders state.book.l3 side := by
            intro order member
            rw [orders]
            exact List.mem_append_left _ member
          cases smpMode with
          | none =>
              refine round_delivers keeps held sameSeq ready mine leaves more (enough more) clear orders cut
                filled levelWithin within ?_ prices kept ih
              intro order member
              rw [← Bool.not_eq_true, ← mine order (members order member)]
              exact fun both => both.1 rfl
          | cancelNewest =>
              have before := clear rfl
              rw [cut] at before
              have foreign := (before more levelWithin).1
              obtain ⟨offers, -, -, -⟩ := offers_of_level config true ready.positive orders within more
              have nothing := cancelOwn_none env requestTime ctx offers mine (by decide) foreign
              simp only [ne_eq, reduceCtorEq, not_false_eq_true, decide_true, if_true, nothing]
              exact round_delivers keeps held sameSeq ready mine leaves more (enough more) clear orders cut
                filled levelWithin within foreign prices kept ih
          | cancelResting =>
              obtain ⟨offers, distinct, -, -⟩ := offers_of_level config true ready.positive orders within more
              obtain ⟨cancelled, between, cancels, effect, shorter, unchanged, still⟩ := cancelOwn_spec
                keeps held sameSeq more _ level.orders state ready mine offers distinct kept
              simp only [ne_eq, reduceCtorEq, not_false_eq_true, decide_true, if_true, cancels]
              cases cancelled with
              | false =>
                  obtain ⟨rfl, foreign⟩ := unchanged rfl
                  exact round_delivers keeps held sameSeq ready mine leaves more (enough more) clear orders
                    cut filled levelWithin within foreign prices kept ih
              | true =>
                  obtain ⟨delivers, sameLeaves, keptOn⟩ := ih ctx qty between sameSeq
                    (ready.sweeps effect.sweeps effect.current) (mine.sweeps ready effect.sweeps)
                    (by rw [effect.order]; exact leaves)
                    (by
                      intro _
                      have := shorter rfl
                      have := enough more
                      omega)
                    (by rintro ⟨⟩) still
                  exact ⟨delivers_after effect.sweeps (Int.min_le_left _ _) (by rw [effect.reach])
                    delivers, sameLeaves, keptOn⟩

end ProRata

end SlickSim
