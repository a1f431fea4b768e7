import SlickSim.Ledger.Queues

/-!
# Matching loops sweep

Both engines deliver the same: the aggressor trades until it is done or nothing
within its limit is left, every effect on the way is one of a sweep, and a
`CANCEL_NEWEST` order that passed `wouldSelfMatch` is never refused later.
-/

set_option autoImplicit false

namespace SlickSim

open KeyedList
open OrderBookL3 (Regresses restingOrders)

/-- A state from which one side can be swept. -/
structure MatchState.Sweepable {β : Type} [OrderBookL3 β] (hand : Hand) (side : BookSide)
    (seqNum : Nat) (state : MatchState β) : Prop where
  inv : state.ledger.Represents hand
  current : ¬ Regresses state.book.l3 seqNum
  apart : ∀ {id resting ref}, state.ledger.entry id = some resting → resting.side = side →
    state.ledger.owner id = some ref → hand.resting ≠ some ref

/-- Which resting orders self-match prevention takes for the aggressor's own. -/
def MatchState.Own {β : Type} [OrderBookL3 β] (smpMode : SelfMatchPreventionMode) (side : BookSide)
    (ref : Nat) (own : Nat → Bool) (state : MatchState β) : Prop :=
  ∀ order ∈ restingOrders state.book.l3 side,
    (smpMode ≠ .none ∧
      isSelfMatch (state.order ref) (state.book.resolve order.orderId) = true) ↔
      own order.orderId = true

/-- What a matching loop has done when it returns. -/
structure LoopResult.Delivers {β : Type} [OrderBookL3 β] (env : Environment) (hand : Hand)
    (side : BookSide) (limit : Int) (own : Nat → Bool) (seqNum : Nat) (start : MatchState β)
    (qty : Int) (result : LoopResult β) : Prop where
  goesOn : result.refused = false
  sweeps : Sweeps env hand side start.ledger result.state.ledger
  current : ¬ Regresses result.state.book.l3 seqNum
  least : min qty 0 ≤ result.remaining
  settled : 0 < result.remaining → result.state.ledger.Beyond side limit
  conserved : result.remaining -
      crossableQty side limit own (restingOrders result.state.book.l3 side) =
    qty - crossableQty side limit own (restingOrders start.book.l3 side)

namespace MatchState

variable {β : Type} [OrderBookL3 β] {env : Environment} {hand : Hand} {side : BookSide}
  {seqNum ref : Nat} {state after : MatchState β} {resting : BookOrder} {qty limit : Int}
  {own : Nat → Bool} {smpMode : SelfMatchPreventionMode}

theorem isSelfMatch_congr {incoming incoming' : Order} {left right : Option Order}
    (same : incoming'.clientId = incoming.clientId)
    (others : right.map Order.clientId = left.map Order.clientId) :
    isSelfMatch incoming' right = isSelfMatch incoming left := by
  unfold isSelfMatch
  cases left <;> cases right <;> simp_all

theorem Sweepable.positive (ready : state.Sweepable hand side seqNum) :
    ∀ order ∈ restingOrders state.book.l3 side, 0 < order.quantity :=
  fun _ member => ready.inv.agrees.positive (entry_of_mem member)

/-- Taking liquidity keeps a state sweepable. -/
theorem Sweepable.sweeps (ready : state.Sweepable hand side seqNum)
    (sweeps : Sweeps env hand side state.ledger after.ledger)
    (current : ¬ Regresses after.book.l3 seqNum) : after.Sweepable hand side seqNum where
  inv := sweeps.represents ready.inv
  current := current
  apart := by
    intro id resting ref rests swept ours
    have frame := sweeps.takenFrom ready.inv
    obtain ⟨old, found, smaller⟩ := frame.shrinks rests
    refine ready.apart found (smaller.side.symm.trans swept) ?_
    rw [← ours]
    exact (frame.owner (by rw [rests]; rintro ⟨⟩)).symm

theorem Own.sweeps (mine : state.Own smpMode side ref own) (ready : state.Sweepable hand side seqNum)
    (sweeps : Sweeps env hand side state.ledger after.ledger) : after.Own smpMode side ref own := by
  intro order member
  have frame := sweeps.takenFrom ready.inv
  have rests := entry_of_mem member
  obtain ⟨old, found, smaller⟩ := frame.shrinks rests
  have oldMember := mem_of_entry found
  rw [← smaller.side, OrderBookL3.side_of_mem member] at oldMember
  have before := mine old oldMember
  rw [← smaller.orderId] at before
  rw [← before]
  have sameOwner : after.ledger.owner order.orderId = state.ledger.owner order.orderId :=
    frame.owner (by rw [rests]; rintro ⟨⟩)
  have resolved : (after.book.resolve order.orderId).map Order.clientId =
      (state.book.resolve order.orderId).map Order.clientId := by
    unfold OrderBook.resolve
    rw [show after.book.findOrder order.orderId = state.book.findOrder order.orderId from sameOwner]
    cases state.book.findOrder order.orderId with
    | none => rfl
    | some other => exact congrArg some (frame.terms other).clientId
  have sameClient : (after.order ref).clientId = (state.order ref).clientId :=
    (frame.terms ref).clientId
  rw [isSelfMatch_congr sameClient resolved]

theorem handleSelfMatch_takes (env : Environment) (requestTime timestamp : Nat) {bookRef : Nat}
    (ready : state.Sweepable hand side seqNum)
    (rests : state.ledger.entry resting.orderId = some resting) (swept : resting.side = side)
    (ours : state.ledger.owner resting.orderId = some bookRef) :
    ∃ state', state.handleSelfMatch env bookRef requestTime timestamp seqNum .cancelResting =
        (true, state') ∧
      Takes env hand side seqNum resting resting.quantity state state' ∧
      ∀ ref, ref ≠ bookRef → state'.order ref = state.order ref := by
  obtain ⟨takes, cancelled⟩ := cancelOrder_takes ready.inv ready.current rests swept ours
    (ready.apart rests swept ours) rfl
  refine ⟨_, rfl, takes, ?_⟩
  intro ref different
  have sameId := ready.inv.indexed.owner_id ours
  have changes : state.ledger.ChangesOnly (state.ledger.heap bookRef).id
      (state.ledger.cancelOrder env bookRef timestamp requestTime) :=
    .cancelOrder (ready.inv.indexed.registered ours)
  rw [← cancelled] at changes
  refine changes.heap ref ?_
  rw [sameId, ours]
  rintro ⟨⟩
  exact different rfl

theorem ref_of_selfMatch {id : Nat}
    (selfMatch : isSelfMatch (state.order ref) ((state.book.findOrder id).map state.book.heap) = true) :
    ∃ bookRef, state.ledger.owner id = some bookRef := by
  cases ours : state.book.findOrder id with
  | none =>
      rw [ours] at selfMatch
      cases selfMatch
  | some bookRef => exact ⟨bookRef, ours⟩

theorem aggressor_ne_owner {id bookRef : Nat} (inv : state.ledger.Represents hand) (held : hand.aggressor = some ref)
    (ours : state.ledger.owner id = some bookRef) (apart : hand.resting ≠ some bookRef) : ref ≠ bookRef := by
  rintro rfl
  have sameId := inv.indexed.owner_id ours
  cases hand <;> cases held
  · have unregistered := inv.indexed.fresh_unregistered rfl
    rw [sameId] at unregistered
    exact absurd (unregistered.symm.trans ours) (by rintro ⟨⟩)
  · exact apart rfl

theorem Sweepable.aggressor_ne {bookRef : Nat} (ready : state.Sweepable hand side seqNum)
    (held : hand.aggressor = some ref) (rests : state.ledger.entry resting.orderId = some resting)
    (swept : resting.side = side) (ours : state.ledger.owner resting.orderId = some bookRef) :
    ref ≠ bookRef :=
  aggressor_ne_owner ready.inv held ours (ready.apart rests swept ours)

theorem delivers_here {ctx : MatchContext} (ready : state.Sweepable hand side seqNum)
    (settled : 0 < qty → state.ledger.Beyond side limit) :
    LoopResult.Delivers env hand side limit own seqNum state qty ⟨false, qty, ctx, state⟩ where
  goesOn := rfl
  sweeps := .refl
  current := ready.current
  least := Int.min_le_left _ _
  settled := settled
  conserved := rfl

theorem delivers_after {result : LoopResult β} {left : Int}
    (sweeps : Sweeps env hand side state.ledger after.ledger) (least : min qty 0 ≤ left)
    (conserved : left - crossableQty side limit own (restingOrders after.book.l3 side) =
      qty - crossableQty side limit own (restingOrders state.book.l3 side))
    (delivers : result.Delivers env hand side limit own seqNum after left) :
    result.Delivers env hand side limit own seqNum state qty where
  goesOn := delivers.goesOn
  sweeps := sweeps.trans delivers.sweeps
  current := delivers.current
  least := by
    have := delivers.least
    omega
  settled := delivers.settled
  conserved := delivers.conserved.trans conserved

/-- One fill of the queue conserves what is left against what is within reach. -/
theorem Takes.conserved (takes : Takes env hand side seqNum resting qty state after)
    (member : resting ∈ restingOrders state.book.l3 side)
    (within : beyondLimit side resting.price limit = false) (foreign : own resting.orderId = false)
    (total : Int) :
    total - qty - crossableQty side limit own (restingOrders after.book.l3 side) =
      total - crossableQty side limit own (restingOrders state.book.l3 side) := by
  rw [takes.queue, crossableQty_fill (OrderBookL3.restingOrders_distinct _ _) member within foreign]
  omega

end MatchState

/-- An aggressor with something left took all that was within reach. -/
theorem LoopResult.Delivers.nothingLeft {β : Type} [OrderBookL3 β] {env : Environment} {hand : Hand}
    {side : BookSide} {limit qty : Int} {own : Nat → Bool} {seqNum : Nat} {start : MatchState β}
    {result : LoopResult β} (delivers : result.Delivers env hand side limit own seqNum start qty)
    (left : 0 < result.remaining) :
    crossableQty side limit own (restingOrders result.state.book.l3 side) = 0 := by
  apply crossableQty_of_beyond
  intro order member
  exact delivers.settled left _ order (MatchState.entry_of_mem member) (OrderBookL3.side_of_mem member)

/-- An aggressor executes what it wants or what is within reach, whichever is less. -/
theorem LoopResult.Delivers.remaining_eq {β : Type} [OrderBookL3 β] {env : Environment} {hand : Hand}
    {side : BookSide} {limit qty : Int} {own : Nat → Bool} {seqNum : Nat} {start : MatchState β}
    {result : LoopResult β} (delivers : result.Delivers env hand side limit own seqNum start qty)
    (ready : start.Sweepable hand side seqNum) (nonneg : 0 ≤ qty) :
    result.remaining = qty - min qty (crossableQty side limit own (restingOrders start.book.l3 side)) := by
  have after := ready.sweeps delivers.sweeps delivers.current
  have reach : 0 ≤ crossableQty side limit own (restingOrders result.state.book.l3 side) :=
    crossableQty_nonneg fun order member => after.inv.agrees.positive (MatchState.entry_of_mem member)
  have conserved := delivers.conserved
  have least := delivers.least
  have nothingLeft := delivers.nothingLeft
  omega

/-- Every fill from the feed keeps what a loop is said to keep. -/
def MatchState.FeedKeeps {β : Type} [OrderBookL3 β] (env : Environment) (hand : Hand) (side : BookSide)
    (seqNum : Nat) (Keeps : MatchContext → MatchState β → Prop) : Prop :=
  ∀ (ctx ctx' : MatchContext) (state state' : MatchState β) (resting : BookOrder) (qty remaining : Int)
    (aggressorId : Nat), state.Sweepable hand side seqNum →
    resting ∈ restingOrders state.book.l3 side → 0 < qty → qty ≤ resting.quantity →
    state.fillRestingFromFeed env ctx side aggressorId resting.orderId resting.price qty remaining =
      (true, remaining - qty, ctx', state') →
    Takes env hand side seqNum resting qty state state' → Keeps ctx state → Keeps ctx' state'

/-- What every fill of a client order and every self-match cancel on its way keep. The
quantity is what the order has left to match. -/
structure MatchState.MatchKeeps {β : Type} [OrderBookL3 β] (env : Environment) (hand : Hand)
    (side : BookSide) (seqNum ref requestTime : Nat) (Keeps : MatchContext → Int → MatchState β → Prop) :
    Prop where
  fill : ∀ (ctx ctx' : MatchContext) (state state' : MatchState β) (resting : BookOrder) (qty left : Int),
    state.Sweepable hand side seqNum → resting ∈ restingOrders state.book.l3 side →
    0 < qty → qty ≤ resting.quantity → qty ≤ left →
    state.fillResting env ctx side ref resting.orderId (state.book.findOrder resting.orderId)
      resting.price qty (left - qty) = (true, ctx', state') →
    Takes env hand side seqNum resting qty state state' → Keeps ctx left state →
    Keeps ctx' (left - qty) state'
  cancel : ∀ (ctx : MatchContext) (state state' : MatchState β) (resting : BookOrder) (bookRef : Nat)
    (left : Int), state.Sweepable hand side seqNum → resting ∈ restingOrders state.book.l3 side →
    0 < left → state.handleSelfMatch env bookRef requestTime ctx.eventTime seqNum .cancelResting =
      (true, state') →
    Takes env hand side seqNum resting resting.quantity state state' → Keeps ctx left state →
    Keeps ctx left state'

theorem MatchState.feedKeeps_trivial {β : Type} [OrderBookL3 β] {env : Environment} {hand : Hand}
    {side : BookSide} {seqNum : Nat} : FeedKeeps (β := β) env hand side seqNum fun _ _ => True :=
  fun _ _ _ _ _ _ _ _ _ _ _ _ _ _ _ => trivial

theorem MatchState.matchKeeps_trivial {β : Type} [OrderBookL3 β] {env : Environment} {hand : Hand}
    {side : BookSide} {seqNum ref requestTime : Nat} :
    MatchKeeps (β := β) env hand side seqNum ref requestTime fun _ _ _ => True where
  fill := fun _ _ _ _ _ _ _ _ _ _ _ _ _ _ _ => trivial
  cancel := fun _ _ _ _ _ _ _ _ _ _ _ _ => trivial

/-! ## FIFO -/

namespace Fifo

open MatchState

variable {β : Type} [OrderBookL3 β] {env : Environment} {hand : Hand} {side : BookSide}
  {seqNum ref requestTime : Nat} {limit : Int} {own : Nat → Bool}
  {smpMode : SelfMatchPreventionMode}

/-- The front of the best level, when it is within the limit. -/
theorem front_of_crossableLevel {state : MatchState β} {level : PriceLevelL3}
    (crosses : state.crossableLevel side limit = some level) :
    ∃ front queue rest, level.orders = front :: queue ∧
      restingOrders state.book.l3 side = front :: rest ∧ front.price = level.price ∧
      beyondLimit side front.price limit = false := by
  obtain ⟨within, rest, orders, -, filled, prices⟩ := crossableLevel_eq_some crosses
  obtain ⟨front, queue, isQueue⟩ := List.exists_cons_of_ne_nil filled
  have price := prices front (by rw [isQueue]; exact List.mem_cons_self)
  refine ⟨front, queue, queue ++ rest, isQueue, ?_, price, price ▸ within⟩
  rw [orders, isQueue, List.cons_append]

theorem feedLoop_delivers {Keeps : MatchContext → MatchState β → Prop}
    (keeps : FeedKeeps env hand side seqNum Keeps) (aggressorId fuel : Nat) :
    ∀ (ctx : MatchContext) (qty : Int) (state : MatchState β),
      ctx.seqNum = seqNum → state.Sweepable hand side seqNum →
      (0 < qty → (restingOrders state.book.l3 side).length < fuel) → Keeps ctx state →
      let result := feedLoop env side aggressorId limit fuel ctx qty state
      result.Delivers env hand side limit (fun _ => false) seqNum state qty ∧
        Keeps result.ctx result.state := by
  induction fuel with
  | zero =>
      intro ctx qty state _ ready enough kept
      exact ⟨delivers_here ready fun more => absurd (enough more) (Nat.not_lt_zero _), kept⟩
  | succ fuel ih =>
      intro ctx qty state sameSeq ready enough kept
      unfold feedLoop
      by_cases done : qty ≤ 0
      · rw [if_pos done]
        exact ⟨delivers_here ready fun more => absurd done (by omega), kept⟩
      rw [if_neg done]
      cases crosses : state.crossableLevel side limit with
      | none =>
          exact ⟨delivers_here ready fun _ => beyond_of_queue (beyond_of_crossableLevel_none crosses), kept⟩
      | some level =>
          obtain ⟨front, queue, rest, isQueue, orders, price, within⟩ :=
            front_of_crossableLevel crosses
          have member : front ∈ restingOrders state.book.l3 side := by
            rw [orders]
            exact List.mem_cons_self
          have rests := entry_of_mem member
          have swept := OrderBookL3.side_of_mem member
          have positive := ready.inv.agrees.positive rests
          have taking : 0 < min qty front.quantity := by omega
          obtain ⟨ctx', state', filled, seqIs, takes⟩ := fillRestingFromFeed_takes env
            ready.inv (sameSeq ▸ ready.current) rests swept (fun _ ours => ready.apart rests swept ours)
            taking (Int.min_le_right _ _) front.price aggressorId qty
          dsimp only
          rw [isQueue]
          dsimp only
          rw [← price, filled]
          rw [sameSeq] at takes
          have next := ih ctx' (qty - min qty front.quantity) state' (seqIs.trans sameSeq)
            (ready.sweeps takes.sweeps takes.current)
            (by
              intro more
              have whole : min qty front.quantity = front.quantity := by omega
              have shorter := length_takeFromQueue_lt member
              rw [takes.queue, whole]
              have := enough (by omega)
              omega)
            (keeps ctx ctx' state state' front _ qty aggressorId ready member taking
              (Int.min_le_right _ _) filled takes kept)
          exact ⟨delivers_after takes.sweeps (by omega) (takes.conserved member within rfl qty) next.1,
            next.2⟩

theorem matchLoop_delivers {Keeps : MatchContext → Int → MatchState β → Prop}
    (keeps : MatchKeeps env hand side seqNum ref requestTime Keeps) (held : hand.aggressor = some ref)
    (fuel : Nat) :
    ∀ (ctx : MatchContext) (qty : Int) (state : MatchState β),
      ctx.seqNum = seqNum → state.Sweepable hand side seqNum → state.Own smpMode side ref own →
      qty = (state.order ref).leavesQuantity →
      (0 < qty → (restingOrders state.book.l3 side).length < fuel) →
      (smpMode = .cancelNewest →
        QueueClear side limit own (restingOrders state.book.l3 side) qty) → Keeps ctx qty state →
      let result := matchLoop env side ref limit requestTime smpMode fuel ctx qty state
      result.Delivers env hand side limit own seqNum state qty ∧
        (result.state.order ref).leavesQuantity = result.remaining ∧
        Keeps result.ctx result.remaining result.state := by
  induction fuel with
  | zero =>
      intro ctx qty state _ ready _ leaves enough _ kept
      exact ⟨delivers_here ready fun more => absurd (enough more) (Nat.not_lt_zero _), leaves.symm, kept⟩
  | succ fuel ih =>
      intro ctx qty state sameSeq ready mine leaves enough clear kept
      unfold matchLoop
      by_cases done : qty ≤ 0
      · rw [if_pos done]
        exact ⟨delivers_here ready fun more => absurd done (by omega), leaves.symm, kept⟩
      rw [if_neg done]
      cases crosses : state.crossableLevel side limit with
      | none =>
          exact ⟨delivers_here ready fun _ => beyond_of_queue (beyond_of_crossableLevel_none crosses),
            leaves.symm, kept⟩
      | some level =>
          obtain ⟨front, queue, rest, isQueue, orders, price, within⟩ :=
            front_of_crossableLevel crosses
          have member : front ∈ restingOrders state.book.l3 side := by
            rw [orders]
            exact List.mem_cons_self
          have distinct := OrderBookL3.restingOrders_distinct state.book.l3 side
          have rests := entry_of_mem member
          have swept := OrderBookL3.side_of_mem member
          have positive := ready.inv.agrees.positive rests
          have shorter := length_takeFromQueue_lt member
          dsimp only
          rw [isQueue]
          dsimp only
          split
          · -- A self-match: the queue was clear for `CANCEL_NEWEST`, so this cancels the resting order.
            rename_i selfMatch
            have isOwn := (mine front member).mp selfMatch
            obtain ⟨bookRef, ours⟩ := ref_of_selfMatch selfMatch.2
            rw [show state.book.findOrder front.orderId = some bookRef from ours]
            cases smpMode with
            | none => exact absurd rfl selfMatch.1
            | cancelNewest =>
                have := clear rfl
                rw [orders] at this
                exact absurd (this (by omega) within).1 (by rw [isOwn]; decide)
            | cancelResting =>
                obtain ⟨state', cancelled, takes, others⟩ := handleSelfMatch_takes env
                  requestTime ctx.eventTime ready rests swept ours
                rw [show (some bookRef).getD 0 = bookRef from rfl, sameSeq, cancelled]
                have sameOrder := others ref (ready.aggressor_ne held rests swept ours)
                have conserved : crossableQty side limit own (restingOrders state'.book.l3 side) =
                    crossableQty side limit own (restingOrders state.book.l3 side) := by
                  rw [takes.queue]
                  exact crossableQty_cancel distinct member isOwn
                have next := ih ctx qty state' sameSeq (ready.sweeps takes.sweeps takes.current)
                  (mine.sweeps ready takes.sweeps) (by rw [sameOrder]; exact leaves)
                  (by
                    intro more
                    rw [takes.queue]
                    have := enough more
                    omega) (by rintro ⟨⟩)
                  (keeps.cancel ctx state state' front bookRef qty ready member (by omega) cancelled takes
                    kept)
                exact ⟨delivers_after takes.sweeps (Int.min_le_left _ _) (by rw [conserved]) next.1,
                  next.2⟩
          · rename_i noSelfMatch
            have foreign : own front.orderId = false := by
              rw [← Bool.not_eq_true]
              exact fun isOwn => noSelfMatch ((mine front member).mpr isOwn)
            obtain ⟨ctx', state', filled, seqIs, takes, left, -⟩ := fillResting_takes env ready.inv
              (sameSeq ▸ ready.current) rests swept (fun _ ours => ready.apart rests swept ours)
              (show 0 < min qty front.quantity by omega) (Int.min_le_right _ _) level.price held
              (by omega) (qty - min qty front.quantity)
            rw [filled]
            rw [sameSeq] at takes
            have next := ih ctx' (qty - min qty front.quantity) state' (seqIs.trans sameSeq)
              (ready.sweeps takes.sweeps takes.current) (mine.sweeps ready takes.sweeps) (by omega)
              (by
                intro more
                rw [takes.queue, show min qty front.quantity = front.quantity by omega]
                have := enough (by omega)
                omega)
              (by
                intro newest
                by_cases more : 0 < qty - min qty front.quantity
                · have whole : min qty front.quantity = front.quantity := by omega
                  have before := clear newest
                  rw [orders] at before distinct
                  rw [takes.queue, orders, whole, takeFromQueue_front distinct]
                  exact (before (by omega) within).2
                · exact .of_nonpos (by omega))
              (keeps.fill ctx ctx' state state' front _ qty ready member (by omega) (Int.min_le_right _ _)
                (Int.min_le_left _ _) (price ▸ filled) takes kept)
            exact ⟨delivers_after takes.sweeps (by omega) (takes.conserved member within foreign qty)
              next.1, next.2⟩

end Fifo

end SlickSim
