import SlickSim.Ledger.CheckedFills
import SlickSim.Ledger.Planned
import SlickSim.Ledger.Reachable
import SlickSim.OrderBook.Reference

/-!
# Matching terminates

Whatever executions the book declines, every round of a matching loop passes its checks, and one
that goes on leaves less to do: the aggressor is done, or there are fewer orders for it to meet.
Only the pro-rata engine has to add a level up: there a level past 64 bits that the aggressor
comes to is where the loop goes wrong.
-/

set_option autoImplicit false

namespace SlickSim

open OrderBookL3 (Regresses restingOrders)
open Rounds (Round)

/-! ## Levels that fit -/

/-- Every level that an aggressor of so much comes to, past orders of its own, fits the type that
quantities have. -/
def LevelsFit (side : BookSide) (limit : Int) (own : Nat → Bool) : List PriceLevelL3 → Int → Prop
  | [], _ => True
  | level :: rest, qty =>
      0 < qty → beyondLimit side level.price limit = false →
        level.totalQuantity < 2 ^ 63 ∧
          LevelsFit side limit own rest (qty - crossableQty side limit own level.orders)

instance decidableLevelsFit (side : BookSide) (limit : Int) (own : Nat → Bool) :
    ∀ levels qty, Decidable (LevelsFit side limit own levels qty)
  | [], _ => isTrue trivial
  | level :: rest, qty =>
      have := decidableLevelsFit side limit own rest (qty - crossableQty side limit own level.orders)
      inferInstanceAs (Decidable (_ → _ → _ ∧ _))

namespace LevelsFit

variable {side : BookSide} {limit qty : Int} {own : Nat → Bool} {levels : List PriceLevelL3}
  {level : PriceLevelL3} {orders rest : List BookOrder}

theorem of_nonpos (done : qty ≤ 0) : LevelsFit side limit own levels qty := by
  cases levels with
  | nil => trivial
  | cons level rest =>
      intro more
      omega

theorem cons_iff (more : 0 < qty) (within : beyondLimit side level.price limit = false) :
    LevelsFit side limit own (level :: levels) qty ↔
      level.totalQuantity < 2 ^ 63 ∧
        LevelsFit side limit own levels (qty - crossableQty side limit own level.orders) :=
  ⟨fun fit => fit more within, fun fit _ _ => fit⟩

theorem of_crossableLevel_none {β : Type} [OrderBookL3 β] {state : MatchState β}
    (crosses : state.crossableLevel side limit = none) :
    LevelsFit side limit own (priceLevels (restingOrders state.book.l3 side)) qty := by
  have beyond := MatchState.beyond_of_crossableLevel_none crosses
  cases cut : priceLevels (restingOrders state.book.l3 side) with
  | nil => trivial
  | cons level levels =>
      obtain ⟨filled, inside, prices⟩ := mem_priceLevels (show level ∈ _ from cut ▸ List.mem_cons_self)
      obtain ⟨front, queue, isQueue⟩ := List.exists_cons_of_ne_nil filled
      have member : front ∈ level.orders := by
        rw [isQueue]
        exact List.mem_cons_self
      intro _ within
      rw [← prices front member, beyond front (inside.subset member)] at within
      cases within

/-- What an aggressor passes over it does not take: it gets further. -/
theorem mono {passed : Nat → Bool} {more : Int} (fit : LevelsFit side limit passed levels more)
    (positive : ∀ level ∈ levels, ∀ order ∈ level.orders, 0 < order.quantity)
    (fewer : ∀ id, own id = true → passed id = true) (less : qty ≤ more) :
    LevelsFit side limit own levels qty := by
  induction levels generalizing qty more with
  | nil => trivial
  | cons level levels ih =>
      intro some within
      obtain ⟨total, later⟩ := fit (by omega) within
      refine ⟨total, ih later (fun other member => positive other (List.mem_cons_of_mem _ member)) ?_⟩
      have takes : crossableQty side limit passed level.orders ≤ crossableQty side limit own level.orders := by
        refine List.sum_le_sum fun order member => ?_
        have sized := positive level List.mem_cons_self order member
        have passes := fewer order.orderId
        unfold offeredQty
        split <;> split <;> rename_i first second
        · rfl
        · omega
        · rcases second with beyond | mine
          · exact absurd (.inl beyond) first
          · exact absurd (.inr (passes mine)) first
        · rfl
      omega

theorem crossableQty_foreign (within : ∀ order ∈ orders, beyondLimit side order.price limit = false)
    (foreign : ∀ order ∈ orders, own order.orderId = false) :
    crossableQty side limit own orders = (orders.map BookOrder.quantity).sum := by
  unfold crossableQty
  refine congrArg List.sum (List.map_congr_left fun order member => ?_)
  unfold offeredQty
  rw [if_neg (by simp [within order member, foreign order member])]

/-- After a level was traded with, what is left fits as before. -/
theorem filled_iff {left : List BookOrder} (more : 0 < qty) (within : beyondLimit side level.price limit = false)
    (reach : ∀ order ∈ level.orders, beyondLimit side order.price limit = false)
    (foreign : ∀ order ∈ level.orders, own order.orderId = false) (fits : level.totalQuantity < 2 ^ 63)
    (whole : 0 < qty - min qty level.totalQuantity → left = rest) :
    LevelsFit side limit own (priceLevels left) (qty - min qty level.totalQuantity) ↔
      LevelsFit side limit own (level :: priceLevels rest) qty := by
  rw [cons_iff more within, crossableQty_foreign reach foreign]
  change _ ↔ _ ∧ LevelsFit side limit own (priceLevels rest) (qty - level.totalQuantity)
  by_cases done : qty ≤ level.totalQuantity
  · exact iff_of_true (of_nonpos (by omega)) ⟨fits, of_nonpos (by omega)⟩
  · rw [whole (by omega), min_eq_right (by omega)]
    exact ⟨fun fit => ⟨fits, fit⟩, fun fit => fit.2⟩

theorem crossableQty_filter (side : BookSide) (limit : Int) (own : Nat → Bool) (orders : List BookOrder) :
    crossableQty side limit own (orders.filter fun order => !(own ∘ BookOrder.orderId) order) =
      crossableQty side limit own orders := by
  induction orders with
  | nil => rfl
  | cons order orders ih =>
      unfold crossableQty at ih ⊢
      rw [List.map_cons, List.sum_cons]
      cases mine : own order.orderId with
      | true =>
          rw [List.filter_cons_of_neg (by simp [mine]), ih, offeredQty, if_pos (.inr mine), Int.zero_add]
      | false => rw [List.filter_cons_of_pos (by simp [mine]), List.map_cons, List.sum_cons, ih]

/-- After the aggressor's own orders of a level were cancelled, what is left fits as before. -/
theorem thinned_iff (more : 0 < qty) (within : beyondLimit side level.price limit = false)
    (cut : priceLevels orders = level :: priceLevels rest)
    (positive : ∀ order ∈ level.orders, 0 < order.quantity) (fits : level.totalQuantity < 2 ^ 63) :
    LevelsFit side limit own
        (priceLevels ((level.orders.filter fun order => !(own ∘ BookOrder.orderId) order) ++ rest)) qty ↔
      LevelsFit side limit own (level :: priceLevels rest) qty := by
  have same := crossableQty_filter side limit own level.orders
  have thinner : (level.orders.filter fun order => !(own ∘ BookOrder.orderId) order).Sublist level.orders :=
    List.filter_sublist
  generalize (level.orders.filter fun order => !(own ∘ BookOrder.orderId) order) = left at same thinner ⊢
  rw [cons_iff more within, ← same]
  by_cases gone : left = []
  · subst gone
    rw [List.nil_append, show crossableQty side limit own [] = 0 from rfl, Int.sub_zero]
    exact ⟨fun fit => ⟨fits, fit⟩, fun fit => fit.2⟩
  · have less : (left.map BookOrder.quantity).sum ≤ level.totalQuantity := by
      refine List.Sublist.sum_le_sum (thinner.map _) fun qty member => ?_
      obtain ⟨order, inside, rfl⟩ := List.mem_map.mp member
      exact (positive order inside).le
    rw [priceLevels_thinned cut gone thinner, cons_iff more]
    · exact and_congr_left' (iff_of_true (lt_of_le_of_lt less fits) fits)
    · exact within

end LevelsFit

/-! ## Rounds -/

namespace Progress

open MatchState

variable {β : Type} [OrderBookL3 β] {env : Environment} {hand : Hand} {side : BookSide}
  {seqNum ref : Nat} {progress before after : Progress β} {order : BookOrder} {tradeQty : Int}

structure Ready (hand : Hand) (side : BookSide) (seqNum : Nat) (progress : Progress β) : Prop where
  sameSeq : progress.ctx.seqNum = seqNum
  state : progress.state.Ready hand side seqNum

structure Matches (hand : Hand) (side : BookSide) (seqNum ref : Nat) (progress : Progress β) : Prop
    extends progress.Ready hand side seqNum where
  leaves : progress.qty = (progress.state.order ref).leavesQuantity

/-- No more rounds than this are left before the last one. -/
def todo (side : BookSide) (seqNum : Nat) (progress : Progress β) : Nat :=
  if 0 < progress.qty then (progress.state.toMeet side seqNum).length else 0

/-- A fill that leaves the aggressor something takes all of its order. -/
theorem Took.fewer (took : Took env hand side seqNum order tradeQty before after)
    (ready : before.state.Sweepable hand side seqNum) (member : order ∈ restingOrders before.state.book.l3 side)
    (more : 0 < before.qty) (whole : 0 < after.qty → tradeQty = order.quantity) :
    after.todo side seqNum < before.todo side seqNum := by
  have next := ready.sweeps took.takes.sweeps took.takes.current
  have shorter := length_takeFromQueue_lt member
  unfold todo
  rw [if_pos more, ready.toMeet, next.toMeet]
  split
  · rename_i left
    rw [took.takes.queue, whole left]
    exact shorter
  · exact Nat.zero_lt_of_lt shorter

end Progress

namespace Fifo

open MatchState

variable {β : Type} [OrderBookL3 β] {hand : Hand} {side : BookSide} {seqNum ref : Nat} {progress : Progress β}

theorem feedRound_advances (env : Environment) (declines : Declines β) (aggressorId : Nat) (price : Int)
    (ready : progress.Ready hand side seqNum) :
    (feedRound env declines side aggressorId price progress).Advances (Progress.Ready hand side seqNum)
      (Progress.todo side seqNum) progress := by
  unfold feedRound
  by_cases done : progress.qty ≤ 0
  · rw [if_pos done]
    trivial
  rw [if_neg done]
  cases crosses : progress.state.crossableLevel side price with
  | none => trivial
  | some level =>
      obtain ⟨front, queue, rest, isQueue, orders, -, -⟩ := front_of_crossableLevel crosses
      have member : front ∈ restingOrders progress.state.book.l3 side := by
        rw [orders]
        exact List.mem_cons_self
      have positive := ready.state.offers.positive front member
      dsimp only
      rw [isQueue]
      dsimp only
      cases ready.state with
      | current state =>
          obtain ⟨taken, after, filled, took, -⟩ := Progress.fillFromFeed_current ready.sameSeq member
            (show 0 < min progress.qty front.quantity by omega) (Int.min_le_right _ _) (Int.min_le_left _ _)
            env declines aggressorId level.price state
          rw [filled]
          cases taken with
          | false => trivial
          | true =>
              have took := took rfl
              have left := took.qty
              exact ⟨⟨took.sameSeq, .current (state.sweeps took.takes.sweeps took.takes.current)⟩,
                took.fewer state member (by omega) (by omega)⟩
      | stale regresses offers =>
          obtain ⟨after, declined⟩ := Progress.fillFromFeed_stale ready.sameSeq member
            (show 0 < min progress.qty front.quantity by omega) (Int.min_le_right _ _) (Int.min_le_left _ _)
            env declines aggressorId level.price regresses offers
          rw [declined]
          trivial

theorem matchRound_advances (env : Environment) (declines : Declines β) (price : Int) (requestTime : Nat)
    (smpMode : SelfMatchPreventionMode) (held : hand.aggressor = some ref)
    (ready : progress.Matches hand side seqNum ref) :
    (matchRound env declines side ref price requestTime smpMode progress).Advances
      (Progress.Matches hand side seqNum ref) (Progress.todo side seqNum) progress := by
  unfold matchRound
  by_cases done : progress.qty ≤ 0
  · rw [if_pos done]
    trivial
  rw [if_neg done]
  cases crosses : progress.state.crossableLevel side price with
  | none => trivial
  | some level =>
      obtain ⟨front, queue, rest, isQueue, orders, -, -⟩ := front_of_crossableLevel crosses
      have member : front ∈ restingOrders progress.state.book.l3 side := by
        rw [orders]
        exact List.mem_cons_self
      have positive := ready.state.offers.positive front member
      have leaves := ready.leaves
      dsimp only
      rw [isQueue]
      dsimp only
      split
      · rename_i selfMatch
        obtain ⟨bookRef, ours⟩ := ref_of_selfMatch selfMatch.2
        rw [show progress.state.book.findOrder front.orderId = some bookRef from ours]
        cases smpMode with
        | none => exact absurd rfl selfMatch.1
        | cancelNewest => trivial
        | cancelResting =>
            obtain ⟨after, cancelled, withdraws⟩ := ready.state.withdraws env requestTime progress.ctx.eventTime
              member ours
            rw [show (some bookRef).getD 0 = bookRef from rfl, ready.sameSeq, cancelled]
            refine ⟨⟨⟨ready.sameSeq, withdraws.ready⟩, ?_⟩, ?_⟩
            · rw [leaves, ← withdraws.aggressor ref held]
            · have fewer := withdraws.fewer
              unfold Progress.todo
              dsimp only
              rwa [if_pos (by omega), if_pos (by omega)]
      · cases ready.state with
        | current state =>
            obtain ⟨taken, after, filled, took, -⟩ := Progress.fill_current ready.sameSeq member
              (show 0 < min progress.qty front.quantity by omega) (Int.min_le_right _ _) (Int.min_le_left _ _)
              env declines level.price state held (by omega)
            rw [filled]
            cases taken with
            | false => trivial
            | true =>
                obtain ⟨took, left⟩ := took rfl
                have less := took.qty
                exact ⟨⟨⟨took.sameSeq, .current (state.sweeps took.takes.sweeps took.takes.current)⟩, by omega⟩,
                  took.fewer state member (by omega) (by omega)⟩
        | stale regresses offers =>
            obtain ⟨after, declined⟩ := Progress.fill_stale ready.sameSeq member
              (show 0 < min progress.qty front.quantity by omega) (Int.min_le_right _ _) (Int.min_le_left _ _)
              env declines level.price (progress.state.book.findOrder front.orderId) regresses offers held (by omega)
            rw [declined]
            trivial

end Fifo

namespace ProRata

open MatchState

variable {β : Type} [OrderBookL3 β] {env : Environment} {hand : Hand} {side : BookSide} {seqNum ref : Nat}
  {progress before after : Progress β} {config : ProRataConfig} {limit price : Int} {resolve : Bool}
  {items : List Allocation} {orders : List BookOrder}

/-- A loop took an allocation from the orders of a level. -/
structure TookLevel (env : Environment) (hand : Hand) (side : BookSide) (limit : Int) (seqNum : Nat)
    (orders : List BookOrder) (items : List Allocation) (before after : Progress β) : Prop where
  sameSeq : after.ctx.seqNum = seqNum
  qty : after.qty = before.qty - allocatedQty items
  round : RoundTakes env hand side limit (fun _ => false) seqNum orders items before.state after.state

theorem TookLevel.nil (sameSeq : progress.ctx.seqNum = seqNum) (ready : progress.state.Sweepable hand side seqNum) :
    TookLevel env hand side limit seqNum [] [] progress progress :=
  ⟨sameSeq, (Int.sub_zero _).symm, .nil ready⟩

theorem TookLevel.skip {item : Allocation} {order : BookOrder}
    (took : TookLevel env hand side limit seqNum orders items before after) (nothing : item.qty = 0)
    (sized : 0 < item.size) :
    TookLevel env hand side limit seqNum (order :: orders) (item :: items) before after where
  sameSeq := took.sameSeq
  qty := by rw [took.qty, allocatedQty_cons, nothing, Int.zero_add]
  round := took.round.skip nothing sized

theorem TookLevel.cons {between : Progress β} {item : Allocation} {order : BookOrder}
    (took : TookLevel env hand side limit seqNum orders items between after)
    (offer : Offer side limit resolve before.state item order)
    (first : Progress.Took env hand side seqNum order item.qty before between) :
    TookLevel env hand side limit seqNum (order :: orders) (item :: items) before after where
  sameSeq := took.sameSeq
  qty := by rw [took.qty, first.qty, allocatedQty_cons, Int.sub_sub]
  round := took.round.cons offer rfl first.takes

theorem eachAllocation_current {fill : Allocation → Progress β → Option (Bool × Progress β)} {undeclined : Prop}
    (Keeps : Progress β → Prop)
    (takes : ∀ (item : Allocation) (order : BookOrder) (progress : Progress β),
      progress.ctx.seqNum = seqNum → progress.state.Sweepable hand side seqNum → Keeps progress →
      Offer side limit resolve progress.state item order → 0 < item.qty → item.qty ≤ progress.qty →
      ∃ taken after, fill item progress = some (taken, after) ∧
        (taken = true → Progress.Took env hand side seqNum order item.qty progress after ∧ Keeps after) ∧
        (undeclined → taken = true))
    (offers : List.Forall₂ (Offer side limit resolve progress.state) items orders)
    (sameSeq : progress.ctx.seqNum = seqNum) (ready : progress.state.Sweepable hand side seqNum)
    (kept : Keeps progress) (distinct : (orders.map BookOrder.orderId).Nodup)
    (enough : allocatedQty items ≤ progress.qty) :
    ∃ taken after, eachAllocation fill items progress = some (taken, after) ∧
      (taken = true → TookLevel env hand side limit seqNum orders items progress after ∧ Keeps after) ∧
      (undeclined → taken = true) := by
  induction items generalizing progress orders with
  | nil =>
      cases offers
      exact ⟨true, progress, rfl, fun _ => ⟨.nil sameSeq ready, kept⟩, fun _ => rfl⟩
  | cons item items ih =>
      cases offers with
      | @cons _ order _ orders offer offers =>
          obtain ⟨fresh, distinct⟩ := List.nodup_cons.mp distinct
          have nonneg := offer.within.1
          have later := offers_nonneg offers
          rw [allocatedQty_cons] at enough
          rw [eachAllocation]
          by_cases nothing : item.qty = 0
          · rw [if_pos nothing]
            have member := mem_of_entry offer.rests
            rw [offer.swept] at member
            have sized := ready.positive order member
            have size := offer.size
            obtain ⟨taken, after, level, took, all⟩ := ih offers sameSeq ready kept distinct (by omega)
            refine ⟨taken, after, level, ?_, all⟩
            intro whole
            exact ⟨(took whole).1.skip nothing (by omega), (took whole).2⟩
          · rw [if_neg nothing]
            obtain ⟨taken, between, filled, first, all⟩ := takes item order progress sameSeq ready kept offer (by omega)
              (by omega)
            rw [filled]
            cases taken with
            | false => exact ⟨false, between, rfl, by rintro ⟨⟩, all⟩
            | true =>
                obtain ⟨first, kept⟩ := first rfl
                have left := first.qty
                obtain ⟨taken, after, level, took, all⟩ := ih (offers_take offers ready first.takes fresh)
                  first.sameSeq (ready.sweeps first.takes.sweeps first.takes.current) kept distinct (by omega)
                refine ⟨taken, after, level, ?_, all⟩
                intro whole
                exact ⟨(took whole).1.cons offer first, (took whole).2⟩

theorem eachAllocation_stale {fill : Allocation → Progress β → Option (Bool × Progress β)}
    (declined : ∀ (item : Allocation) (order : BookOrder), Offer side limit resolve progress.state item order →
      0 < item.qty → item.qty ≤ progress.qty → ∃ after, fill item progress = some (false, after))
    (offers : List.Forall₂ (Offer side limit resolve progress.state) items orders)
    (enough : allocatedQty items ≤ progress.qty) (something : allocatedQty items ≠ 0) :
    ∃ after, eachAllocation fill items progress = some (false, after) := by
  induction offers with
  | nil => exact absurd rfl something
  | @cons item order items orders offer offers ih =>
      have nonneg := offer.within.1
      have later := offers_nonneg offers
      rw [allocatedQty_cons] at enough something
      rw [eachAllocation]
      by_cases nothing : item.qty = 0
      · rw [if_pos nothing]
        exact ih (by omega) (by omega)
      · rw [if_neg nothing]
        obtain ⟨after, filled⟩ := declined item order offer (by omega) (by omega)
        rw [filled]
        exact ⟨after, rfl⟩

/-- An order with an offer rests on the side, and the offer fits it. -/
theorem Offer.member {state : MatchState β} {item : Allocation} {order : BookOrder}
    (offer : Offer side limit resolve state item order) :
    order ∈ restingOrders state.book.l3 side ∧ item.qty ≤ order.quantity := by
  have member := mem_of_entry offer.rests
  rw [offer.swept] at member
  exact ⟨member, offer.size ▸ offer.within.2⟩

theorem checkedFeedLevel_current (env : Environment) (declines : Declines β) (aggressorId : Nat) (price : Int)
    (offers : List.Forall₂ (Offer side limit resolve progress.state) items orders)
    (sameSeq : progress.ctx.seqNum = seqNum) (ready : progress.state.Sweepable hand side seqNum)
    (distinct : (orders.map BookOrder.orderId).Nodup) (enough : allocatedQty items ≤ progress.qty) :
    ∃ taken after, checkedFeedLevel env declines side aggressorId price items progress = some (taken, after) ∧
      (taken = true → TookLevel env hand side limit seqNum orders items progress after) ∧
      (declines = .none → taken = true) := by
  obtain ⟨taken, after, level, took, all⟩ := eachAllocation_current (fun _ => True) (by
    intro item order progress sameSeq ready _ offer positive within
    obtain ⟨member, fits⟩ := offer.member
    obtain ⟨taken, after, filled, took, all⟩ := Progress.fillFromFeed_current sameSeq member positive fits within
      env declines aggressorId price ready
    rw [← offer.orderId] at filled
    exact ⟨taken, after, filled, fun whole => ⟨took whole, trivial⟩, all⟩) offers sameSeq ready trivial distinct
    enough
  exact ⟨taken, after, level, fun whole => (took whole).1, all⟩

theorem checkedFeedLevel_stale (env : Environment) (declines : Declines β) (aggressorId : Nat) (price : Int)
    (offers : List.Forall₂ (Offer side limit resolve progress.state) items orders)
    (sameSeq : progress.ctx.seqNum = seqNum) (stale : Regresses progress.state.book.l3 seqNum)
    (sideOffers : progress.state.Offers hand side) (enough : allocatedQty items ≤ progress.qty)
    (something : allocatedQty items ≠ 0) :
    ∃ after, checkedFeedLevel env declines side aggressorId price items progress = some (false, after) := by
  refine eachAllocation_stale ?_ offers enough something
  intro item order offer positive within
  obtain ⟨member, fits⟩ := offer.member
  rw [offer.orderId]
  exact Progress.fillFromFeed_stale sameSeq member positive fits within env declines aggressorId price stale sideOffers

theorem checkedFillLevel_current (env : Environment) (declines : Declines β) (price : Int)
    (held : hand.aggressor = some ref)
    (offers : List.Forall₂ (Offer side limit resolve progress.state) items orders)
    (sameSeq : progress.ctx.seqNum = seqNum) (ready : progress.state.Sweepable hand side seqNum)
    (distinct : (orders.map BookOrder.orderId).Nodup)
    (leaves : progress.qty = (progress.state.order ref).leavesQuantity) (enough : allocatedQty items ≤ progress.qty) :
    ∃ taken after, checkedFillLevel env declines side ref price resolve items progress = some (taken, after) ∧
      (taken = true → TookLevel env hand side limit seqNum orders items progress after ∧
        after.qty = (after.state.order ref).leavesQuantity) ∧
      (declines = .none → taken = true) := by
  refine eachAllocation_current (fun progress => progress.qty = (progress.state.order ref).leavesQuantity)
    ?_ offers sameSeq ready leaves distinct enough
  intro item order progress sameSeq ready leaves offer positive within
  obtain ⟨member, fits⟩ := offer.member
  have resting : (if resolve then item.order else progress.state.book.findOrder item.orderId) =
      progress.state.book.findOrder order.orderId := by
    split
    · exact offer.resolved ‹_›
    · rw [offer.orderId]
  dsimp only
  rw [resting, offer.orderId]
  obtain ⟨taken, after, filled, took, all⟩ := Progress.fill_current sameSeq member positive fits within env declines
    price ready held (leaves ▸ within)
  refine ⟨taken, after, filled, ?_, all⟩
  intro whole
  obtain ⟨took, less⟩ := took whole
  have left := took.qty
  exact ⟨took, by omega⟩

theorem checkedFillLevel_stale (env : Environment) (declines : Declines β) (price : Int) (checkSelfMatch : Bool)
    (held : hand.aggressor = some ref)
    (offers : List.Forall₂ (Offer side limit resolve progress.state) items orders)
    (sameSeq : progress.ctx.seqNum = seqNum) (stale : Regresses progress.state.book.l3 seqNum)
    (sideOffers : progress.state.Offers hand side)
    (leaves : progress.qty = (progress.state.order ref).leavesQuantity) (enough : allocatedQty items ≤ progress.qty)
    (something : allocatedQty items ≠ 0) :
    ∃ after, checkedFillLevel env declines side ref price checkSelfMatch items progress = some (false, after) := by
  refine eachAllocation_stale ?_ offers enough something
  intro item order offer positive within
  obtain ⟨member, fits⟩ := offer.member
  dsimp only
  rw [offer.orderId]
  exact Progress.fill_stale sameSeq member positive fits within env declines price _ stale sideOffers held
    (leaves ▸ within)

/-- Own orders of a level were cancelled on the way of a loop. -/
structure Clears (hand : Hand) (side : BookSide) (seqNum : Nat) (before after : MatchState β) : Prop where
  ready : after.Ready hand side seqNum
  fewer : (after.toMeet side seqNum).length < (before.toMeet side seqNum).length
  aggressor : ∀ ref, hand.aggressor = some ref → after.order ref = before.order ref
  stays : Regresses before.book.l3 seqNum → after.book.l3 = before.book.l3

theorem cancelOwn_resting (env : Environment) (ref requestTime : Nat) {ctx : MatchContext} {state : MatchState β}
    (sameSeq : ctx.seqNum = seqNum) (ready : state.Ready hand side seqNum)
    (offers : List.Forall₂ (Offer side limit true state) items orders)
    (distinct : (orders.map BookOrder.orderId).Nodup) :
    ∃ cancelled after, cancelOwn env ref requestTime ctx .cancelResting items state = (some cancelled, after) ∧
      (cancelled = false → after = state) ∧ (cancelled = true → Clears hand side seqNum state after) := by
  induction items generalizing state orders with
  | nil => exact ⟨false, state, rfl, fun _ => rfl, by rintro ⟨⟩⟩
  | cons item items ih =>
      cases offers with
      | @cons _ order _ orders offer offers =>
          obtain ⟨fresh, distinct⟩ := List.nodup_cons.mp distinct
          have member := mem_of_entry offer.rests
          rw [offer.swept] at member
          rw [cancelOwn, offer.resolved rfl]
          split
          · rename_i selfMatch
            obtain ⟨bookRef, ours⟩ := ref_of_selfMatch selfMatch
            obtain ⟨between, cancelled, withdraws⟩ := ready.withdraws env requestTime ctx.eventTime member ours
            have remaining : List.Forall₂ (Offer side limit true between) items orders := by
              refine forall₂_of_mem offers fun item other _ inside offer => withdraws.offer offer ?_
              intro same
              exact fresh (same ▸ List.mem_map_of_mem inside)
            obtain ⟨others, after, rest, untouched, clears⟩ := ih withdraws.ready remaining distinct
            rw [show state.book.findOrder order.orderId = some bookRef from ours,
              show (some bookRef).getD 0 = bookRef from rfl, sameSeq, cancelled]
            dsimp only
            rw [rest]
            refine ⟨true, after, rfl, by rintro ⟨⟩, fun _ => ?_⟩
            cases others with
            | false =>
                rw [untouched rfl]
                exact ⟨withdraws.ready, withdraws.fewer, withdraws.aggressor, withdraws.stays⟩
            | true =>
                have clears := clears rfl
                refine ⟨clears.ready, clears.fewer.trans withdraws.fewer,
                  fun ref held => (clears.aggressor ref held).trans (withdraws.aggressor ref held), ?_⟩
                intro stale
                have same := withdraws.stays stale
                exact (clears.stays (same ▸ stale)).trans same
          · exact ih ready offers distinct

theorem cancelOwn_newest_state (env : Environment) (ref requestTime : Nat) (ctx : MatchContext) (state : MatchState β)
    (items : List Allocation) :
    cancelOwn env ref requestTime ctx .cancelNewest items state = (none, state) ∨
      cancelOwn env ref requestTime ctx .cancelNewest items state = (some false, state) := by
  induction items with
  | nil => exact .inr rfl
  | cons item items ih =>
      rw [cancelOwn]
      split
      · exact .inl rfl
      · exact ih

/-- A level that was traded with is used up, or the aggressor is. -/
theorem TookLevel.fewer {level rest : List BookOrder}
    (took : TookLevel env hand side limit seqNum level items before after)
    (ready : before.state.Sweepable hand side seqNum) (queue : restingOrders before.state.book.l3 side = level ++ rest)
    (filled : 0 < level.length) (more : 0 < before.qty)
    (whole : 0 < after.qty → ∀ item ∈ items, item.qty = item.size) :
    after.todo side seqNum < before.todo side seqNum := by
  have next := ready.sweeps took.round.sweeps took.round.current
  have longer : 0 < (restingOrders before.state.book.l3 side).length := by
    rw [queue, List.length_append]
    omega
  unfold Progress.todo
  rw [if_pos more, ready.toMeet, next.toMeet]
  split
  · rename_i left
    rw [took.round.emptied rest (whole left) queue, queue, List.length_append]
    omega
  · exact longer

def Fits (side : BookSide) (limit : Int) (own : Nat → Bool) (progress : Progress β) : Prop :=
  LevelsFit side limit own (priceLevels (restingOrders progress.state.book.l3 side)) progress.qty

/-- Nothing keeps a loop from going through all that it comes to. -/
def Unstopped (declines : Declines β) (seqNum : Nat) : Prop :=
  declines = .none ∧ seqNum = 0

theorem Unstopped.current {declines : Declines β} (unstopped : Unstopped declines seqNum) (book : β) :
    ¬ Regresses book seqNum :=
  fun stale => absurd unstopped.2 (Nat.ne_of_gt stale.1)

private theorem level_positive {level : PriceLevelL3}
    (positive : ∀ order ∈ restingOrders progress.state.book.l3 side, 0 < order.quantity)
    (crosses : progress.state.crossableLevel side limit = some level) :
    ∀ order ∈ level.orders, 0 < order.quantity := by
  obtain ⟨rest, queue, -⟩ := level_of_crossableLevel crosses
  intro order inside
  refine positive order ?_
  rw [queue]
  exact List.mem_append_left _ inside

private theorem unfit {level : PriceLevelL3} (crosses : progress.state.crossableLevel side limit = some level)
    (more : 0 < progress.qty) (overflows : 2 ^ 63 ≤ level.totalQuantity) (own : Nat → Bool) :
    ¬ Fits side limit own progress := by
  obtain ⟨rest, -, cut, -, within, -⟩ := level_of_crossableLevel crosses
  unfold Fits
  rw [cut, LevelsFit.cons_iff more within]
  rintro ⟨fits, -⟩
  omega

/-- Trading with a level leaves it as it is whether the levels fit. -/
theorem TookLevel.fits {level : PriceLevelL3} {own : Nat → Bool}
    (took : TookLevel env hand side limit seqNum level.orders items before after)
    (crosses : before.state.crossableLevel side limit = some level) (more : 0 < before.qty)
    (fits : level.totalQuantity < 2 ^ 63) (total : allocatedQty items = min before.qty level.totalQuantity)
    (whole : level.totalQuantity ≤ before.qty → ∀ item ∈ items, item.qty = item.size)
    (foreign : ∀ order ∈ level.orders, own order.orderId = false) :
    Fits side limit own after ↔ Fits side limit own before := by
  obtain ⟨rest, queue, cut, -, within, reach, -⟩ := level_of_crossableLevel crosses
  unfold Fits
  rw [cut, took.qty, total]
  refine LevelsFit.filled_iff more within reach foreign fits fun left => ?_
  exact took.round.emptied rest (whole (by omega)) queue

theorem feedRound_decides (env : Environment) (declines : Declines β) (config : ProRataConfig) (aggressorId : Nat)
    (price : Int) (ready : progress.Ready hand side seqNum) :
    (feedRound env declines config side aggressorId price progress).Decides (Progress.Ready hand side seqNum)
      (Fits side price fun _ => false) (Progress.todo side seqNum) (Unstopped declines seqNum) progress := by
  unfold feedRound
  by_cases done : progress.qty ≤ 0
  · rw [if_pos done]
    exact fun _ => .of_nonpos done
  rw [if_neg done]
  have more : 0 < progress.qty := by omega
  cases crosses : progress.state.crossableLevel side price with
  | none => exact fun _ => .of_crossableLevel_none crosses
  | some level =>
      obtain ⟨rest, queue, -, filled, -, within, -⟩ := level_of_crossableLevel crosses
      have positive := ready.state.offers.positive
      obtain ⟨offers, distinct, total, whole⟩ := offers_of_level config false positive queue within more
      have here := level_positive positive crosses
      have sized := level.totalQuantity_pos here filled
      dsimp only
      rw [if_neg (by rw [List.isEmpty_iff_length_eq_zero]; omega)]
      cases checked : checkedAllocate config (blankAllocations progress.state.book level false) progress.qty with
      | none => exact unfit crosses more ((checkedAllocate_eq_none config _ _ _ here more).mp checked) _
      | some allocated =>
          obtain ⟨fits, same⟩ := checkedAllocate_eq_some config _ _ _ here more checked
          rw [← same] at offers total whole
          dsimp only
          cases ready.state with
          | current state =>
              obtain ⟨taken, after, level, took, all⟩ := checkedFeedLevel_current env declines aggressorId level.price
                offers ready.sameSeq state distinct (by omega)
              rw [level]
              cases taken with
              | false => exact fun unstopped => absurd (all unstopped.1) (by decide)
              | true =>
                  have took := took rfl
                  have left := took.qty
                  exact ⟨⟨⟨took.sameSeq, .current (state.sweeps took.round.sweeps took.round.current)⟩,
                    took.fewer state queue filled more fun some => whole (by omega)⟩,
                    took.fits crosses more fits total whole fun _ _ => rfl⟩
          | stale regresses sideOffers =>
              obtain ⟨after, declined⟩ := checkedFeedLevel_stale env declines aggressorId level.price offers
                ready.sameSeq regresses sideOffers (by omega) (by omega)
              rw [declined]
              exact fun unstopped => absurd regresses (unstopped.current _)

/-- The loop of a client order can go on, and knows which orders are its own unless the book has
seen a later sequence number. -/
structure Knows (hand : Hand) (side : BookSide) (seqNum ref : Nat) (smpMode : SelfMatchPreventionMode)
    (own : Nat → Bool) (progress : Progress β) : Prop where
  matches_ : progress.Matches hand side seqNum ref
  mine : ¬ Regresses progress.state.book.l3 seqNum → progress.state.Own smpMode side ref own

/-- A round of fills, once the level holds no order of the aggressor's own. -/
private theorem fills_decide (env : Environment) (declines : Declines β) (config : ProRataConfig) (resolve : Bool)
    {smpMode : SelfMatchPreventionMode} {own : Nat → Bool} {unstopped : Prop}
    {level : PriceLevelL3} {rest : List BookOrder} {allocated : CheckedAllocation}
    (held : hand.aggressor = some ref) (knows : Knows hand side seqNum ref smpMode own progress)
    (crosses : progress.state.crossableLevel side limit = some level)
    (queue : restingOrders progress.state.book.l3 side = level.orders ++ rest) (filled : 0 < level.orders.length)
    (within : ∀ order ∈ level.orders, beyondLimit side order.price limit = false) (more : 0 < progress.qty)
    (checked : checkedAllocate config (blankAllocations progress.state.book level resolve) progress.qty =
      some allocated)
    (foreign : ¬ Regresses progress.state.book.l3 seqNum → ∀ order ∈ level.orders, own order.orderId = false)
    (goes : unstopped → Unstopped declines seqNum) :
    (match checkedFillLevel env declines side ref level.price resolve allocated.items progress with
      | none => .fails
      | some (false, progress) => .ends progress.stop
      | some (true, progress) => .goesOn progress : Round (Progress β) (LoopResult β)).Decides
        (Knows hand side seqNum ref smpMode own) (Fits side limit own) (Progress.todo side seqNum) unstopped
        progress := by
  have ready := knows.matches_
  have positive := ready.state.offers.positive
  obtain ⟨offers, distinct, total, whole⟩ := offers_of_level config resolve positive queue within more
  have here := level_positive positive crosses
  obtain ⟨fits, same⟩ := checkedAllocate_eq_some config _ _ _ here more checked
  have sized := level.totalQuantity_pos here filled
  rw [← same] at offers total whole
  cases ready.state with
  | current state =>
      obtain ⟨taken, after, fills, took, all⟩ := checkedFillLevel_current env declines level.price held offers
        ready.sameSeq state distinct ready.leaves (by omega)
      rw [fills]
      cases taken with
      | false => exact fun unstopped => absurd (all (goes unstopped).1) (by decide)
      | true =>
          obtain ⟨took, leaves⟩ := took rfl
          have left := took.qty
          have next := state.sweeps took.round.sweeps took.round.current
          exact ⟨⟨⟨⟨⟨took.sameSeq, .current next⟩, leaves⟩,
              fun _ => (knows.mine state.current).sweeps state took.round.sweeps⟩,
            took.fewer state queue filled more fun some => whole (by omega)⟩,
            took.fits crosses more fits total whole (foreign state.current)⟩
  | stale regresses sideOffers =>
      obtain ⟨after, declined⟩ := checkedFillLevel_stale env declines level.price resolve held offers
        ready.sameSeq regresses sideOffers ready.leaves (by omega) (by omega)
      rw [declined]
      exact fun unstopped => absurd regresses ((goes unstopped).current _)

/-- What cancelling the aggressor's own orders of a level does to a book that is up to date. -/
private theorem cancelOwn_current {requestTime : Nat} {ctx : MatchContext} {state after : MatchState β}
    {own : Nat → Bool} {rest : List BookOrder} {cancelled : Bool} {left : Int} (held : hand.aggressor = some ref)
    (sameSeq : ctx.seqNum = seqNum) (ready : state.Sweepable hand side seqNum)
    (mine : state.Own .cancelResting side ref own) (more : 0 < left)
    (offers : List.Forall₂ (Offer side limit true state) items orders)
    (distinct : (orders.map BookOrder.orderId).Nodup) (queue : restingOrders state.book.l3 side = orders ++ rest)
    (handled : cancelOwn env ref requestTime ctx .cancelResting items state = (some cancelled, after)) :
    Sweeps env hand side state.ledger after.ledger ∧
      (cancelled = false → ∀ order ∈ orders, own order.orderId = false) ∧
      restingOrders after.book.l3 side =
        (orders.filter fun order => !(own ∘ BookOrder.orderId) order) ++ rest := by
  obtain ⟨_, _, spec, cancels, -, foreign, -⟩ := cancelOwn_spec matchKeeps_trivial held sameSeq more items orders state
    ready mine offers distinct trivial
  obtain ⟨_, _, performs, -, left⟩ :=
    (cancelOwn_performs sameSeq left rest items [] orders state ready mine offers queue :
      ∃ cancelled after, cancelOwn env ref requestTime ctx .cancelResting items state = (some cancelled, after) ∧
        state.perform env side ref requestTime .cancelResting (_ ++ []) ctx left = _ ∧ _)
  rw [handled] at spec performs
  cases spec
  cases performs
  exact ⟨cancels.sweeps, fun nothing => (foreign nothing).2, left⟩

/-- A round that withdrew own orders of its level is done, and goes on with the others. -/
private theorem Clears.decide {after : MatchState β} {own : Nat → Bool} {level : PriceLevelL3} {rest : List BookOrder}
    (clears : Clears hand side seqNum progress.state after) (held : hand.aggressor = some ref)
    (knows : Knows hand side seqNum ref .cancelResting own progress) (more : 0 < progress.qty)
    (cut : priceLevels (restingOrders progress.state.book.l3 side) = level :: priceLevels rest)
    (levelWithin : beyondLimit side level.price limit = false) (positive : ∀ order ∈ level.orders, 0 < order.quantity)
    (fits : level.totalQuantity < 2 ^ 63)
    (swept : progress.state.Sweepable hand side seqNum → Sweeps env hand side progress.state.ledger after.ledger)
    (others : progress.state.Sweepable hand side seqNum → restingOrders after.book.l3 side =
      (level.orders.filter fun order => !(own ∘ BookOrder.orderId) order) ++ rest) :
    (Knows hand side seqNum ref .cancelResting own { progress with state := after } ∧
        Progress.todo side seqNum { progress with state := after } < Progress.todo side seqNum progress) ∧
      (Fits side limit own { progress with state := after } ↔ Fits side limit own progress) := by
  have ready := knows.matches_
  refine ⟨⟨⟨⟨⟨ready.sameSeq, clears.ready⟩, ?_⟩, ?_⟩, ?_⟩, ?_⟩
  · rw [ready.leaves, ← clears.aggressor ref held]
  · intro current
    cases ready.state with
    | current state => exact (knows.mine state.current).sweeps state (swept state)
    | stale regresses => exact absurd (clears.stays regresses ▸ regresses) current
  · unfold Progress.todo
    dsimp only
    rw [if_pos more, if_pos more]
    exact clears.fewer
  · unfold Fits
    dsimp only
    cases ready.state with
    | current state =>
        rw [others state, cut]
        exact LevelsFit.thinned_iff more levelWithin cut positive fits
    | stale regresses => rw [clears.stays regresses]

theorem matchRound_decides (env : Environment) (declines : Declines β) (config : ProRataConfig) (price : Int)
    (requestTime : Nat) (smpMode : SelfMatchPreventionMode) {own : Nat → Bool} (held : hand.aggressor = some ref)
    (knows : Knows hand side seqNum ref smpMode own progress) :
    (matchRound env declines config side ref price requestTime smpMode progress).Decides
      (Knows hand side seqNum ref smpMode own) (Fits side price own) (Progress.todo side seqNum)
      (Unstopped declines seqNum ∧ smpMode ≠ .cancelNewest) progress := by
  have ready := knows.matches_
  unfold matchRound
  by_cases done : progress.qty ≤ 0
  · rw [if_pos done]
    exact fun _ => .of_nonpos done
  rw [if_neg done]
  have more : 0 < progress.qty := by omega
  cases crosses : progress.state.crossableLevel side price with
  | none => exact fun _ => .of_crossableLevel_none crosses
  | some level =>
      obtain ⟨rest, queue, cut, filled, levelWithin, within, -⟩ := level_of_crossableLevel crosses
      have positive := ready.state.offers.positive
      have here := level_positive positive crosses
      have members : ∀ order ∈ level.orders, order ∈ restingOrders progress.state.book.l3 side := by
        intro order inside
        rw [queue]
        exact List.mem_append_left _ inside
      dsimp only
      rw [if_neg (by rw [List.isEmpty_iff_length_eq_zero]; omega)]
      cases checked : checkedAllocate config (blankAllocations progress.state.book level (decide (smpMode ≠ .none)))
          progress.qty with
      | none => exact unfit crosses more ((checkedAllocate_eq_none config _ _ _ here more).mp checked) _
      | some allocated =>
          dsimp only
          obtain ⟨offers, distinct, -, -⟩ := offers_of_level config (decide (smpMode ≠ .none)) positive queue within
            more
          obtain ⟨fits, same⟩ := checkedAllocate_eq_some config _ _ _ here more checked
          rw [← same] at offers
          cases smpMode with
          | none =>
              refine fills_decide env declines config false held knows crosses queue filled within more checked ?_
                And.left
              intro current order inside
              have isOwn := knows.mine current order (members order inside)
              rw [← Bool.not_eq_true, ← isOwn]
              exact fun both => both.1 rfl
          | cancelNewest =>
              simp only [ne_eq, reduceCtorEq, not_false_eq_true, decide_true, if_true] at offers ⊢
              rcases cancelOwn_newest_state env ref requestTime progress.ctx progress.state allocated.items with
                own | nothing
              · rw [own]
                exact fun unstopped => (unstopped.2 trivial).elim
              · rw [nothing]
                refine fills_decide env declines config true held knows crosses queue filled within more checked ?_
                  And.left
                intro current order inside
                rw [← Bool.not_eq_true]
                intro isOwn
                rw [cancelOwn_newest env requestTime progress.ctx offers (knows.mine current) ⟨order, inside, isOwn⟩]
                  at nothing
                cases nothing
          | cancelResting =>
              simp only [ne_eq, reduceCtorEq, not_false_eq_true, decide_true, if_true] at offers ⊢
              obtain ⟨cancelled, after, handled, untouched, clears⟩ := cancelOwn_resting env ref requestTime
                ready.sameSeq ready.state offers distinct
              have inOrder := fun current =>
                cancelOwn_current held ready.sameSeq current (knows.mine current.current) more offers distinct queue
                  handled
              rw [handled]
              cases cancelled with
              | false =>
                  rw [untouched rfl]
                  refine fills_decide env declines config true held knows crosses queue filled within more checked ?_
                    And.left
                  intro current
                  cases ready.state with
                  | current state => exact (inOrder state).2.1 rfl
                  | stale regresses => exact absurd regresses current
              | true =>
                  exact (clears rfl).decide held knows more cut levelWithin here fits (fun current => (inOrder current).1)
                    fun current => (inOrder current).2.2

end ProRata

namespace MatchingEngine

open MatchState

variable {β : Type} [OrderBookL3 β] {engine : MatchingEngine} {hand : Hand} {side : BookSide}
  {state : MatchState β}

/-- The loop of a client order starts with the order in hand, and the order is none of those it sweeps. -/
theorem prepareOrder_faces {env : Environment} {ref requestTime : Nat} {limit qty leaves : Int}
    {smpMode : SelfMatchPreventionMode} (incoming : Incoming state ref limit qty leaves)
    (goesOn : (state.prepareOrder env (sweptSide (state.order ref).side) engine.reach ref limit qty requestTime
      smpMode).1 = none) :
    ∃ hand, hand.aggressor = some ref ∧
      (state.prepareOrder env (sweptSide (state.order ref).side) engine.reach ref limit qty requestTime
        smpMode).2.Faces hand (sweptSide (state.order ref).side) := by
  have accepted : ¬ engine.Refuses state.book smpMode (state.order ref) limit leaves := by
    intro refused
    rw [prepareOrder_refused engine env requestTime incoming refused] at goesOn
    cases goesOn
  cases incoming with
  | new inv isNew =>
      rw [prepareOrder_new engine env requestTime smpMode _ isNew accepted] at goesOn ⊢
      dsimp only at goesOn ⊢
      split at goesOn
      · cases goesOn
      · rename_i fillable
        rw [if_neg fillable]
        split at goesOn
        · cases goesOn
        · rename_i something
          rw [if_neg something]
          exact ⟨.working ref, rfl, (presented_new env requestTime smpMode inv).ready.faces⟩
  | amended inv isAmend newPrice newQty =>
      rw [prepareOrder_amend engine env requestTime smpMode inv isAmend accepted] at goesOn ⊢
      dsimp only at goesOn ⊢
      split at goesOn
      · cases goesOn
      · rename_i something
        rw [if_neg something]
        exact ⟨.amended ref, rfl, (presented_amend env requestTime smpMode inv).ready.faces⟩

/-- There are no more rounds to go than there are orders on the side. -/
private theorem todo_lt_sweepFuel (side : BookSide) (ctx : MatchContext) (qty : Int) (state : MatchState β) :
    (Progress.start ctx qty state).todo side ctx.seqNum < state.sweepFuel side := by
  have most := state.length_toMeet_le side ctx.seqNum
  unfold Progress.todo sweepFuel
  split
  · exact Nat.lt_succ_of_le most
  · exact Nat.succ_pos _

/-- Whether an aggressor of so much comes only to levels that the engine can add up. -/
def CanAddUp (engine : MatchingEngine) (side : BookSide) (limit : Int) (own : Nat → Bool) (orders : List BookOrder)
    (qty : Int) : Prop :=
  match engine with
  | .fifo => True
  | .proRata _ => LevelsFit side limit own (priceLevels orders) qty

instance (engine : MatchingEngine) (side : BookSide) (limit : Int) (own : Nat → Bool) (orders : List BookOrder)
    (qty : Int) : Decidable (engine.CanAddUp side limit own orders qty) :=
  match engine with
  | .fifo => isTrue trivial
  | .proRata _ => decidableLevelsFit side limit own (priceLevels orders) qty

/-- For every sequence number and whatever executions the book declines, the loop of a feed aggressor
ends with a result that does not depend on the rounds it is allowed, and no check of an assertion or
of a fill fails on the way. Without other declined executions than the book's own it is the loop of
the engine. -/
def FeedTerminates (engine : MatchingEngine) (side : BookSide) (limit qty : Int) (state : MatchState β) : Prop :=
  ∀ env declines ctx aggressorId, ∃ result,
    (∀ rounds ≥ state.sweepFuel side, Rounds.run (engine.feedRound env declines side aggressorId limit) rounds
      (.start ctx qty state) = some result) ∧
    (declines = .none → engine.feedLoop env side aggressorId limit ctx qty state = result)

/-- The same for the loop of a client order, in every mode of self-match prevention. -/
def MatchTerminates (engine : MatchingEngine) (side : BookSide) (limit : Int) (ref : Nat) (state : MatchState β) :
    Prop :=
  ∀ env declines ctx requestTime smpMode, ∃ result,
    (∀ rounds ≥ state.sweepFuel side, Rounds.run (engine.matchRound env declines side ref limit requestTime smpMode)
      rounds (.start ctx (state.order ref).leavesQuantity state) = some result) ∧
    (declines = .none → engine.matchLoop env side ref limit requestTime smpMode ctx (state.order ref).leavesQuantity
      state = result)

section

variable (faces : state.Faces hand side) {limit qty : Int} {ref : Nat} {config : ProRataConfig}

include faces

private theorem fifo_feedTerminates : MatchingEngine.fifo.FeedTerminates side limit qty state := by
  intro env declines ctx aggressorId
  obtain ⟨result, ended⟩ := Rounds.run_terminates
    (fun progress => Fifo.feedRound_advances env declines aggressorId limit)
    (show (Progress.start ctx qty state).Ready hand side ctx.seqNum from ⟨rfl, faces.ready _⟩)
    (todo_lt_sweepFuel side ctx qty state)
  refine ⟨result, ended, ?_⟩
  rintro rfl
  exact Fifo.feedLoop_of_rounds (ended _ le_rfl)

private theorem fifo_matchTerminates (held : hand.aggressor = some ref) :
    MatchingEngine.fifo.MatchTerminates side limit ref state := by
  intro env declines ctx requestTime smpMode
  obtain ⟨result, ended⟩ := Rounds.run_terminates
    (fun progress => Fifo.matchRound_advances env declines limit requestTime smpMode held)
    (show (Progress.start ctx (state.order ref).leavesQuantity state).Matches hand side ctx.seqNum ref from
      ⟨⟨rfl, faces.ready _⟩, rfl⟩)
    (todo_lt_sweepFuel side ctx _ state)
  refine ⟨result, ended, ?_⟩
  rintro rfl
  exact Fifo.matchLoop_of_rounds (ended _ le_rfl)

private theorem proRata_feedTerminates_iff :
    (MatchingEngine.proRata config).FeedTerminates side limit qty state ↔
      (MatchingEngine.proRata config).CanAddUp side limit (fun _ => false) (restingOrders state.book.l3 side) qty := by
  constructor
  · intro terminates
    by_contra unfit
    let env : Environment := .counted fun _ => default
    obtain ⟨result, ended, -⟩ := terminates env .none (.start 0 0) 0
    have failed := Rounds.run_fails (fun progress => ProRata.feedRound_decides env .none config 0 limit) ⟨rfl, rfl⟩
      (state.sweepFuel side) (.start (.start 0 0) qty state) ⟨rfl, faces.ready 0⟩ unfit
    cases failed.symm.trans (ended _ le_rfl)
  · intro fit env declines ctx aggressorId
    have ready : (Progress.start ctx qty state).Ready hand side ctx.seqNum := ⟨rfl, faces.ready _⟩
    have decides := fun (progress : Progress β) (now : progress.Ready hand side ctx.seqNum) =>
      ProRata.feedRound_decides env declines config aggressorId limit now
    obtain ⟨result, ended⟩ := Rounds.run_terminates (fun progress now => (decides progress now.1).advances now.2)
      ⟨ready, fit⟩ (todo_lt_sweepFuel side ctx qty state)
    refine ⟨result, ended, ?_⟩
    rintro rfl
    exact ProRata.feedLoop_of_rounds _ (fun progress level now => ProRata.level_positive now.state.offers.positive)
      (fun progress next now goes => (decides progress now).next goes) ready (ended _ le_rfl)

private theorem proRata_matchTerminates_iff (held : hand.aggressor = some ref) :
    (MatchingEngine.proRata config).MatchTerminates side limit ref state ↔
      (MatchingEngine.proRata config).CanAddUp side limit (state.book.ownOrders .cancelResting (state.order ref))
        (restingOrders state.book.l3 side) (state.order ref).leavesQuantity := by
  have knows := fun (ctx : MatchContext) smpMode =>
    (⟨⟨⟨rfl, faces.ready _⟩, rfl⟩, fun _ => own_ownOrders smpMode side ref⟩ :
      ProRata.Knows hand side ctx.seqNum ref smpMode (state.book.ownOrders smpMode (state.order ref))
        (.start ctx (state.order ref).leavesQuantity state))
  constructor
  · intro terminates
    by_contra unfit
    let env : Environment := .counted fun _ => default
    obtain ⟨result, ended, -⟩ := terminates env .none (.start 0 0) 0 .cancelResting
    have failed := Rounds.run_fails
      (fun progress => ProRata.matchRound_decides env .none config limit 0 .cancelResting held)
      ⟨⟨rfl, rfl⟩, by decide⟩ (state.sweepFuel side) _ (knows (.start 0 0) .cancelResting) unfit
    cases failed.symm.trans (ended _ le_rfl)
  · intro fit env declines ctx requestTime smpMode
    have reaches : (MatchingEngine.proRata config).CanAddUp side limit
        (state.book.ownOrders smpMode (state.order ref)) (restingOrders state.book.l3 side)
        (state.order ref).leavesQuantity := by
      refine LevelsFit.mono fit ?_ ?_ le_rfl
      · intro level member order inside
        exact faces.offers.positive order ((mem_priceLevels member).2.1.subset inside)
      · intro id mine
        unfold OrderBook.ownOrders at mine ⊢
        simp only [Bool.and_eq_true, decide_eq_true_eq] at mine ⊢
        exact ⟨by decide, mine.2⟩
    have decides := fun (progress : Progress β)
        (now : ProRata.Knows hand side ctx.seqNum ref smpMode (state.book.ownOrders smpMode (state.order ref))
          progress) =>
      ProRata.matchRound_decides env declines config limit requestTime smpMode held now
    obtain ⟨result, ended⟩ := Rounds.run_terminates (fun progress now => (decides progress now.1).advances now.2)
      ⟨knows ctx smpMode, reaches⟩ (todo_lt_sweepFuel side ctx _ state)
    refine ⟨result, ended, ?_⟩
    rintro rfl
    exact ProRata.matchLoop_of_rounds _
      (fun progress level now => ProRata.level_positive now.matches_.state.offers.positive)
      (fun progress next now goes => (decides progress now).next goes) (knows ctx smpMode) (ended _ le_rfl)

end

/-- Lots of two, without a minimum, a tenth of them first in, first out. -/
private def twoLots : ProRataConfig where
  lotSize := 2
  minAllocation := 0
  fifoPercent := 10
  lotSize_positive := by decide
  minAllocation_nonneg := by decide
  fifoPercent_le := by decide

/-- An offer of another user. -/
private def strangersOffer (price qty : Int) : Input :=
  .newOrder Input.header
    { userId := Environment.countedName 9, clientOrderId := Environment.countedName 2, side := .sell, type := .limit
      timeInForce := .goodTillCancel, price, qty }

end MatchingEngine

end SlickSim
