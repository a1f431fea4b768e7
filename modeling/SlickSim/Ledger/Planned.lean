import SlickSim.Ledger.Checks

/-!
# Matches as planned

What `match` does with an order that comes in, and with an aggressor from the feed, is fixed
by the plan that the engine makes from the queue it finds.
-/

set_option autoImplicit false

namespace SlickSim

open Sweeping
open OrderBookL3 (Regresses restingOrders)

namespace MatchState

variable {β : Type}

def present (state : MatchState β) (env : Environment) (ref : Nat) (limit qty : Int) (requestTime : Nat) :
    MatchState β :=
  if (state.order ref).status = .pendingNew then state.publishOrderAck env ref requestTime
  else state.replaceOrder env ref limit qty requestTime

variable {state : MatchState β} {env : Environment} {ref requestTime : Nat} {limit qty : Int}

theorem present_id : ((state.present env ref limit qty requestTime).order ref).id = (state.order ref).id := by
  unfold present
  split
  · rfl
  · rw [replaceOrder_order]
    rfl

theorem present_cum :
    ((state.present env ref limit qty requestTime).order ref).cumQuantity = (state.order ref).cumQuantity := by
  unfold present
  split
  · rfl
  · rw [replaceOrder_order]
    rfl

theorem present_timeInForce :
    ((state.present env ref limit qty requestTime).order ref).timeInForce = (state.order ref).timeInForce := by
  unfold present
  split
  · rfl
  · rw [replaceOrder_order]
    rfl

theorem present_l3 : (state.present env ref limit qty requestTime).book.l3 = state.book.l3 := by
  unfold present
  split <;> rfl

theorem present_orders : (state.present env ref limit qty requestTime).book.orders = state.book.orders := by
  unfold present
  split <;> rfl

end MatchState

namespace MatchingEngine

variable {β : Type} [OrderBookL3 β]

def orderPlan (engine : MatchingEngine) (state : MatchState β) (ref : Nat) (limit leaves : Int)
    (smpMode : SelfMatchPreventionMode) : List (Act BookOrder) :=
  engine.plan (sweptSide (state.order ref).side) limit (state.book.ownOrders smpMode (state.order ref))
    (restingOrders state.book.l3 (sweptSide (state.order ref).side)) leaves

/-- What becomes of an order that comes in: it is refused, killed, closed as it has nothing left,
or it performs its plan. -/
def planned (engine : MatchingEngine) (env : Environment) (ref : Nat) (limit qty leaves : Int)
    (requestTime eventTime : Nat) (smpMode : SelfMatchPreventionMode) (state : MatchState β) :
    OrdRejectReason × List TradeSummaryInfo × MatchState β :=
  let acts := engine.orderPlan state ref limit leaves smpMode
  let presented := state.present env ref limit qty requestTime
  if smpMode = .cancelNewest ∧ acts.any Act.isWithdraw = true then (.smp, [], state)
  else if CannotFill state.book smpMode (state.order ref) limit qty then
    (.fokCannotFill, [], presented.publishOrderCancel env ref requestTime)
  else if leaves = 0 then (.none, [], presented.publishOrderCancel env ref requestTime)
  else
    let result := presented.perform env (sweptSide (state.order ref).side) ref requestTime smpMode acts
      (.start eventTime 0) leaves
    (.none, result.ctx.summaries, result.state.cancelUnrestableRemainder env ref result.remaining requestTime)

variable {env : Environment} {hand : Hand} {ref requestTime : Nat} {limit qty leaves : Int}
  {smpMode : SelfMatchPreventionMode} {state prepared : MatchState β}

theorem incoming_represents (incoming : Incoming state ref limit qty leaves) :
    ∃ hand, state.ledger.Represents hand ∧ (hand.resting = none ∨ hand.resting = some ref) := by
  cases incoming with
  | new inv => exact ⟨_, inv, .inl rfl⟩
  | amended inv => exact ⟨_, inv, .inr rfl⟩

theorem incoming_sweepable (incoming : Incoming state ref limit qty leaves) :
    ∃ hand, state.Sweepable hand (sweptSide (state.order ref).side) 0 := by
  obtain ⟨hand, inv, held⟩ := incoming_represents incoming
  exact ⟨hand, sweepable_of_hand inv held fun stale => stale.1.false⟩

/-- An order that comes in can meet the other side's queue. -/
theorem incoming_presented (env : Environment) (requestTime : Nat) (smpMode : SelfMatchPreventionMode)
    (incoming : Incoming state ref limit qty leaves) :
    ∃ hand, Presented hand ref smpMode leaves state (state.present env ref limit qty requestTime) := by
  cases incoming with
  | new inv isNew =>
      rw [MatchState.present, if_pos isNew]
      exact ⟨_, presented_new env requestTime smpMode inv⟩
  | amended inv isAmend =>
      rw [MatchState.present, if_neg (by rw [isAmend]; decide)]
      exact ⟨_, presented_amend env requestTime smpMode inv⟩

/-- Once it has presented itself, an order would plan the same. -/
theorem orderPlan_present (engine : MatchingEngine) (state : MatchState β) (env : Environment) (ref : Nat)
    (limit qty leaves : Int) (requestTime : Nat) (smpMode : SelfMatchPreventionMode) :
    engine.orderPlan state ref limit leaves smpMode =
      engine.plan (sweptSide (state.order ref).side) limit (state.book.ownOrders smpMode (state.order ref))
        (restingOrders (state.present env ref limit qty requestTime).book.l3 (sweptSide (state.order ref).side))
        leaves := by
  rw [MatchState.present_l3]
  rfl

/-- `CANCEL_NEWEST` turns an order away when its plan would withdraw an order. -/
theorem refuses_iff (engine : MatchingEngine) (smpMode : SelfMatchPreventionMode) (incoming : Incoming state ref limit qty leaves) :
    engine.Refuses state.book smpMode (state.order ref) limit leaves ↔
      smpMode = .cancelNewest ∧ (engine.orderPlan state ref limit leaves smpMode).any Act.isWithdraw = true := by
  obtain ⟨hand, ready⟩ := incoming_sweepable incoming
  unfold Refuses
  refine and_congr_right ?_
  rintro rfl
  have would : state.book.wouldSelfMatch (sweptSide (state.order ref).side) engine.reach (state.order ref) limit
      leaves = (engine.orderPlan state ref limit leaves .cancelNewest).any Act.isWithdraw := by
    refine OrderBook.wouldSelfMatch_plan engine
      (fun resting member => ready.inv.agrees.positive (MatchState.entry_of_mem member)) ?_
    intro resting _
    exact (Bool.true_and _).symm
  rw [would]
  constructor
  · exact fun both => both.2
  · intro met
    refine ⟨?_, met⟩
    by_contra done
    rw [orderPlan, plan, sweep_of_nonpos (not_lt.mp done)] at met
    cases met

/-- An order that `CANCEL_NEWEST` turns away does not get ready. -/
theorem prepareOrder_refused (engine : MatchingEngine) (env : Environment) (requestTime : Nat)
    (incoming : Incoming state ref limit qty leaves)
    (refused : engine.Refuses state.book smpMode (state.order ref) limit leaves) :
    state.prepareOrder env (sweptSide (state.order ref).side) engine.reach ref limit qty requestTime smpMode =
      (some .smp, state) := by
  cases incoming with
  | new inv isNew => exact prepareOrder_new_refused engine env requestTime smpMode isNew refused
  | amended inv isAmend => exact prepareOrder_amend_refused engine env requestTime smpMode isAmend refused

theorem matchOrder_refused (engine : MatchingEngine) (env : Environment) (requestTime eventTime : Nat)
    (incoming : Incoming state ref limit qty leaves)
    (refused : engine.Refuses state.book smpMode (state.order ref) limit leaves) :
    engine.matchOrder env ref limit qty requestTime eventTime 0 smpMode state = (.smp, [], state) := by
  unfold matchOrder
  dsimp only
  rw [prepareOrder_refused engine env requestTime incoming refused]

/-- What an order that comes in presents itself with, when it is not refused. -/
theorem LoopStart.planned (engine : MatchingEngine)
    (start : LoopStart engine env hand ref limit qty requestTime smpMode state prepared) (eventTime : Nat) :
    engine.matchOrder env ref limit qty requestTime eventTime 0 smpMode state =
      let result := prepared.perform env (sweptSide (state.order ref).side) ref requestTime smpMode
        (engine.orderPlan state ref limit (prepared.order ref).leavesQuantity smpMode) (.start eventTime 0)
        (prepared.order ref).leavesQuantity
      (.none, result.ctx.summaries,
        result.state.cancelUnrestableRemainder env ref result.remaining requestTime) := by
  have matched := (start.matchOrder_eq MatchState.matchKeeps_trivial eventTime trivial).1
  rw [matched, matchLoop_performs engine start.held rfl start.ready start.mine le_rfl, start.l3]
  rfl

theorem matchOrder_planned (engine : MatchingEngine) (env : Environment) (requestTime eventTime : Nat)
    (smpMode : SelfMatchPreventionMode) (incoming : Incoming state ref limit qty leaves) :
    engine.matchOrder env ref limit qty requestTime eventTime 0 smpMode state =
      engine.planned env ref limit qty leaves requestTime eventTime smpMode state := by
  have refuses := refuses_iff engine smpMode incoming
  unfold planned
  dsimp only
  by_cases refused : smpMode = .cancelNewest ∧
    (engine.orderPlan state ref limit leaves smpMode).any Act.isWithdraw = true
  · rw [if_pos refused]
    exact matchOrder_refused engine env requestTime eventTime incoming (refuses.mpr refused)
  rw [if_neg refused]
  cases incoming with
  | new inv isNew =>
      have goesOn := fun refusal => refused (refuses.mp refusal)
      have presents : ∀ limit qty, state.present env ref limit qty requestTime = state.publishOrderAck env ref
          requestTime := fun _ _ => if_pos isNew
      have prepared := prepareOrder_new engine env requestTime smpMode (state.order ref).quantity isNew goesOn
      dsimp only at prepared
      rw [presents]
      by_cases cannot : CannotFill state.book smpMode (state.order ref) (state.order ref).price
        (state.order ref).quantity
      · rw [if_pos cannot] at prepared ⊢
        unfold matchOrder
        dsimp only
        rw [prepared]
      rw [if_neg cannot] at prepared ⊢
      by_cases empty : (state.order ref).leavesQuantity = 0
      · rw [if_pos empty] at prepared ⊢
        unfold matchOrder
        dsimp only
        rw [prepared]
      rw [if_neg empty]
      by_cases more : 0 < (state.order ref).leavesQuantity
      · exact (loopStart_new engine env requestTime smpMode inv isNew goesOn cannot more).planned engine eventTime
      · rw [matchOrder_new_negative engine env requestTime smpMode eventTime isNew goesOn cannot (by omega),
          orderPlan, plan, sweep_of_nonpos (by omega)]
        have kept : (state.publishOrderAck env ref requestTime).cancelUnrestableRemainder env ref
            (state.order ref).leavesQuantity requestTime = state.publishOrderAck env ref requestTime :=
          if_neg fun left => more left.1
        rw [MatchState.perform, kept]
        rfl
  | amended inv isAmend =>
      have goesOn := fun refusal => refused (refuses.mp refusal)
      have presents : state.present env ref limit qty requestTime = state.replaceOrder env ref limit qty
          requestTime := if_neg (by rw [isAmend]; decide)
      have leavesIs : ((state.replaceOrder env ref limit qty requestTime).order ref).leavesQuantity =
          amendedQty (state.order ref) qty := replaceOrder_leaves env requestTime inv
      rw [presents, if_neg fun cannot => not_fillOrKill_of_amending inv cannot.1]
      by_cases empty : amendedQty (state.order ref) qty = 0
      · rw [if_pos empty]
        exact matchOrder_amend_emptied engine env requestTime smpMode eventTime inv isAmend goesOn empty
      · rw [if_neg empty]
        have nonneg : 0 ≤ amendedQty (state.order ref) qty := Int.le_max_left ..
        have start := loopStart_amend engine env requestTime smpMode inv isAmend goesOn (by omega)
        rw [← leavesIs]
        exact start.planned engine eventTime

/-- A match turns an order away only when its check does. -/
theorem matchOrder_smp (engine : MatchingEngine) (env : Environment) (requestTime eventTime : Nat)
    (smpMode : SelfMatchPreventionMode) (incoming : Incoming state ref limit qty leaves) :
    (engine.matchOrder env ref limit qty requestTime eventTime 0 smpMode state).1 = .smp ↔
      engine.Refuses state.book smpMode (state.order ref) limit leaves := by
  rw [refuses_iff engine smpMode incoming, matchOrder_planned engine env requestTime eventTime smpMode incoming]
  unfold planned
  dsimp only
  split <;> rename_i refused
  · exact iff_of_true rfl refused
  · refine iff_of_false ?_ refused
    split
    · rintro ⟨⟩
    · split <;> rintro ⟨⟩

/-- Engines with one plan for an order do the same with it. -/
theorem planned_congr {engine other : MatchingEngine}
    (same : engine.orderPlan state ref limit leaves smpMode = other.orderPlan state ref limit leaves smpMode)
    (env : Environment) (qty : Int) (requestTime eventTime : Nat) :
    engine.planned env ref limit qty leaves requestTime eventTime smpMode state =
      other.planned env ref limit qty leaves requestTime eventTime smpMode state := by
  unfold planned
  rw [same]

theorem matchFeed_planned (engine : MatchingEngine) (env : Environment) (inv : state.ledger.Represents .none)
    (side : Side) (orderId : Nat) (price qty : Int) (eventTime seqNum : Nat) :
    engine.matchFeed env side orderId price qty eventTime seqNum state =
      let result := state.performFeed env (sweptSide side) orderId
        (engine.plan (sweptSide side) price (fun _ => false) (restingOrders state.book.l3 (sweptSide side)) qty)
        (.start eventTime seqNum) qty
      (result.remaining, result.ctx.summaries, result.state) := by
  have ready : state.Sweepable .none (sweptSide side) 0 :=
    ⟨inv, fun stale => stale.1.false, fun _ _ _ => by rintro ⟨⟩⟩
  unfold matchFeed
  rw [feedLoop_performs engine orderId ready]

/-- An aggressor comes to an own resting order before its quantity runs out: in queue order, with
what stands in front of it too little, or on a level that the quantity reaches. -/
def MeetsOwn (engine : MatchingEngine) (own : Nat → Bool) (side : BookSide) (limit : Int)
    (orders : List BookOrder) (qty : Int) (order : BookOrder) : Prop :=
  own order.orderId = true ∧
    match engine with
    | .fifo => ∃ front back, withinLimit side limit orders = front ++ order :: back ∧
        foreignQty BookOrder.quantity (own ∘ BookOrder.orderId) front < qty
    | .proRata _ => ∃ level ∈ reached BookOrder.quantity (own ∘ BookOrder.orderId) (levelsWithin side limit orders)
        qty, order ∈ level

section Meets

variable {own : Nat → Bool} {side : BookSide} {orders : List BookOrder} {order : BookOrder}

/-- A plan withdraws the own orders that its aggressor comes to. -/
theorem withdraw_mem_plan (engine : MatchingEngine) (positive : ∀ order ∈ orders, 0 < order.quantity) :
    .withdraw order ∈ engine.plan side limit own orders qty ↔ engine.MeetsOwn own side limit orders qty order := by
  cases engine with
  | fifo =>
      have sized : ∀ order ∈ withinLimit side limit orders, 0 < order.quantity :=
        fun order member => positive order (List.takeWhile_subset _ member)
      unfold plan splitLevel MeetsOwn
      rw [sweep_inOrder, flatten_levelsWithin, withdraw_mem_inOrder sized]
      constructor
      · rintro ⟨front, back, cut, mine, before⟩
        exact ⟨mine, front, back, cut, before⟩
      · rintro ⟨mine, front, back, cut, before⟩
        exact ⟨front, back, cut, mine, before⟩
  | proRata config =>
      have sized : ∀ level ∈ levelsWithin side limit orders, ∀ order ∈ level, 0 < order.quantity :=
        fun level inside order member => positive order ((mem_levelsWithin inside).1 order member)
      unfold plan splitLevel MeetsOwn
      rw [withdraw_mem_sweep (ProRata.share_shares config) sized]
      constructor
      · rintro ⟨level, reaches, inside, mine⟩
        exact ⟨mine, level, reaches, inside⟩
      · rintro ⟨mine, level, reaches, inside⟩
        exact ⟨level, reaches, inside, mine⟩

/-- An order that is come to in queue order is on a level that is reached. -/
theorem MeetsOwn.of_fifo (engine : MatchingEngine) (positive : ∀ order ∈ orders, 0 < order.quantity)
    (meets : MatchingEngine.fifo.MeetsOwn own side limit orders qty order) :
    engine.MeetsOwn own side limit orders qty order := by
  cases engine with
  | fifo => exact meets
  | proRata config =>
      have sized : ∀ level ∈ levelsWithin side limit orders, ∀ order ∈ level, 0 < order.quantity :=
        fun level inside order member => positive order ((mem_levelsWithin inside).1 order member)
      have withdraws := (withdraw_mem_plan .fifo positive).mpr meets
      obtain ⟨level, reaches, left, -, -, acts⟩ := mem_sweep (splitLevel_splits .fifo own) sized withdraws
      exact ⟨meets.1, level, reaches,
        ((splitLevel_splits .fifo own).once level left).subset (List.mem_map_of_mem acts)⟩

end Meets

/-- An order meets one of its own on a level that it reaches. -/
def ReachesOwn (state : MatchState β) (ref : Nat) (limit leaves : Int) (smpMode : SelfMatchPreventionMode) :
    Prop :=
  ∃ level ∈ reached BookOrder.quantity (state.book.ownOrders smpMode (state.order ref) ∘ BookOrder.orderId)
      (levelsWithin (sweptSide (state.order ref).side) limit
        (restingOrders state.book.l3 (sweptSide (state.order ref).side))) leaves,
    ∃ resting ∈ level, state.book.ownOrders smpMode (state.order ref) resting.orderId = true

instance : Decidable (ReachesOwn state ref limit leaves smpMode) :=
  inferInstanceAs (Decidable (∃ level ∈ _, _))

end MatchingEngine

end SlickSim
