import SlickSim.Engine.CheckedAllocation
import SlickSim.Engine.Matching
import SlickSim.Lib.Rounds

/-!
# The matching loops with their assertions

The four loops round by round, without a limit on the rounds. A round fails where an assertion
of the source would, where a fill is of nothing or of more than one of its sides has left, and
where a quantity of an allocation leaves its 64 bits: past that a level of more than these hold
has no total that can be split. The executions that the book declines are given from outside.
-/

set_option autoImplicit false

namespace SlickSim

open Rounds (Round)

/-- The assertions of `utils::executeOrder`. -/
def Order.CanExecute (order : Order) (executedQuantity : Int) : Prop :=
  0 < executedQuantity ∧ 0 ≤ order.leavesQuantity - executedQuantity

instance (order : Order) (executedQuantity : Int) : Decidable (order.CanExecute executedQuantity) :=
  inferInstanceAs (Decidable (_ ∧ _))

/-- Where a loop stands between two rounds. `executions` are those that it has asked the book for. -/
structure Progress (β : Type) where
  executions : Nat
  ctx : MatchContext
  qty : Int
  state : MatchState β

/-- What the book is left as by an execution that it declines. All others it answers itself. -/
abbrev Declines (β : Type) : Type :=
  Nat → Option (OrderBook β)

def Declines.none {β : Type} : Declines β :=
  fun _ => .none

section

variable {β : Type} [OrderBookL3 β]

/-- A fill is of something, and of no more than the aggressor, the resting order and, if that is one
of ours, its object have left. -/
def MatchState.AllowsFill (state : MatchState β) (bookOrderId : Nat) (tradeQty available : Int) : Prop :=
  0 < tradeQty ∧ tradeQty ≤ available ∧
    (∃ order ∈ OrderBookL3.findOrder state.book.l3 bookOrderId, tradeQty ≤ order.quantity) ∧
    ∀ owner ∈ state.book.findOrder bookOrderId, (state.order owner).CanExecute tradeQty

instance (state : MatchState β) (bookOrderId : Nat) (tradeQty available : Int) :
    Decidable (state.AllowsFill bookOrderId tradeQty available) :=
  inferInstanceAs (Decidable (_ ∧ _ ∧ _ ∧ _))

end

namespace Progress

variable {β : Type}

def start (ctx : MatchContext) (qty : Int) (state : MatchState β) : Progress β :=
  { executions := 0, ctx, qty, state }

def stop (progress : Progress β) : LoopResult β :=
  { refused := false, remaining := progress.qty, ctx := progress.ctx, state := progress.state }

variable [OrderBookL3 β]

/-- `fillResting` with its checks. `none` when one is not met. -/
def fill (progress : Progress β) (env : Environment) (declines : Declines β) (side : BookSide)
    (ref bookOrderId : Nat) (resting : Option Nat) (price tradeQty : Int) : Option (Bool × Progress β) :=
  let executed := progress.state.onBook fun book => book.updateOrder ref fun order =>
    order.execute price tradeQty progress.ctx.eventTime
  if (progress.state.order ref).CanExecute tradeQty ∧ executed.AllowsFill bookOrderId tradeQty progress.qty then
    let remaining := progress.qty - tradeQty
    match declines progress.executions with
    | some book =>
        some (false, { progress with
          executions := progress.executions + 1
          qty := remaining
          state := { executed.publishOrderExecution env ref true with book } })
    | none =>
        match progress.state.fillResting env progress.ctx side ref bookOrderId resting price tradeQty
            remaining with
        | (taken, ctx, state) =>
            some (taken, { executions := progress.executions + 1, ctx, qty := remaining, state })
  else none

def fillFromFeed (progress : Progress β) (env : Environment) (declines : Declines β) (side : BookSide)
    (aggressorId bookOrderId : Nat) (price tradeQty : Int) : Option (Bool × Progress β) :=
  if progress.state.AllowsFill bookOrderId tradeQty progress.qty then
    match declines progress.executions with
    | some book =>
        some (false, { progress with
          executions := progress.executions + 1
          state := { progress.state with book } })
    | none =>
        match progress.state.fillRestingFromFeed env progress.ctx side aggressorId bookOrderId price
            tradeQty progress.qty with
        | (taken, qty, ctx, state) =>
            some (taken, { executions := progress.executions + 1, ctx, qty, state })
  else none

variable {env : Environment} {side : BookSide} {progress next : Progress β} {ref bookOrderId aggressorId : Nat}
  {resting : Option Nat} {price tradeQty : Int} {taken : Bool}

/-- A fill that passes its checks is the engines' fill. -/
theorem fill_none (filled : progress.fill env .none side ref bookOrderId resting price tradeQty =
      some (taken, next)) :
    progress.state.fillResting env progress.ctx side ref bookOrderId resting price tradeQty
        (progress.qty - tradeQty) = (taken, next.ctx, next.state) ∧ next.qty = progress.qty - tradeQty := by
  unfold fill at filled
  dsimp only [Declines.none] at filled
  split at filled
  · cases filled
    exact ⟨rfl, rfl⟩
  · cases filled

theorem fillFromFeed_none (filled : progress.fillFromFeed env .none side aggressorId bookOrderId price tradeQty =
      some (taken, next)) :
    progress.state.fillRestingFromFeed env progress.ctx side aggressorId bookOrderId price tradeQty
      progress.qty = (taken, next.qty, next.ctx, next.state) := by
  unfold fillFromFeed at filled
  dsimp only [Declines.none] at filled
  split at filled
  · cases filled
    rfl
  · cases filled

end Progress

namespace Fifo

variable {β : Type} [OrderBookL3 β]

def matchRound (env : Environment) (declines : Declines β) (side : BookSide) (ref : Nat)
    (orderPrice : Int) (requestTime : Nat) (smpMode : SelfMatchPreventionMode) (progress : Progress β) :
    Round (Progress β) (LoopResult β) :=
  if progress.qty ≤ 0 then .ends progress.stop
  else
    match progress.state.crossableLevel side orderPrice with
    | none => .ends progress.stop
    | some level =>
        match level.orders with
        | [] => .fails
        | bookOrder :: _ =>
            let resting := progress.state.book.findOrder bookOrder.orderId
            if smpMode ≠ .none ∧
                isSelfMatch (progress.state.order ref) (resting.map progress.state.book.heap) = true then
              match progress.state.handleSelfMatch env (resting.getD 0) requestTime
                  progress.ctx.eventTime progress.ctx.seqNum smpMode with
              | (false, state) => .ends { { progress with state }.stop with refused := true }
              | (true, state) => .goesOn { progress with state }
            else
              match progress.fill env declines side ref bookOrder.orderId resting level.price
                  (min progress.qty bookOrder.quantity) with
              | none => .fails
              | some (false, progress) => .ends progress.stop
              | some (true, progress) => .goesOn progress

def feedRound (env : Environment) (declines : Declines β) (side : BookSide) (aggressorId : Nat)
    (price : Int) (progress : Progress β) : Round (Progress β) (LoopResult β) :=
  if progress.qty ≤ 0 then .ends progress.stop
  else
    match progress.state.crossableLevel side price with
    | none => .ends progress.stop
    | some level =>
        match level.orders with
        | [] => .fails
        | bookOrder :: _ =>
            match progress.fillFromFeed env declines side aggressorId bookOrder.orderId level.price
                (min progress.qty bookOrder.quantity) with
            | none => .fails
            | some (false, progress) => .ends progress.stop
            | some (true, progress) => .goesOn progress

theorem matchLoop_of_rounds {env : Environment} {side : BookSide} {ref requestTime : Nat} {orderPrice : Int}
    {smpMode : SelfMatchPreventionMode} {limit : Nat} {progress : Progress β} {result : LoopResult β}
    (ended : Rounds.run (matchRound env .none side ref orderPrice requestTime smpMode) limit progress =
      some result) :
    matchLoop env side ref orderPrice requestTime smpMode limit progress.ctx progress.qty progress.state =
      result := by
  refine Rounds.run_eq (fun limit (progress : Progress β) => matchLoop env side ref orderPrice requestTime smpMode
    limit progress.ctx progress.qty progress.state) (fun _ => True) (fun _ _ _ _ => trivial) ?_ trivial ended
  intro limit progress _
  rw [matchLoop, matchRound]
  by_cases done : progress.qty ≤ 0
  · rw [if_pos done, if_pos done]
    rfl
  rw [if_neg done, if_neg done]
  cases progress.state.crossableLevel side orderPrice with
  | none => rfl
  | some level =>
      dsimp only
      cases level.orders with
      | nil => trivial
      | cons bookOrder queue =>
          dsimp only
          split
          · cases progress.state.handleSelfMatch env _ requestTime _ _ smpMode with
            | mk goesOn state =>
                cases goesOn with
                | false => rfl
                | true => rfl
          · cases filled : progress.fill env .none side ref bookOrder.orderId _ level.price _ with
            | none => trivial
            | some outcome =>
                obtain ⟨taken, next⟩ := outcome
                obtain ⟨fills, left⟩ := Progress.fill_none filled
                rw [fills, ← left]
                cases taken with
                | false => rfl
                | true => rfl

theorem feedLoop_of_rounds {env : Environment} {side : BookSide} {aggressorId limit : Nat} {price : Int}
    {progress : Progress β} {result : LoopResult β}
    (ended : Rounds.run (feedRound env .none side aggressorId price) limit progress = some result) :
    feedLoop env side aggressorId price limit progress.ctx progress.qty progress.state = result := by
  refine Rounds.run_eq (fun limit (progress : Progress β) => feedLoop env side aggressorId price limit progress.ctx
    progress.qty progress.state) (fun _ => True) (fun _ _ _ _ => trivial) ?_ trivial ended
  intro limit progress _
  rw [feedLoop, feedRound]
  by_cases done : progress.qty ≤ 0
  · rw [if_pos done, if_pos done]
    rfl
  rw [if_neg done, if_neg done]
  cases progress.state.crossableLevel side price with
  | none => rfl
  | some level =>
      dsimp only
      cases level.orders with
      | nil => trivial
      | cons bookOrder queue =>
          dsimp only
          cases filled : progress.fillFromFeed env .none side aggressorId bookOrder.orderId level.price _ with
          | none => trivial
          | some outcome =>
              obtain ⟨taken, next⟩ := outcome
              rw [Progress.fillFromFeed_none filled]
              cases taken with
              | false => rfl
              | true => rfl

end Fifo

namespace ProRata

variable {β : Type} [OrderBookL3 β]

/-- The loop over an allocation. `false` when a fill was declined. -/
def eachAllocation (fill : Allocation → Progress β → Option (Bool × Progress β)) :
    List Allocation → Progress β → Option (Bool × Progress β)
  | [], progress => some (true, progress)
  | item :: rest, progress =>
      if item.qty = 0 then eachAllocation fill rest progress
      else
        match fill item progress with
        | none => none
        | some (false, progress) => some (false, progress)
        | some (true, progress) => eachAllocation fill rest progress

/-- `fillLevel` with its checks. -/
def checkedFillLevel (env : Environment) (declines : Declines β) (side : BookSide) (ref : Nat)
    (levelPrice : Int) (checkSelfMatch : Bool) :
    List Allocation → Progress β → Option (Bool × Progress β) :=
  eachAllocation fun item progress =>
    let resting := if checkSelfMatch then item.order else progress.state.book.findOrder item.orderId
    progress.fill env declines side ref item.orderId resting levelPrice item.qty

def checkedFeedLevel (env : Environment) (declines : Declines β) (side : BookSide) (aggressorId : Nat)
    (levelPrice : Int) : List Allocation → Progress β → Option (Bool × Progress β) :=
  eachAllocation fun item progress =>
    progress.fillFromFeed env declines side aggressorId item.orderId levelPrice item.qty

def matchRound (env : Environment) (declines : Declines β) (config : ProRataConfig) (side : BookSide)
    (ref : Nat) (orderPrice : Int) (requestTime : Nat) (smpMode : SelfMatchPreventionMode)
    (progress : Progress β) : Round (Progress β) (LoopResult β) :=
  if progress.qty ≤ 0 then .ends progress.stop
  else
    match progress.state.crossableLevel side orderPrice with
    | none => .ends progress.stop
    | some level =>
        if level.orders.isEmpty then .fails
        else
          let checkSelfMatch := decide (smpMode ≠ .none)
          match checkedAllocate config (blankAllocations progress.state.book level checkSelfMatch)
              progress.qty with
          | none => .fails
          | some allocated =>
              let allocations := allocated.items
              let handled :=
                if checkSelfMatch then
                  cancelOwn env ref requestTime progress.ctx smpMode allocations progress.state
                else (some false, progress.state)
              match handled with
              | (none, state) => .ends { { progress with state }.stop with refused := true }
              | (some true, state) => .goesOn { progress with state }
              | (some false, state) =>
                  match checkedFillLevel env declines side ref level.price checkSelfMatch allocations
                      { progress with state } with
                  | none => .fails
                  | some (false, progress) => .ends progress.stop
                  | some (true, progress) => .goesOn progress

def feedRound (env : Environment) (declines : Declines β) (config : ProRataConfig) (side : BookSide)
    (aggressorId : Nat) (price : Int) (progress : Progress β) : Round (Progress β) (LoopResult β) :=
  if progress.qty ≤ 0 then .ends progress.stop
  else
    match progress.state.crossableLevel side price with
    | none => .ends progress.stop
    | some level =>
        if level.orders.isEmpty then .fails
        else
          match checkedAllocate config (blankAllocations progress.state.book level false) progress.qty with
          | none => .fails
          | some allocated =>
              match checkedFeedLevel env declines side aggressorId level.price allocated.items progress with
              | none => .fails
              | some (false, progress) => .ends progress.stop
              | some (true, progress) => .goesOn progress

section Refinement

variable {env : Environment} {config : ProRataConfig} {side : BookSide} {ref requestTime aggressorId limit : Nat}
  {price : Int} {smpMode : SelfMatchPreventionMode} {items : List Allocation} {taken checkSelfMatch : Bool}
  {progress next : Progress β} {result : LoopResult β}

theorem checkedFillLevel_none
    (filled : checkedFillLevel env .none side ref price checkSelfMatch items progress = some (taken, next)) :
    fillLevel env side ref price checkSelfMatch items progress.ctx progress.qty progress.state =
      (taken, next.qty, next.ctx, next.state) := by
  induction items generalizing progress with
  | nil =>
      cases filled
      rfl
  | cons item rest ih =>
      rw [checkedFillLevel, eachAllocation] at filled
      rw [fillLevel]
      by_cases nothing : item.qty = 0
      · rw [if_pos nothing] at filled ⊢
        exact ih filled
      rw [if_neg nothing] at filled ⊢
      dsimp only at filled ⊢
      cases one : progress.fill env .none side ref item.orderId _ price item.qty with
      | none =>
          rw [one] at filled
          cases filled
      | some outcome =>
          obtain ⟨goesOn, between⟩ := outcome
          obtain ⟨fills, left⟩ := Progress.fill_none one
          rw [one] at filled
          rw [fills, ← left]
          cases goesOn with
          | false =>
              cases filled
              rfl
          | true => exact ih filled

theorem checkedFeedLevel_none
    (filled : checkedFeedLevel env .none side aggressorId price items progress = some (taken, next)) :
    feedLevel env side aggressorId price items progress.ctx progress.qty progress.state =
      (taken, next.qty, next.ctx, next.state) := by
  induction items generalizing progress with
  | nil =>
      cases filled
      rfl
  | cons item rest ih =>
      rw [checkedFeedLevel, eachAllocation] at filled
      rw [feedLevel]
      by_cases nothing : item.qty = 0
      · rw [if_pos nothing] at filled ⊢
        exact ih filled
      rw [if_neg nothing] at filled ⊢
      cases one : progress.fillFromFeed env .none side aggressorId item.orderId price item.qty with
      | none =>
          rw [one] at filled
          cases filled
      | some outcome =>
          obtain ⟨goesOn, between⟩ := outcome
          rw [one] at filled
          rw [Progress.fillFromFeed_none one]
          cases goesOn with
          | false =>
              cases filled
              rfl
          | true => exact ih filled

variable (holds : Progress β → Prop)
  (positive : ∀ progress level, holds progress → progress.state.crossableLevel side price = some level →
    ∀ order ∈ level.orders, 0 < order.quantity)

include positive

theorem matchLoop_of_rounds
    (keeps : ∀ progress next, holds progress →
      matchRound env .none config side ref price requestTime smpMode progress = .goesOn next → holds next)
    (now : holds progress)
    (ended : Rounds.run (matchRound env .none config side ref price requestTime smpMode) limit progress =
      some result) :
    matchLoop env config side ref price requestTime smpMode limit progress.ctx progress.qty progress.state =
      result := by
  refine Rounds.run_eq (fun limit (progress : Progress β) => matchLoop env config side ref price requestTime smpMode
    limit progress.ctx progress.qty progress.state) holds keeps ?_ now ended
  intro limit progress now
  rw [matchLoop, matchRound]
  by_cases done : progress.qty ≤ 0
  · rw [if_pos done, if_pos done]
    rfl
  rw [if_neg done, if_neg done]
  cases crosses : progress.state.crossableLevel side price with
  | none => rfl
  | some level =>
      dsimp only
      by_cases empty : level.orders.isEmpty = true
      · rw [if_pos empty]
        trivial
      rw [if_neg empty]
      cases checked : checkedAllocate config (blankAllocations progress.state.book level _) progress.qty with
      | none => trivial
      | some allocated =>
          rw [← (checkedAllocate_eq_some _ _ _ _ (positive progress level now crosses) (not_le.mp done) checked).2]
          dsimp only
          generalize (if decide (smpMode ≠ .none) = true then _ else _ : Option Bool × MatchState β) = handled
          obtain ⟨cancelled, state⟩ := handled
          cases cancelled with
          | none => rfl
          | some cancelled =>
              cases cancelled with
              | true => rfl
              | false =>
                  dsimp only
                  cases filled : checkedFillLevel env .none side ref level.price _ _ { progress with state } with
                  | none => trivial
                  | some outcome =>
                      obtain ⟨taken, next⟩ := outcome
                      have fills := checkedFillLevel_none filled
                      dsimp only at fills
                      rw [fills]
                      cases taken with
                      | false => rfl
                      | true => rfl

theorem feedLoop_of_rounds
    (keeps : ∀ progress next, holds progress →
      feedRound env .none config side aggressorId price progress = .goesOn next → holds next)
    (now : holds progress)
    (ended : Rounds.run (feedRound env .none config side aggressorId price) limit progress = some result) :
    feedLoop env config side aggressorId price limit progress.ctx progress.qty progress.state = result := by
  refine Rounds.run_eq (fun limit (progress : Progress β) => feedLoop env config side aggressorId price limit
    progress.ctx progress.qty progress.state) holds keeps ?_ now ended
  intro limit progress now
  rw [feedLoop, feedRound]
  by_cases done : progress.qty ≤ 0
  · rw [if_pos done, if_pos done]
    rfl
  rw [if_neg done, if_neg done]
  cases crosses : progress.state.crossableLevel side price with
  | none => rfl
  | some level =>
      dsimp only
      by_cases empty : level.orders.isEmpty = true
      · rw [if_pos empty]
        trivial
      rw [if_neg empty]
      cases checked : checkedAllocate config (blankAllocations progress.state.book level false) progress.qty with
      | none => trivial
      | some allocated =>
          rw [← (checkedAllocate_eq_some _ _ _ _ (positive progress level now crosses) (not_le.mp done) checked).2]
          dsimp only
          cases filled : checkedFeedLevel env .none side aggressorId level.price _ progress with
          | none => trivial
          | some outcome =>
              obtain ⟨taken, next⟩ := outcome
              rw [checkedFeedLevel_none filled]
              cases taken with
              | false => rfl
              | true => rfl

end Refinement

end ProRata

namespace MatchingEngine

variable {β : Type} [OrderBookL3 β]

def matchRound (engine : MatchingEngine) (env : Environment) (declines : Declines β) (side : BookSide)
    (ref : Nat) (orderPrice : Int) (requestTime : Nat) (smpMode : SelfMatchPreventionMode) :
    Progress β → Round (Progress β) (LoopResult β) :=
  match engine with
  | .fifo => Fifo.matchRound env declines side ref orderPrice requestTime smpMode
  | .proRata config => ProRata.matchRound env declines config side ref orderPrice requestTime smpMode

def feedRound (engine : MatchingEngine) (env : Environment) (declines : Declines β) (side : BookSide)
    (aggressorId : Nat) (price : Int) : Progress β → Round (Progress β) (LoopResult β) :=
  match engine with
  | .fifo => Fifo.feedRound env declines side aggressorId price
  | .proRata config => ProRata.feedRound env declines config side aggressorId price

end MatchingEngine

end SlickSim
