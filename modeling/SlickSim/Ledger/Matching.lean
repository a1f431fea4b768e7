import SlickSim.Ledger.ProRataLoops

/-!
# What a match does

The outcome of `match` for a new order, for an amended one and for an aggressor
from the feed, the same for both engines.
-/

set_option autoImplicit false

namespace SlickSim

open OrderBookL3 (Regresses restingOrders)

def OrderBook.ownOrders {β : Type} (book : OrderBook β) (smpMode : SelfMatchPreventionMode)
    (order : Order) (id : Nat) : Bool :=
  decide (smpMode ≠ .none) && isSelfMatch order (book.resolve id)

namespace MatchingEngine

variable {β : Type} [OrderBookL3 β] {engine : MatchingEngine} {env : Environment} {hand : Hand}
  {side : BookSide} {seqNum ref requestTime : Nat} {limit qty : Int} {own : Nat → Bool}
  {smpMode : SelfMatchPreventionMode} {state : MatchState β} {ctx : MatchContext}

theorem matchLoop_delivers {Keeps : MatchContext → Int → MatchState β → Prop}
    (keeps : MatchState.MatchKeeps env hand side seqNum ref requestTime Keeps)
    (held : hand.aggressor = some ref) (sameSeq : ctx.seqNum = seqNum)
    (ready : state.Sweepable hand side seqNum) (mine : state.Own smpMode side ref own)
    (leaves : qty = (state.order ref).leavesQuantity)
    (clear : smpMode = .cancelNewest →
      ReachClear side limit own engine.reach (restingOrders state.book.l3 side) qty)
    (kept : Keeps ctx qty state) :
    let result := engine.matchLoop env side ref limit requestTime smpMode ctx qty state
    result.Delivers env hand side limit own seqNum state qty ∧
      (result.state.order ref).leavesQuantity = result.remaining ∧
      Keeps result.ctx result.remaining result.state := by
  cases engine with
  | fifo =>
      exact Fifo.matchLoop_delivers keeps held _ ctx qty state sameSeq ready mine leaves
        (fun _ => Nat.lt_succ_self _) clear kept
  | proRata config =>
      exact ProRata.matchLoop_delivers keeps held _ ctx qty state sameSeq ready mine leaves
        (fun _ => Nat.lt_succ_self _) clear kept

theorem feedLoop_delivers {Keeps : MatchContext → MatchState β → Prop}
    (keeps : MatchState.FeedKeeps env hand side seqNum Keeps) (aggressorId : Nat) (sameSeq : ctx.seqNum = seqNum)
    (ready : state.Sweepable hand side seqNum) (kept : Keeps ctx state) :
    let result := engine.feedLoop env side aggressorId limit ctx qty state
    result.Delivers env hand side limit (fun _ => false) seqNum state qty ∧
      Keeps result.ctx result.state := by
  cases engine with
  | fifo =>
      exact Fifo.feedLoop_delivers keeps aggressorId _ ctx qty state sameSeq ready
        (fun _ => Nat.lt_succ_self _) kept
  | proRata config =>
      exact ProRata.feedLoop_delivers keeps aggressorId _ ctx qty state sameSeq ready
        (fun _ => Nat.lt_succ_self _) kept

/-- A feed aggressor sweeps, and what it has left finds nothing more to take. -/
theorem matchFeed_spec (env : Environment) (side : Side) (orderId : Nat) (price qty : Int)
    (eventTime : Nat) (inv : state.ledger.Represents .none)
    (current : ¬ Regresses state.book.l3 seqNum) :
    ∃ left summaries after,
      engine.matchFeed env side orderId price qty eventTime seqNum state = (left, summaries, after) ∧
      Sweeps env .none (sweptSide side) state.ledger after.ledger ∧
      ¬ Regresses after.book.l3 seqNum ∧ min qty 0 ≤ left ∧
      (0 < left → after.ledger.Beyond (sweptSide side) price ∧
        crossableQty (sweptSide side) price (fun _ => false)
          (restingOrders state.book.l3 (sweptSide side)) < qty) := by
  have ready : state.Sweepable .none (sweptSide side) seqNum := ⟨inv, current, fun _ _ _ => by rintro ⟨⟩⟩
  let result := engine.feedLoop env (sweptSide side) orderId price (MatchContext.start eventTime seqNum)
    qty state
  have delivers : result.Delivers env .none (sweptSide side) price (fun _ => false) seqNum state qty :=
    (feedLoop_delivers MatchState.feedKeeps_trivial orderId
      (show (MatchContext.start eventTime seqNum).seqNum = seqNum from rfl) ready trivial).1
  refine ⟨_, _, _, rfl, delivers.sweeps, delivers.current, delivers.least, ?_⟩
  intro left
  have left : 0 < result.remaining := left
  have nothingLeft : crossableQty (sweptSide side) price (fun _ => false)
      (restingOrders result.state.book.l3 (sweptSide side)) = 0 := by
    apply crossableQty_of_beyond
    intro order member
    exact delivers.settled left _ order (MatchState.entry_of_mem member)
      (OrderBookL3.side_of_mem member)
  have conserved := delivers.conserved
  exact ⟨delivers.settled left, by omega⟩

theorem matchFeed_keeps {Keeps : MatchContext → MatchState β → Prop} (side : Side) (orderId : Nat)
    (price qty : Int) (eventTime : Nat) (inv : state.ledger.Represents .none)
    (current : ¬ Regresses state.book.l3 seqNum)
    (keeps : MatchState.FeedKeeps env .none (sweptSide side) seqNum Keeps)
    (kept : Keeps (.start eventTime seqNum) state) :
    let matched := engine.matchFeed env side orderId price qty eventTime seqNum state
    ∃ ctx, ctx.summaries = matched.2.1 ∧ Keeps ctx matched.2.2 := by
  have ready : state.Sweepable .none (sweptSide side) seqNum := ⟨inv, current, fun _ _ _ => by rintro ⟨⟩⟩
  exact ⟨_, rfl, (feedLoop_delivers keeps orderId rfl ready kept).2⟩

/-- `CANCEL_NEWEST` turns an order away before it is acknowledged. -/
def Refuses (engine : MatchingEngine) (book : OrderBook β) (smpMode : SelfMatchPreventionMode)
    (order : Order) (price qty : Int) : Prop :=
  smpMode = .cancelNewest ∧ 0 < qty ∧
    book.wouldSelfMatch (sweptSide order.side) engine.reach order price qty = true

instance (book : OrderBook β) (order : Order) (price qty : Int) :
    Decidable (engine.Refuses book smpMode order price qty) :=
  inferInstanceAs (Decidable (_ ∧ _))

theorem sweptSide_eq (side : Side) : sweptSide side = (toBookSide side).opposite := by
  cases side <;> rfl

/-- The order in hand can sweep the side it does not stand on. -/
theorem sweepable_of_hand (inv : state.ledger.Represents hand)
    (held : hand.resting = none ∨ hand.resting = some ref)
    (current : ¬ Regresses state.book.l3 seqNum) :
    state.Sweepable hand (sweptSide (state.order ref).side) seqNum where
  inv := inv
  current := current
  apart := by
    intro id resting other rests swept ours isHand
    rcases held with nothing | held
    · rw [nothing] at isHand
      cases isHand
    · obtain rfl : ref = other := Option.some.inj (held.symm.trans isHand)
      have side : resting.side = toBookSide (state.order ref).side := by
        have sameId := inv.indexed.owner_id ours
        have registered := inv.indexed.registered ours
        have agrees := inv.agrees.at_ ref
        by_cases lags : hand.lagging = some ref
        · obtain ⟨⟨entry, found, entrySide⟩, -⟩ := agrees.lags lags
          rw [sameId, rests] at found
          obtain rfl := Option.some.inj found
          exact entrySide
        · obtain ⟨found, -⟩ := agrees.rests registered lags
          rw [sameId, rests] at found
          rw [Option.some.inj found]
          rfl
      rw [sweptSide_eq, side] at swept
      exact BookSide.opposite_ne _ swept.symm

theorem own_ownOrders (smpMode : SelfMatchPreventionMode) (side : BookSide) (ref : Nat) :
    state.Own smpMode side ref (state.book.ownOrders smpMode (state.order ref)) := by
  intro order _
  simp [OrderBook.ownOrders]

/-- Self-match prevention that did not refuse an order lets it through to the end. -/
theorem reachClear_of_not_refuses {order : Order} {price : Int}
    (goesOn : ¬ engine.Refuses state.book smpMode order price qty) (newest : smpMode = .cancelNewest) :
    ReachClear (sweptSide order.side) price (state.book.ownOrders smpMode order) engine.reach
      (restingOrders state.book.l3 (sweptSide order.side)) qty := by
  by_cases more : 0 < qty
  · have clear : state.book.wouldSelfMatch (sweptSide order.side) engine.reach order price qty =
        false := by
      rw [← Bool.not_eq_true]
      exact fun would => goesOn ⟨newest, more, would⟩
    refine reachClear_of_wouldSelfMatch ?_ clear
    intro resting _
    subst newest
    simp [OrderBook.ownOrders]
  · cases engine with
    | fifo => exact QueueClear.of_nonpos (by omega)
    | proRata config => exact LevelClear.of_nonpos (by omega)

/-- The order in hand has swept its way to `swept`. `available` is what it could trade
with at the start. -/
structure SweptTo (env : Environment) (hand : Hand) (ref : Nat) (side : BookSide) (limit available : Int)
    (start swept : Ledger) : Prop where
  sweeps : Sweeps env hand side start swept
  nonneg : 0 ≤ (swept.heap ref).leavesQuantity
  settled : 0 < (swept.heap ref).leavesQuantity → swept.Beyond side limit
  reach : 0 ≤ available
  exhausts : 0 < (swept.heap ref).leavesQuantity ↔ available < (start.heap ref).leavesQuantity
  untouched : available = 0 → (swept.heap ref).leavesQuantity = (start.heap ref).leavesQuantity

/-- The order in hand has swept its way to `swept`, and its remainder was cancelled if
it cannot rest. -/
structure Matched (env : Environment) (hand : Hand) (ref : Nat) (side : BookSide) (limit : Int)
    (requestTime : Nat) (available : Int) (start swept after : Ledger) : Prop
    extends SweptTo env hand ref side limit available start swept where
  reported : after =
    if 0 < (swept.heap ref).leavesQuantity ∧ (swept.heap ref).restsRemainder = false then
      swept.publish env fun slot => slot.writeCancel (swept.heap ref) requestTime
    else swept

/-- What a loop delivers, seen through the lookups, once an unrestable remainder is cancelled. -/
theorem matched_of_delivers (requestTime : Nat) {result : LoopResult β}
    (ready : state.Sweepable hand side seqNum) (nonneg : 0 ≤ (state.order ref).leavesQuantity)
    (delivers : result.Delivers env hand side limit own seqNum state (state.order ref).leavesQuantity)
    (leaves : (result.state.order ref).leavesQuantity = result.remaining) :
    Matched env hand ref side limit requestTime
      (crossableQty side limit own (restingOrders state.book.l3 side)) state.ledger result.state.ledger
      (result.state.cancelUnrestableRemainder env ref result.remaining requestTime).ledger := by
  have least := delivers.least
  have conserved := delivers.conserved
  have after := ready.sweeps delivers.sweeps delivers.current
  have reach : 0 ≤ crossableQty side limit own (restingOrders result.state.book.l3 side) :=
    crossableQty_nonneg fun order member => after.inv.agrees.positive (MatchState.entry_of_mem member)
  have nothingLeft := delivers.nothingLeft
  have before : 0 ≤ crossableQty side limit own (restingOrders state.book.l3 side) :=
    crossableQty_nonneg fun order member => ready.inv.agrees.positive (MatchState.entry_of_mem member)
  refine ⟨⟨delivers.sweeps, ?_, ?_, before, ?_, ?_⟩, ?_⟩
  · show 0 ≤ (result.state.order ref).leavesQuantity
    omega
  · intro left
    refine delivers.settled ?_
    rw [← leaves]
    exact left
  · show 0 < (result.state.order ref).leavesQuantity ↔ _ < (state.order ref).leavesQuantity
    rw [leaves]
    constructor
    · intro left
      have := nothingLeft left
      omega
    · intro short
      omega
  · intro nothing
    show (result.state.order ref).leavesQuantity = (state.order ref).leavesQuantity
    by_cases left : 0 < result.remaining
    · have := nothingLeft left
      omega
    · omega
  · unfold MatchState.cancelUnrestableRemainder
    rw [← leaves]
    show MatchState.ledger (if _ then _ else _) = _
    split <;> rename_i unrestable
    · exact (if_pos unrestable).symm
    · exact (if_neg unrestable).symm

/-- An order has presented itself, a new one with its acknowledgement and an amended one with its
new terms, and finds the other side's queue as it was. -/
structure Presented (hand : Hand) (ref : Nat) (smpMode : SelfMatchPreventionMode) (leaves : Int)
    (state prepared : MatchState β) : Prop where
  held : hand.aggressor = some ref
  l3 : prepared.book.l3 = state.book.l3
  ready : prepared.Sweepable hand (sweptSide (state.order ref).side) 0
  mine : prepared.Own smpMode (sweptSide (state.order ref).side) ref
    (state.book.ownOrders smpMode (state.order ref))
  leaves : (prepared.order ref).leavesQuantity = leaves

/-- A client order that passed the preamble: the state its loop starts from, and what the
loop relies on. -/
structure LoopStart (engine : MatchingEngine) (env : Environment) (hand : Hand) (ref : Nat)
    (limit qty : Int) (requestTime : Nat) (smpMode : SelfMatchPreventionMode)
    (state prepared : MatchState β) : Prop where
  prepares : state.prepareOrder env (sweptSide (state.order ref).side) engine.reach ref limit qty
    requestTime smpMode = (none, prepared)
  held : hand.aggressor = some ref
  l3 : prepared.book.l3 = state.book.l3
  ready : prepared.Sweepable hand (sweptSide (state.order ref).side) 0
  mine : prepared.Own smpMode (sweptSide (state.order ref).side) ref
    (state.book.ownOrders smpMode (state.order ref))
  positive : 0 < (prepared.order ref).leavesQuantity
  clear : smpMode = .cancelNewest → ReachClear (sweptSide (state.order ref).side) limit
    (state.book.ownOrders smpMode (state.order ref)) engine.reach
    (restingOrders prepared.book.l3 (sweptSide (state.order ref).side))
    (prepared.order ref).leavesQuantity

/-- The loop of a client order and what follows it. -/
theorem LoopStart.matchOrder_eq {Keeps : MatchContext → Int → MatchState β → Prop}
    {prepared : MatchState β} (start : LoopStart engine env hand ref limit qty requestTime smpMode state prepared)
    (keeps : MatchState.MatchKeeps env hand (sweptSide (state.order ref).side) 0 ref requestTime Keeps)
    (eventTime : Nat)
    (kept : Keeps (.start eventTime 0) (prepared.order ref).leavesQuantity prepared) :
    let result := engine.matchLoop env (sweptSide (state.order ref).side) ref limit requestTime smpMode
      (.start eventTime 0) (prepared.order ref).leavesQuantity prepared
    engine.matchOrder env ref limit qty requestTime eventTime 0 smpMode state =
        (.none, result.ctx.summaries,
          result.state.cancelUnrestableRemainder env ref result.remaining requestTime) ∧
      result.Delivers env hand (sweptSide (state.order ref).side) limit
        (state.book.ownOrders smpMode (state.order ref)) 0 prepared
        (prepared.order ref).leavesQuantity ∧
      (result.state.order ref).leavesQuantity = result.remaining ∧
      Keeps result.ctx result.remaining result.state := by
  obtain ⟨delivers, leaves, keptOn⟩ := matchLoop_delivers keeps start.held
    (show (MatchContext.start eventTime 0).seqNum = 0 from rfl) start.ready start.mine rfl start.clear kept
  refine ⟨?_, delivers, leaves, keptOn⟩
  unfold matchOrder
  dsimp only
  rw [start.prepares]
  dsimp only
  rw [if_neg (by rw [delivers.goesOn]; decide)]

theorem LoopStart.matched {prepared : MatchState β}
    (start : LoopStart engine env hand ref limit qty requestTime smpMode state prepared) (eventTime : Nat) :
    ∃ summaries after, engine.matchOrder env ref limit qty requestTime eventTime 0 smpMode state =
        (.none, summaries, after) ∧
      ∃ swept, Matched env hand ref (sweptSide (state.order ref).side) limit requestTime
        (crossableQty (sweptSide (state.order ref).side) limit
          (state.book.ownOrders smpMode (state.order ref))
          (restingOrders state.book.l3 (sweptSide (state.order ref).side)))
        prepared.ledger swept after.ledger := by
  obtain ⟨matched, delivers, leaves, -⟩ := start.matchOrder_eq MatchState.matchKeeps_trivial eventTime trivial
  have done := matched_of_delivers requestTime start.ready start.positive.le delivers leaves
  rw [start.l3] at done
  exact ⟨_, _, matched, _, done⟩

/-! ## New orders -/

/-- A fill-or-kill order that the crossable liquidity does not cover. -/
def CannotFill (book : OrderBook β) (smpMode : SelfMatchPreventionMode) (order : Order)
    (limit qty : Int) : Prop :=
  order.timeInForce = .fillOrKill ∧
    book.canFillCompletely (sweptSide order.side) order limit qty smpMode = false

instance (book : OrderBook β) (order : Order) (limit qty : Int) :
    Decidable (CannotFill book smpMode order limit qty) :=
  inferInstanceAs (Decidable (_ ∧ _))

theorem CannotFill.unrestable {book : OrderBook β} {order : Order} {qty : Int}
    (cannot : CannotFill book smpMode order limit qty) : order.restsRemainder = false := by
  unfold Order.restsRemainder
  rw [cannot.1]
  exact Bool.and_false _

section New

variable (engine env requestTime smpMode) (eventTime : Nat)

omit eventTime in
theorem prepareOrder_new_refused (isNew : (state.order ref).status = .pendingNew)
    (refused : engine.Refuses state.book smpMode (state.order ref) limit
      (state.order ref).leavesQuantity) :
    state.prepareOrder env (sweptSide (state.order ref).side) engine.reach ref limit qty requestTime smpMode =
      (some .smp, state) := by
  obtain ⟨newest, more, would⟩ := refused
  unfold MatchState.prepareOrder
  dsimp only
  rw [if_neg (show ¬ (state.order ref).status = .pendingReplace by rw [isNew]; decide),
    if_pos ⟨newest, more, would⟩]

theorem matchOrder_new_refused (isNew : (state.order ref).status = .pendingNew)
    (refused : engine.Refuses state.book smpMode (state.order ref) limit
      (state.order ref).leavesQuantity) :
    engine.matchOrder env ref limit qty requestTime eventTime seqNum smpMode state =
      (.smp, [], state) := by
  unfold matchOrder
  dsimp only
  rw [prepareOrder_new_refused engine env requestTime smpMode isNew refused]

theorem prepareOrder_new (qty : Int) (isNew : (state.order ref).status = .pendingNew)
    (goesOn : ¬ engine.Refuses state.book smpMode (state.order ref) limit
      (state.order ref).leavesQuantity) :
    state.prepareOrder env (sweptSide (state.order ref).side) engine.reach ref limit qty requestTime
        smpMode =
      let acked := state.publishOrderAck env ref requestTime
      if CannotFill state.book smpMode (state.order ref) limit qty then
        (some .fokCannotFill, acked.publishOrderCancel env ref requestTime)
      else if (state.order ref).leavesQuantity = 0 then
        (some .none, acked.publishOrderCancel env ref requestTime)
      else (none, acked) := by
  unfold MatchState.prepareOrder
  dsimp only
  rw [if_neg (show ¬ (state.order ref).status = .pendingReplace by rw [isNew]; decide),
    if_neg (show ¬ (_ ∧ _ ∧ _) from goesOn), if_pos isNew,
    if_neg (show ¬ (state.order ref).status = .pendingReplace by rw [isNew]; decide)]
  rfl

private theorem matchLoop_nonpos (done : qty ≤ 0) :
    engine.matchLoop env side ref limit requestTime smpMode ctx qty state =
      ⟨false, qty, ctx, state⟩ := by
  cases engine with
  | fifo =>
      show Fifo.matchLoop _ _ _ _ _ _ (_ + 1) _ _ _ = _
      unfold Fifo.matchLoop
      exact if_pos done
  | proRata config =>
      show ProRata.matchLoop _ _ _ _ _ _ _ (_ + 1) _ _ _ = _
      unfold ProRata.matchLoop
      exact if_pos done

/-- A new order that cannot be filled as it has to be, or has nothing to fill, ends before it matches. -/
theorem matchOrder_new_done (isNew : (state.order ref).status = .pendingNew)
    (goesOn : ¬ engine.Refuses state.book smpMode (state.order ref) limit
      (state.order ref).leavesQuantity)
    (done : CannotFill state.book smpMode (state.order ref) limit qty ∨
      (state.order ref).leavesQuantity = 0) :
    ∃ reason, engine.matchOrder env ref limit qty requestTime eventTime 0 smpMode state =
        (reason, [], (state.publishOrderAck env ref requestTime).publishOrderCancel env ref requestTime) ∧
      (reason = .fokCannotFill ∧ CannotFill state.book smpMode (state.order ref) limit qty ∨
        reason = .none ∧ (state.order ref).leavesQuantity = 0) := by
  have prepared := prepareOrder_new engine env requestTime smpMode qty isNew goesOn
  dsimp only at prepared
  unfold matchOrder
  dsimp only
  by_cases fok : CannotFill state.book smpMode (state.order ref) limit qty
  · rw [prepared, if_pos fok]
    exact ⟨_, rfl, .inl ⟨rfl, fok⟩⟩
  · have empty := done.resolve_left fok
    rw [prepared, if_neg fok, if_pos empty]
    exact ⟨_, rfl, .inr ⟨rfl, empty⟩⟩

/-- An order for less than nothing is acknowledged, and nothing more. -/
theorem matchOrder_new_negative (isNew : (state.order ref).status = .pendingNew)
    (goesOn : ¬ engine.Refuses state.book smpMode (state.order ref) limit
      (state.order ref).leavesQuantity)
    (fillable : ¬ CannotFill state.book smpMode (state.order ref) limit qty)
    (negative : (state.order ref).leavesQuantity < 0) :
    engine.matchOrder env ref limit qty requestTime eventTime 0 smpMode state =
      (.none, [], state.publishOrderAck env ref requestTime) := by
  let acked := state.publishOrderAck env ref requestTime
  have prepared := prepareOrder_new engine env requestTime smpMode qty isNew goesOn
  dsimp only at prepared
  unfold matchOrder
  dsimp only
  rw [prepared, if_neg fillable, if_neg (show ¬ (state.order ref).leavesQuantity = 0 by omega)]
  dsimp only
  rw [show engine.matchLoop env (sweptSide (state.order ref).side) ref limit requestTime smpMode
    (MatchContext.start eventTime 0) (acked.order ref).leavesQuantity acked = _ from
      matchLoop_nonpos engine env requestTime smpMode (show (state.order ref).leavesQuantity ≤ 0
        by omega)]
  have kept : acked.cancelUnrestableRemainder env ref (acked.order ref).leavesQuantity requestTime = acked :=
    if_neg fun left => absurd left.1 (show ¬ 0 < (state.order ref).leavesQuantity by omega)
  dsimp only
  rw [kept]
  rfl

omit eventTime in
theorem presented_new (inv : state.ledger.Represents (.pending ref)) :
    Presented (.working ref) ref smpMode (state.order ref).leavesQuantity state
      (state.publishOrderAck env ref requestTime) where
  held := rfl
  l3 := rfl
  ready := by
    have acked : (state.ledger.publish env fun slot =>
        slot.writeAck (state.order ref) requestTime).Represents (.working ref) :=
      inv.report (.inr rfl) (by intro _; rfl) rfl rfl (by rintro _ ⟨⟩)
    exact sweepable_of_hand (show (state.publishOrderAck env ref requestTime).ledger.Represents _ from acked)
      (.inl rfl) (fun stale => stale.1.false)
  mine := own_ownOrders smpMode _ ref
  leaves := rfl

omit eventTime in
theorem loopStart_new (inv : state.ledger.Represents (.pending ref))
    (isNew : (state.order ref).status = .pendingNew)
    (goesOn : ¬ engine.Refuses state.book smpMode (state.order ref) limit
      (state.order ref).leavesQuantity)
    (fillable : ¬ CannotFill state.book smpMode (state.order ref) limit qty)
    (positive : 0 < (state.order ref).leavesQuantity) :
    LoopStart engine env (.working ref) ref limit qty requestTime smpMode state
      (state.publishOrderAck env ref requestTime) := by
  have presented : Presented (.working ref) ref smpMode (state.order ref).leavesQuantity state
      (state.publishOrderAck env ref requestTime) := presented_new env requestTime smpMode inv
  exact {
    prepares := by
      have prepared := prepareOrder_new engine env requestTime smpMode qty isNew goesOn
      dsimp only at prepared
      rw [prepared, if_neg fillable, if_neg (show ¬ (state.order ref).leavesQuantity = 0 by omega)]
    held := presented.held
    l3 := presented.l3
    ready := presented.ready
    mine := presented.mine
    positive := positive
    clear := fun newest => reachClear_of_not_refuses goesOn newest }

/-- A new order that is not refused is acknowledged. Then it is finished before it
could match, or it matches. -/
theorem matchOrder_new (qty : Int) (inv : state.ledger.Represents (.pending ref))
    (isNew : (state.order ref).status = .pendingNew)
    (goesOn : ¬ engine.Refuses state.book smpMode (state.order ref) limit
      (state.order ref).leavesQuantity)
    {acked : Ledger} (isAcked : acked = state.ledger.publish env fun slot =>
      slot.writeAck (state.order ref) requestTime) :
    ∃ reason summaries after,
      engine.matchOrder env ref limit qty requestTime eventTime 0 smpMode state =
        (reason, summaries, after) ∧
      ((reason = .fokCannotFill ∧ CannotFill state.book smpMode (state.order ref) limit qty ∨
          reason = .none ∧ (state.order ref).leavesQuantity = 0) ∧
        after.ledger = (acked.publish env fun slot =>
          slot.writeCancel (state.order ref) requestTime) ∨
       reason = .none ∧ ¬ CannotFill state.book smpMode (state.order ref) limit qty ∧
        ((state.order ref).leavesQuantity < 0 ∧ after.ledger = acked ∨
          0 < (state.order ref).leavesQuantity ∧
          ∃ swept, Matched env (.working ref) ref (sweptSide (state.order ref).side) limit requestTime
            (crossableQty (sweptSide (state.order ref).side) limit
              (state.book.ownOrders smpMode (state.order ref))
              (restingOrders state.book.l3 (sweptSide (state.order ref).side)))
            acked swept after.ledger)) := by
  let ackedState := state.publishOrderAck env ref requestTime
  have ackedLedger : ackedState.ledger = acked := isAcked.symm
  by_cases finished : CannotFill state.book smpMode (state.order ref) limit qty ∨
      (state.order ref).leavesQuantity = 0
  · obtain ⟨reason, matched, isReason⟩ := matchOrder_new_done engine env requestTime smpMode eventTime isNew
      goesOn finished
    refine ⟨_, _, _, matched, .inl ⟨isReason, ?_⟩⟩
    rw [← ackedLedger]
    rfl
  obtain ⟨fok, some⟩ := not_or.mp finished
  by_cases negative : (state.order ref).leavesQuantity < 0
  · refine ⟨_, _, _, matchOrder_new_negative engine env requestTime smpMode eventTime isNew goesOn fok
      negative, .inr ⟨rfl, fok, .inl ⟨negative, ackedLedger⟩⟩⟩
  · have start := loopStart_new engine env requestTime smpMode inv isNew goesOn fok (by omega)
    obtain ⟨summaries, after, matched, swept, done⟩ := start.matched eventTime
    refine ⟨_, _, _, matched, .inr ⟨rfl, fok, .inr ⟨by omega, swept, ?_⟩⟩⟩
    rw [← ackedLedger]
    exact done

end New

/-! ## Amendments -/

/-- What an amendment leaves to match. -/
def amendedQty (order : Order) (newQty : Int) : Int :=
  max 0 (order.leavesQuantity + (newQty - order.quantity))

omit [OrderBookL3 β] in
theorem ownOrders_congr {before after : OrderBook β} {order order' : Order}
    (sameOrders : after.orders = before.orders)
    (sameClients : ∀ ref, (after.heap ref).clientId = (before.heap ref).clientId)
    (sameClient : order'.clientId = order.clientId) :
    after.ownOrders smpMode order' = before.ownOrders smpMode order := by
  funext id
  unfold OrderBook.ownOrders
  rw [MatchState.isSelfMatch_congr sameClient]
  unfold OrderBook.resolve OrderBook.findOrder
  rw [sameOrders]
  cases before.orders.lookup id with
  | none => rfl
  | some ref => exact congrArg some (sameClients ref)

end MatchingEngine

namespace MatchState

variable {β : Type} [OrderBookL3 β] (state : MatchState β) (env : Environment) (ref : Nat)
  (newPrice newQty : Int) (requestTime : Nat)

omit [OrderBookL3 β] in
/-- The state an amendment matches from: its terms are on the order and reported. -/
def replaceOrder : MatchState β :=
  (state.onBook fun book => book.updateOrder ref (Order.replace newPrice newQty)).publishOrderModify env ref
    newPrice newQty requestTime

omit [OrderBookL3 β] in
theorem replaceOrder_order : (state.replaceOrder env ref newPrice newQty requestTime).order ref =
    (state.order ref).replace newPrice newQty :=
  Function.update_self ..

theorem replaceOrder_ledger : (state.replaceOrder env ref newPrice newQty requestTime).ledger =
    (state.ledger.updateOrder ref (Order.replace newPrice newQty)).publish env fun slot =>
      slot.writeModify ((state.order ref).replace newPrice newQty) newPrice newQty requestTime := by
  rw [← state.replaceOrder_order env ref newPrice newQty requestTime]
  rfl

end MatchState

namespace MatchingEngine

variable {β : Type} [OrderBookL3 β] {engine : MatchingEngine} {env : Environment} {ref requestTime seqNum : Nat}
  {smpMode : SelfMatchPreventionMode} {state : MatchState β}

section Amend

variable (engine env requestTime smpMode) (eventTime : Nat) {newPrice newQty : Int}

omit eventTime in
theorem prepareOrder_amend_refused (isAmend : (state.order ref).status = .pendingReplace)
    (refused : engine.Refuses state.book smpMode (state.order ref) newPrice
      (amendedQty (state.order ref) newQty)) :
    state.prepareOrder env (sweptSide (state.order ref).side) engine.reach ref newPrice newQty requestTime smpMode =
      (some .smp, state) := by
  obtain ⟨newest, more, would⟩ := refused
  unfold amendedQty at more would
  unfold MatchState.prepareOrder
  dsimp only
  rw [if_pos isAmend, if_pos ⟨newest, more, would⟩]

theorem matchOrder_amend_refused (isAmend : (state.order ref).status = .pendingReplace)
    (refused : engine.Refuses state.book smpMode (state.order ref) newPrice
      (amendedQty (state.order ref) newQty)) :
    engine.matchOrder env ref newPrice newQty requestTime eventTime seqNum smpMode state =
      (.smp, [], state) := by
  unfold matchOrder
  dsimp only
  rw [prepareOrder_amend_refused engine env requestTime smpMode isAmend refused]

omit engine env requestTime smpMode eventTime in
/-- An order that rests can be amended, and a fill-or-kill order does not rest. -/
theorem not_fillOrKill_of_amending (inv : state.ledger.Represents (.amending ref)) :
    (state.order ref).timeInForce ≠ .fillOrKill := by
  have registered := inv.indexed.resting_registered (show (Hand.amending ref).resting = some ref from rfl)
  have rests : (state.order ref).timeInForce.rests = true := (inv.agrees.at_ ref).durable registered
  intro fok
  rw [fok] at rests
  cases rests

omit eventTime in
theorem prepareOrder_amend (inv : state.ledger.Represents (.amending ref))
    (isAmend : (state.order ref).status = .pendingReplace)
    (goesOn : ¬ engine.Refuses state.book smpMode (state.order ref) newPrice
      (amendedQty (state.order ref) newQty)) :
    state.prepareOrder env (sweptSide (state.order ref).side) engine.reach ref newPrice newQty
        requestTime smpMode =
      let replaced := state.replaceOrder env ref newPrice newQty requestTime
      if (replaced.order ref).leavesQuantity = 0 then
        (some .none, replaced.publishOrderCancel env ref requestTime)
      else (none, replaced) := by
  have durable := not_fillOrKill_of_amending inv
  unfold Refuses amendedQty at goesOn
  unfold MatchState.prepareOrder
  dsimp only
  rw [if_pos isAmend, if_neg goesOn,
    if_neg (show ¬ (state.order ref).status = .pendingNew by rw [isAmend]; decide),
    if_neg (fun fok => durable fok.1), if_pos isAmend]
  rfl

omit eventTime in
theorem replaceOrder_leaves (inv : state.ledger.Represents (.amending ref)) :
    ((state.replaceOrder env ref newPrice newQty requestTime).order ref).leavesQuantity =
      amendedQty (state.order ref) newQty := by
  have registered := inv.indexed.resting_registered (show (Hand.amending ref).resting = some ref from rfl)
  obtain ⟨-, -, whole⟩ := (inv.agrees.at_ ref).rests registered (by rintro ⟨⟩)
  have whole : (state.order ref).quantity =
      (state.order ref).leavesQuantity + (state.order ref).cumQuantity := whole
  rw [MatchState.replaceOrder_order, amendedQty]
  unfold Order.replace
  dsimp only
  split <;> omega

omit eventTime in
theorem presented_amend (inv : state.ledger.Represents (.amending ref)) :
    Presented (.amended ref) ref smpMode (amendedQty (state.order ref) newQty) state
      (state.replaceOrder env ref newPrice newQty requestTime) := by
  let replaced := state.replaceOrder env ref newPrice newQty requestTime
  have self : replaced.order ref = (state.order ref).replace newPrice newQty :=
    MatchState.replaceOrder_order ..
  have replacedInv : replaced.ledger.Represents (.amended ref) := by
    rw [MatchState.replaceOrder_ledger]
    have written : (state.ledger.updateOrder ref (Order.replace newPrice newQty)).Represents
        (.amended ref) := inv.replace
    exact written.report (.inl (written.indexed.resting_registered rfl))
      (by
        intro slot
        rw [Ledger.updateOrder_heap_self]
        rfl) rfl rfl (fun _ held => held)
  have sameSide : (replaced.order ref).side = (state.order ref).side := by
    rw [self]
    rfl
  have sameOwn : replaced.book.ownOrders smpMode (replaced.order ref) =
      state.book.ownOrders smpMode (state.order ref) := by
    refine ownOrders_congr rfl ?_ (by rw [self]; rfl)
    intro other
    by_cases same : other = ref
    · subst same
      rw [show replaced.book.heap other = _ from self]
      rfl
    · exact congrArg Order.clientId (Function.update_of_ne same _ _)
  exact {
    held := rfl
    l3 := rfl
    ready := by
      rw [← sameSide]
      exact sweepable_of_hand replacedInv (.inr rfl) (fun stale => stale.1.false)
    mine := by
      rw [← sameOwn]
      exact own_ownOrders smpMode _ ref
    leaves := replaceOrder_leaves env requestTime inv }

omit eventTime in
theorem loopStart_amend (inv : state.ledger.Represents (.amending ref))
    (isAmend : (state.order ref).status = .pendingReplace)
    (goesOn : ¬ engine.Refuses state.book smpMode (state.order ref) newPrice
      (amendedQty (state.order ref) newQty))
    (positive : 0 < amendedQty (state.order ref) newQty) :
    LoopStart engine env (.amended ref) ref newPrice newQty requestTime smpMode state
      (state.replaceOrder env ref newPrice newQty requestTime) := by
  have presented : Presented (.amended ref) ref smpMode (amendedQty (state.order ref) newQty) state
      (state.replaceOrder env ref newPrice newQty requestTime) :=
    presented_amend env requestTime smpMode inv
  have left := presented.leaves
  exact {
    prepares := by
      rw [prepareOrder_amend engine env requestTime smpMode inv isAmend goesOn]
      exact if_neg (by omega)
    held := presented.held
    l3 := presented.l3
    ready := presented.ready
    mine := presented.mine
    positive := by
      rw [left]
      exact positive
    clear := by
      intro newest
      rw [left]
      exact reachClear_of_not_refuses goesOn newest }

/-- An amendment to what is filled already closes the order before it matches. -/
theorem matchOrder_amend_emptied (inv : state.ledger.Represents (.amending ref))
    (isAmend : (state.order ref).status = .pendingReplace)
    (goesOn : ¬ engine.Refuses state.book smpMode (state.order ref) newPrice
      (amendedQty (state.order ref) newQty))
    (empty : amendedQty (state.order ref) newQty = 0) :
    engine.matchOrder env ref newPrice newQty requestTime eventTime 0 smpMode state =
      (.none, [], (state.replaceOrder env ref newPrice newQty requestTime).publishOrderCancel env ref
        requestTime) := by
  have prepared := prepareOrder_amend engine env requestTime smpMode inv isAmend goesOn
  dsimp only at prepared
  rw [if_pos ((replaceOrder_leaves env requestTime inv).trans empty)] at prepared
  unfold matchOrder
  dsimp only
  rw [prepared]

/-- An amendment that is not refused replaces the order's terms. Then nothing is left
of the order, or it matches. -/
theorem matchOrder_amend (inv : state.ledger.Represents (.amending ref))
    (isAmend : (state.order ref).status = .pendingReplace)
    (goesOn : ¬ engine.Refuses state.book smpMode (state.order ref) newPrice
      (amendedQty (state.order ref) newQty))
    {replaced : Ledger} (isReplaced : replaced =
      (state.ledger.updateOrder ref (Order.replace newPrice newQty)).publish env fun slot =>
        slot.writeModify ((state.order ref).replace newPrice newQty) newPrice newQty requestTime) :
    ∃ summaries after,
      engine.matchOrder env ref newPrice newQty requestTime eventTime 0 smpMode state =
        (.none, summaries, after) ∧
      ((replaced.heap ref).leavesQuantity = 0 ∧
        after.ledger = (replaced.publish env fun slot =>
          slot.writeCancel (replaced.heap ref) requestTime) ∨
       0 < (replaced.heap ref).leavesQuantity ∧
        ∃ swept, Matched env (.amended ref) ref (sweptSide (state.order ref).side) newPrice requestTime
          (crossableQty (sweptSide (state.order ref).side) newPrice
            (state.book.ownOrders smpMode (state.order ref))
            (restingOrders state.book.l3 (sweptSide (state.order ref).side)))
          replaced swept after.ledger) := by
  let replacedState := state.replaceOrder env ref newPrice newQty requestTime
  have replacedLedger : replacedState.ledger = replaced := by
    rw [isReplaced]
    exact MatchState.replaceOrder_ledger ..
  have heapIs : replaced.heap ref = replacedState.order ref := by
    rw [← replacedLedger]
    rfl
  have left : (replacedState.order ref).leavesQuantity = amendedQty (state.order ref) newQty :=
    replaceOrder_leaves env requestTime inv
  by_cases empty : (replacedState.order ref).leavesQuantity = 0
  · refine ⟨[], _, matchOrder_amend_emptied engine env requestTime smpMode eventTime inv isAmend goesOn
      (left.symm.trans empty), .inl ⟨?_, ?_⟩⟩
    · rw [heapIs]
      exact empty
    · rw [heapIs, ← replacedLedger]
      rfl
  · have positive : 0 < amendedQty (state.order ref) newQty := by
      have : 0 ≤ amendedQty (state.order ref) newQty := Int.le_max_left ..
      omega
    have start := loopStart_amend engine env requestTime smpMode inv isAmend goesOn positive
    obtain ⟨summaries, after, matched, swept, done⟩ := start.matched eventTime
    refine ⟨summaries, after, matched, .inr ⟨?_, swept, ?_⟩⟩
    · rw [heapIs]
      exact start.positive
    · rw [← replacedLedger]
      exact done

end Amend

end MatchingEngine

/-! ## Orders that come in -/

/-- An order that comes in, a new one or one that is amended: its limit, the quantity the
fill-or-kill check counts and what it has to trade. -/
inductive Incoming {β : Type} [OrderBookL3 β] (state : MatchState β) (ref : Nat) : Int → Int → Int → Prop
  | new (inv : state.ledger.Represents (.pending ref)) (isNew : (state.order ref).status = .pendingNew) :
      Incoming state ref (state.order ref).price (state.order ref).quantity (state.order ref).leavesQuantity
  | amended (inv : state.ledger.Represents (.amending ref)) (isAmend : (state.order ref).status = .pendingReplace)
      (newPrice newQty : Int) : Incoming state ref newPrice newQty (MatchingEngine.amendedQty (state.order ref) newQty)

end SlickSim
