import SlickSim.Ledger.Amendments
import SlickSim.Ledger.Performed
import SlickSim.Ledger.Prints

/-!
# What the tape and the reports say of an order

A trade summary names every order of its trades, the aggressor's with what it took in all. A
match tells of a client's order in its summaries what it tells in its TRADE reports.
-/

set_option autoImplicit false

namespace SlickSim

open Sweeping
open OrderBookL3 (Regresses restingOrders)
open MatchingEngine (sweptSide)

/-! ## What is told of an order at a price -/

def Trade.qtyOf (leg : Trade) (id : Nat) : Int :=
  if leg.orderId = id then leg.qty else 0

def printedQty (summaries : List TradeSummaryInfo) (id : Nat) (price : Int) : Int :=
  (summaries.map fun summary =>
    if summary.price = price then (summary.trades.map fun leg => leg.qtyOf id).sum else 0).sum

def reportedQty (trades : List TradeTold) (id : Nat) (price : Int) : Int :=
  (trades.map fun trade => if trade.orderNum = id ∧ trade.price = price then trade.qty else 0).sum

theorem printedQty_append (left right : List TradeSummaryInfo) (id : Nat) (price : Int) :
    printedQty (left ++ right) id price = printedQty left id price + printedQty right id price := by
  unfold printedQty
  rw [List.map_append, List.sum_append]

theorem printedQty_singleton (summary : TradeSummaryInfo) (id : Nat) (price : Int) :
    printedQty [summary] id price =
      if summary.price = price then (summary.trades.map fun leg => leg.qtyOf id).sum else 0 := by
  unfold printedQty
  rw [List.map_singleton, List.sum_singleton]

theorem reportedQty_append (left right : List TradeTold) (id : Nat) (price : Int) :
    reportedQty (left ++ right) id price = reportedQty left id price + reportedQty right id price := by
  unfold reportedQty
  rw [List.map_append, List.sum_append]

theorem reportedQty_singleton (trade : TradeTold) (id : Nat) (price : Int) :
    reportedQty [trade] id price = if trade.orderNum = id ∧ trade.price = price then trade.qty else 0 := by
  unfold reportedQty
  rw [List.map_singleton, List.sum_singleton]

/-- Orders that no leg names did not trade. -/
theorem printedQty_of_absent {summaries : List TradeSummaryInfo} {id : Nat}
    (absent : ∀ summary ∈ summaries, ∀ leg ∈ summary.trades, leg.orderId ≠ id) (price : Int) :
    printedQty summaries id price = 0 := by
  refine List.sum_eq_zero fun qty member => ?_
  obtain ⟨summary, inside, rfl⟩ := List.mem_map.mp member
  split
  · refine List.sum_eq_zero fun part isPart => ?_
    obtain ⟨leg, isLeg, rfl⟩ := List.mem_map.mp isPart
    exact if_neg (absent summary inside leg isLeg)
  · rfl

theorem reportedQty_of_absent {trades : List TradeTold} {id : Nat} (absent : ∀ trade ∈ trades, trade.orderNum ≠ id)
    (price : Int) : reportedQty trades id price = 0 := by
  refine List.sum_eq_zero fun qty member => ?_
  obtain ⟨trade, inside, rfl⟩ := List.mem_map.mp member
  exact if_neg fun both => absent trade inside both.1

/-! ## One fill -/

/-- Every summary names its aggressor first, and the last one is that of the last fill price. -/
structure MatchContext.Headed (aggressorId : Nat) (ctx : MatchContext) : Prop where
  isOpen : ctx.Open
  heads : ∀ summary ∈ ctx.summaries, ∃ qty legs, summary.trades = ⟨aggressorId, qty⟩ :: legs

namespace TradeSummaryInfo

variable {summary : TradeSummaryInfo} {aggressorId : Nat} {headQty : Int} {legs : List Trade}

theorem addLeg_trades (trades : summary.trades = ⟨aggressorId, headQty⟩ :: legs) (bookOrderId : Nat)
    (tradeQty phantomQty : Int) : (summary.addLeg bookOrderId tradeQty phantomQty).trades =
      ⟨aggressorId, headQty + tradeQty⟩ :: (legs ++ [⟨bookOrderId, tradeQty⟩]) := by
  unfold addLeg
  rw [trades]
  rfl

theorem addLeg_printed (trades : summary.trades = ⟨aggressorId, headQty⟩ :: legs) (bookOrderId : Nat)
    (tradeQty phantomQty : Int) (id : Nat) (price : Int) :
    printedQty [summary.addLeg bookOrderId tradeQty phantomQty] id price = printedQty [summary] id price +
      if summary.price = price then
        (if aggressorId = id then tradeQty else 0) + (if bookOrderId = id then tradeQty else 0)
      else 0 := by
  have samePrice : (summary.addLeg bookOrderId tradeQty phantomQty).price = summary.price := rfl
  rw [printedQty_singleton, printedQty_singleton, addLeg_trades trades, trades, samePrice]
  split
  · rw [List.map_cons, List.map_cons, List.map_append, List.sum_cons, List.sum_cons, List.sum_append,
      List.map_singleton, List.sum_singleton]
    simp only [Trade.qtyOf]
    split <;> split <;> omega
  · rfl

end TradeSummaryInfo

theorem Ledger.Owned.grown {before after : Ledger} {id : Nat} (owned : before.Owned id) {told : List OrderResponse}
    (grown : after.responses = before.responses ++ told) : after.Owned id := by
  obtain ⟨nonzero, response, member, same⟩ := owned
  exact ⟨nonzero, response, grown ▸ List.mem_append_left _ member, same⟩

namespace MatchState

variable {β : Type} {state : MatchState β} {ctx : MatchContext} {side : BookSide}
  {aggressorId bookOrderId : Nat} {price tradeQty phantomQty : Int}

theorem recordTrade_printed (headed : ctx.Headed aggressorId) :
    let next := (state.recordTrade ctx side aggressorId bookOrderId price tradeQty phantomQty).1
    next.Headed aggressorId ∧
      (∀ summary ∈ next.summaries, ∀ leg ∈ summary.trades, leg.orderId = aggressorId ∨ leg.orderId = bookOrderId ∨
        ∃ earlier ∈ ctx.summaries, ∃ old ∈ earlier.trades, old.orderId = leg.orderId) ∧
      ∀ id other, other ≠ nullPrice → printedQty next.summaries id other = printedQty ctx.summaries id other +
        if price = other then
          (if aggressorId = id then tradeQty else 0) + (if bookOrderId = id then tradeQty else 0)
        else 0 := by
  obtain ⟨isOpen, heads⟩ := headed
  unfold recordTrade
  split <;> rename_i fresh
  · refine ⟨⟨by simp [MatchContext.Open], ?_⟩, ?_, ?_⟩
    · intro summary member
      rcases List.mem_append.mp member with old | new
      · exact heads summary old
      · rw [List.mem_singleton.mp new]
        exact ⟨_, _, rfl⟩
    · intro summary member leg isLeg
      rcases List.mem_append.mp member with old | new
      · exact .inr (.inr ⟨summary, old, leg, isLeg, rfl⟩)
      · rw [List.mem_singleton.mp new] at isLeg
        rcases List.mem_cons.mp isLeg with rfl | isLeg
        · exact .inl rfl
        · rw [List.mem_singleton.mp isLeg]
          exact .inr (.inl rfl)
    · intro id other _
      rw [printedQty_append, printedQty_singleton]
      simp only [List.map_cons, List.map_nil, List.sum_cons, List.sum_nil, Trade.qtyOf, Int.add_zero]
  · have same : ctx.lastFillPrice = price := not_ne_iff.mp fresh
    dsimp only
    unfold MatchContext.Open at isOpen
    cases last : ctx.summaries.getLast? with
    | none =>
        -- Nothing was filled yet, so the price is the one no order has.
        have empty : ctx.summaries = [] := List.getLast?_eq_none_iff.mp last
        rw [last] at isOpen
        refine ⟨⟨by simp [MatchContext.Open, empty, isOpen], by simp [empty]⟩, by simp [empty], ?_⟩
        intro id other real
        have different : price ≠ other := by
          rw [← same, isOpen]
          exact real.symm
        simp [empty, different]
    | some summary =>
        rw [last] at isOpen
        have split := List.dropLast_append_getLast? summary last
        have within := List.mem_of_getLast? last
        obtain ⟨headQty, legs, trades⟩ := heads summary within
        have added := TradeSummaryInfo.addLeg_trades trades bookOrderId tradeQty phantomQty
        refine ⟨⟨by simpa [MatchContext.Open, TradeSummaryInfo.addLeg] using isOpen, ?_⟩, ?_, ?_⟩
        · intro other member
          rcases List.mem_append.mp member with old | new
          · exact heads other (List.dropLast_subset _ old)
          · rw [List.mem_singleton.mp new]
            exact ⟨_, _, added⟩
        · intro other member leg isLeg
          rcases List.mem_append.mp member with old | new
          · exact .inr (.inr ⟨other, List.dropLast_subset _ old, leg, isLeg, rfl⟩)
          · rw [List.mem_singleton.mp new, added] at isLeg
            rcases List.mem_cons.mp isLeg with rfl | isLeg
            · exact .inl rfl
            · rcases List.mem_append.mp isLeg with isOld | isNew
              · exact .inr (.inr ⟨summary, within, leg, trades ▸ List.mem_cons_of_mem _ isOld, rfl⟩)
              · rw [List.mem_singleton.mp isNew]
                exact .inr (.inl rfl)
        · intro id other _
          have before : printedQty ctx.summaries id other =
              printedQty ctx.summaries.dropLast id other + printedQty [summary] id other := by
            rw [← printedQty_append, split]
          have isPrice : summary.price = price := isOpen.trans same
          rw [Option.map_some, Option.toList_some, printedQty_append, before,
            TradeSummaryInfo.addLeg_printed trades, isPrice, Int.add_assoc]

/-! ## Match calls -/

variable [OrderBookL3 β]

/-- On the way of a match: what is printed of the orders on which there was a report when it began
is what is reported of them. -/
structure TellsAlike (begun : MatchState β) (side : BookSide) (aggressorId : Nat) (ctx : MatchContext)
    (state : MatchState β) : Prop where
  headed : ctx.Headed aggressorId
  named : ∀ summary ∈ ctx.summaries, ∀ leg ∈ summary.trades, leg.orderId < begun.book.globals.nextOrderId
  alike : ∀ id, begun.ledger.Owned id → ∀ price, price ≠ nullPrice →
    reportedQty state.trades id price = reportedQty begun.trades id price + printedQty ctx.summaries id price
  rests : ∀ order ∈ restingOrders state.book.l3 side, order.orderId < begun.book.globals.nextOrderId ∧
    (begun.ledger.Owned order.orderId → (state.book.findOrder order.orderId).isSome = true)

section Steps

variable {begun state' : MatchState β} {env : Environment} {hand : Hand} {seqNum ref requestTime : Nat}
  {ctx' : MatchContext} {resting : BookOrder} {qty : Int} {aggressor : Option Nat}

theorem TellsAlike.start (inv : begun.ledger.Represents hand) (eventTime seqNum : Nat) (side : BookSide)
    (aggressorId : Nat) : TellsAlike begun side aggressorId (.start eventTime seqNum) begun where
  headed := ⟨rfl, by rintro _ ⟨⟩⟩
  named := by rintro _ ⟨⟩
  alike := fun _ _ _ _ => (Int.add_zero _).symm
  rests := by
    intro order member
    have rests := entry_of_mem member
    refine ⟨inv.indexed.entry_bound rests, fun owned => ?_⟩
    obtain ⟨owner, ours⟩ := inv.indexed.entry_owned rests owned
    exact Option.isSome_iff_exists.mpr ⟨owner, ours⟩

/-- What still rests after liquidity was taken rested before, for the same owner. -/
private theorem TellsAlike.rests_taken (alike : TellsAlike begun side aggressorId ctx state)
    (ready : state.Sweepable hand side seqNum) (takes : Takes env hand side seqNum resting qty state state') :
    ∀ order ∈ restingOrders state'.book.l3 side, order.orderId < begun.book.globals.nextOrderId ∧
      (begun.ledger.Owned order.orderId → (state'.book.findOrder order.orderId).isSome = true) := by
  intro order member
  have rests := entry_of_mem member
  have frame := takes.sweeps.takenFrom ready.inv
  obtain ⟨old, found, smaller⟩ := frame.shrinks rests
  have oldMember := mem_of_entry found
  rw [← smaller.side, OrderBookL3.side_of_mem member] at oldMember
  have before := alike.rests old oldMember
  have sameOwner : state'.book.findOrder order.orderId = state.book.findOrder order.orderId :=
    frame.owner (by rw [rests]; rintro ⟨⟩)
  rw [sameOwner, smaller.orderId]
  exact before

theorem TellsAlike.fill (alike : TellsAlike begun side aggressorId ctx state)
    (ready : state.Sweepable hand side seqNum) (member : resting ∈ restingOrders state.book.l3 side)
    (takes : Takes env hand side seqNum resting qty state state')
    (one : FillsOne aggressor side resting qty state state') {reported : MatchState β}
    (isCtx : ctx' = (reported.recordTrade ctx side aggressorId resting.orderId resting.price qty phantomQty).1)
    (numbered : aggressorId < begun.book.globals.nextOrderId)
    (who : aggressor = some aggressorId ∨ aggressor = none ∧ ¬ begun.ledger.Owned aggressorId) :
    TellsAlike begun side aggressorId ctx' state' := by
  obtain ⟨bound, ours⟩ := alike.rests resting member
  obtain ⟨headed, named, printed⟩ := @recordTrade_printed β reported ctx side aggressorId resting.orderId
    resting.price qty phantomQty alike.headed
  rw [← isCtx] at headed named printed
  refine ⟨headed, ?_, ?_, alike.rests_taken ready takes⟩
  · intro summary inside leg isLeg
    rcases named summary inside leg isLeg with same | same | ⟨earlier, before, old, isOld, same⟩
    · exact same ▸ numbered
    · exact same ▸ bound
    · exact same ▸ alike.named earlier before old isOld
  · intro id owned price real
    have told : reportedQty (fillTrades aggressor (fun id => (state.book.findOrder id).isSome) (resting, qty)) id
        price =
        if resting.price = price then
          (if aggressorId = id then qty else 0) + (if resting.orderId = id then qty else 0)
        else 0 := by
      unfold fillTrades
      rw [reportedQty_append]
      have own : reportedQty (aggressor.map fun orderNum => (⟨orderNum, true, resting.price, qty⟩ : TradeTold)).toList
          id price = if resting.price = price then (if aggressorId = id then qty else 0) else 0 := by
        rcases who with rfl | ⟨rfl, foreign⟩
        · rw [Option.map_some, Option.toList_some, reportedQty_singleton]
          split_ifs <;> simp_all
        · have different : aggressorId ≠ id := fun same => foreign (same ▸ owned)
          rw [if_neg different, ite_self]
          rfl
      have theirs : reportedQty (if (state.book.findOrder resting.orderId).isSome then
          [(⟨resting.orderId, false, resting.price, qty⟩ : TradeTold)] else []) id price =
            if resting.price = price then (if resting.orderId = id then qty else 0) else 0 := by
        by_cases same : resting.orderId = id
        · rw [if_pos (ours (same ▸ owned)), reportedQty_singleton]
          simp [same]
        · rw [if_neg same, ite_self]
          split
          · rw [reportedQty_singleton, if_neg fun both => same both.1]
          · rfl
      rw [own, theirs]
      split <;> rfl
    rw [one.trades, reportedQty_append, told, printed id price real, alike.alike id owned price real, Int.add_assoc]

/-- A cancellation that prevents a self match tells of no trade. -/
theorem TellsAlike.withdraw (alike : TellsAlike begun side aggressorId ctx state)
    (ready : state.Sweepable hand side seqNum) (takes : Takes env hand side seqNum resting qty state state')
    (same : state'.trades = state.trades) : TellsAlike begun side aggressorId ctx state' where
  headed := alike.headed
  named := alike.named
  alike := by
    rw [same]
    exact alike.alike
  rests := alike.rests_taken ready takes

theorem performFeed_alike (env : Environment) (numbered : aggressorId < begun.book.globals.nextOrderId)
    (foreign : ¬ begun.ledger.Owned aggressorId) (acts : List (Act BookOrder)) :
    ∀ (ctx : MatchContext) (qty : Int) (state : MatchState β), ctx.seqNum = seqNum →
      state.Sweepable hand side seqNum → Performable side (fun _ => false) acts state →
      TellsAlike begun side aggressorId ctx state →
      let result := state.performFeed env side aggressorId acts ctx qty
      TellsAlike begun side aggressorId result.ctx result.state := by
  induction acts with
  | nil => exact fun _ _ _ _ _ _ alike => alike
  | cons act acts ih =>
      intro ctx qty state sameSeq ready performable alike
      cases act with
      | fill order tradeQty =>
          have member : order ∈ restingOrders state.book.l3 side := performable.rests _ List.mem_cons_self
          have rests := entry_of_mem member
          have swept := OrderBookL3.side_of_mem member
          obtain ⟨-, taking, fits⟩ := performable.fills order tradeQty List.mem_cons_self
          have current : ¬ Regresses state.book.l3 ctx.seqNum := sameSeq ▸ ready.current
          obtain ⟨ctx', between, filled, seqIs, takes⟩ := fillRestingFromFeed_takes env ready.inv current
            rests swept (fun _ ours => ready.apart rests swept ours) taking fits order.price aggressorId qty
          rw [sameSeq] at takes
          obtain ⟨one, reported, isCtx⟩ := fillRestingFromFeed_fillsOne member current (ready.frontAgrees member)
            taking fits filled
          rw [performFeed_fill filled]
          exact ih ctx' _ between (seqIs.trans sameSeq) (ready.sweeps takes.sweeps takes.current)
            (performable.takes takes) (alike.fill ready member takes one isCtx numbered (.inr ⟨rfl, foreign⟩))
      | withdraw order => cases performable.withdraws order List.mem_cons_self

theorem matchKeeps_alike (env : Environment) (hand : Hand) (side : BookSide) (ref requestTime : Nat)
    (numbered : aggressorId < begun.book.globals.nextOrderId) :
    MatchKeeps env hand side 0 ref requestTime fun ctx _ state =>
      ctx.seqNum = 0 ∧ (state.order ref).id = aggressorId ∧ TellsAlike begun side aggressorId ctx state where
  fill := by
    rintro ctx ctx' state state' resting qty left ready member positive within - filled takes ⟨sameSeq, sameId, alike⟩
    have current : ¬ Regresses state.book.l3 ctx.seqNum := sameSeq ▸ ready.current
    obtain ⟨one, reported, isCtx⟩ := fillResting_fillsOne member current (ready.frontAgrees member) positive within
      filled
    have terms := (takes.sweeps.takenFrom ready.inv).terms ref
    have sameNext : (state'.order ref).id = aggressorId := terms.id.trans sameId
    rw [sameNext] at isCtx
    rw [sameId] at one
    refine ⟨?_, sameNext, alike.fill ready member takes one isCtx numbered (.inl rfl)⟩
    rw [isCtx]
    unfold recordTrade
    split <;> exact sameSeq
  cancel := by
    rintro ctx state state' resting bookRef left ready - - handled takes ⟨sameSeq, sameId, alike⟩
    have terms := (takes.sweeps.takenFrom ready.inv).terms ref
    refine ⟨sameSeq, terms.id.trans sameId, alike.withdraw ready takes ?_⟩
    let gone := state.onBook fun book => book.deleteOrder bookRef ctx.eventTime 0 false
    obtain rfl : ((gone.publishOrderCancel env bookRef requestTime).onBook fun book => book.freeOrder bookRef) =
      state' := congrArg Prod.snd handled
    exact (publish_trades gone env fun slot => slot.writeCancel (gone.order bookRef) requestTime).trans
      (List.append_nil _)

end Steps

/-- What a match call prints and what it reports tell the same of every order on which there was a
report. -/
structure PrintsReported (before : MatchState β) (summaries : List TradeSummaryInfo) (after : MatchState β) : Prop where
  named : ∀ summary ∈ summaries, ∀ leg ∈ summary.trades, leg.orderId < before.book.globals.nextOrderId
  alike : ∀ id, before.ledger.Owned id → ∀ price, price ≠ nullPrice →
    reportedQty after.trades id price = reportedQty before.trades id price + printedQty summaries id price

theorem PrintsReported.nothing {before after : MatchState β} (same : after.trades = before.trades) :
    PrintsReported before [] after where
  named := by rintro _ ⟨⟩
  alike := by
    intro id _ price _
    rw [same]
    exact (Int.add_zero _).symm

/-- What is reported around the match but trades does not matter. -/
theorem PrintsReported.congr {before after first last : MatchState β} {summaries : List TradeSummaryInfo}
    (prints : PrintsReported before summaries after)
    (ids : before.book.globals.nextOrderId = first.book.globals.nextOrderId)
    (owned : ∀ id, first.ledger.Owned id → before.ledger.Owned id) (trades : before.trades = first.trades)
    (tradesAfter : last.trades = after.trades) : PrintsReported first summaries last where
  named := by
    rw [← ids]
    exact prints.named
  alike := by
    intro id isOwned price real
    rw [tradesAfter, ← trades]
    exact prints.alike id (owned id isOwned) price real

end MatchState

namespace MatchingEngine

variable {β : Type} [OrderBookL3 β] {state : MatchState β} {ref : Nat} {limit qty leaves : Int}
  {smpMode : SelfMatchPreventionMode}

theorem matchFeed_prints (engine : MatchingEngine) (env : Environment) (inv : state.ledger.Represents .none)
    (side : Side) {orderId : Nat} (price qty : Int) (eventTime : Nat) {seqNum : Nat}
    (current : ¬ Regresses state.book.l3 seqNum) (numbered : orderId < state.book.globals.nextOrderId)
    (foreign : ¬ state.ledger.Owned orderId) :
    let matched := engine.matchFeed env side orderId price qty eventTime seqNum state
    state.PrintsReported matched.2.1 matched.2.2 := by
  have ready : state.Sweepable .none (sweptSide side) seqNum := ⟨inv, current, fun _ _ _ => by rintro ⟨⟩⟩
  rw [matchFeed_planned engine env inv]
  have alike := MatchState.performFeed_alike env numbered foreign
    (engine.plan (sweptSide side) price (fun _ => false) (restingOrders state.book.l3 (sweptSide side)) qty)
    (.start eventTime seqNum) qty state rfl ready (plan_performable engine (fun _ => false) price qty ready)
    (.start inv eventTime seqNum (sweptSide side) orderId)
  exact ⟨alike.named, alike.alike⟩

variable (engine : MatchingEngine) (env : Environment) (requestTime eventTime : Nat)

private theorem LoopStart.prints {hand : Hand} {prepared : MatchState β}
    (start : LoopStart engine env hand ref limit qty requestTime smpMode state prepared)
    (owned : prepared.ledger.Owned (prepared.order ref).id) :
    let matched := engine.matchOrder env ref limit qty requestTime eventTime 0 smpMode state
    prepared.PrintsReported matched.2.1 matched.2.2 := by
  have numbered := start.ready.inv.indexed.owned_bound owned
  obtain ⟨matched, -, -, -, -, alike⟩ := start.matchOrder_eq
    (MatchState.matchKeeps_alike env hand (sweptSide (state.order ref).side) ref requestTime numbered) eventTime
    ⟨rfl, rfl, .start start.ready.inv eventTime 0 _ _⟩
  rw [matched]
  refine ⟨alike.named, ?_⟩
  rw [MatchState.cancelUnrestableRemainder_trades]
  exact alike.alike

/-- An order that is turned away, cannot be filled or has nothing to match trades nothing. -/
private theorem matchOrder_untraded (incoming : Incoming state ref limit qty leaves)
    (idle : engine.Refuses state.book smpMode (state.order ref) limit leaves ∨
      CannotFill state.book smpMode (state.order ref) limit qty ∨ leaves ≤ 0) :
    let matched := engine.matchOrder env ref limit qty requestTime eventTime 0 smpMode state
    matched.2.1 = [] ∧ matched.2.2.trades = state.trades := by
  have presented : (state.present env ref limit qty requestTime).trades = state.trades := by
    unfold MatchState.present
    split
    · exact (state.publish_trades env _).trans (List.append_nil _)
    · exact (MatchState.publish_trades _ env _).trans (List.append_nil _)
  have closed : ((state.present env ref limit qty requestTime).publishOrderCancel env ref requestTime).trades =
      state.trades :=
    ((MatchState.publish_trades _ env _).trans (List.append_nil _)).trans presented
  intro matched
  have isMatched : matched = _ := engine.matchOrder_planned env requestTime eventTime smpMode incoming
  rw [isMatched]
  unfold planned
  dsimp only
  split
  · exact ⟨rfl, rfl⟩
  rename_i goesOn
  split
  · exact ⟨rfl, closed⟩
  rename_i fillable
  split
  · exact ⟨rfl, closed⟩
  have done : leaves ≤ 0 := (idle.resolve_left fun refused =>
    goesOn ((refuses_iff engine smpMode incoming).mp refused)).resolve_left fillable
  rw [show engine.orderPlan state ref limit leaves smpMode = [] from sweep_of_nonpos done]
  exact ⟨rfl, (MatchState.cancelUnrestableRemainder_trades ..).trans presented⟩

theorem matchOrder_prints (incoming : Incoming state ref limit qty leaves) :
    let matched := engine.matchOrder env ref limit qty requestTime eventTime 0 smpMode state
    state.PrintsReported matched.2.1 matched.2.2 := by
  intro matched
  by_cases idle : engine.Refuses state.book smpMode (state.order ref) limit leaves ∨
      CannotFill state.book smpMode (state.order ref) limit qty ∨ leaves ≤ 0
  · obtain ⟨none, same⟩ := matchOrder_untraded engine env requestTime eventTime incoming idle
    have none : matched.2.1 = [] := none
    rw [none]
    exact .nothing same
  rw [not_or, not_or] at idle
  obtain ⟨goesOn, fillable, more⟩ := idle
  cases incoming with
  | new inv isNew =>
      have start := loopStart_new engine env requestTime smpMode inv isNew goesOn fillable (by omega)
      have owned : state.ledger.Owned (state.order ref).id :=
        inv.indexed.fresh_owned (show (Hand.pending ref).fresh = some ref from rfl)
      exact (LoopStart.prints engine env requestTime eventTime start (owned.grown rfl)).congr rfl
        (fun _ isOwned => isOwned.grown rfl) ((state.publish_trades env _).trans (List.append_nil _)) rfl
  | amended inv isAmend =>
      have start := loopStart_amend engine env requestTime smpMode inv isAmend goesOn (by omega)
      have owned : state.ledger.Owned (state.order ref).id :=
        inv.indexed.registered_owned (inv.indexed.resting_registered rfl)
      have sameId : ((state.replaceOrder env ref limit qty requestTime).order ref).id = (state.order ref).id := by
        rw [MatchState.replaceOrder_order]
        rfl
      exact (LoopStart.prints engine env requestTime eventTime start (sameId ▸ owned.grown rfl)).congr rfl
        (fun _ isOwned => isOwned.grown rfl) ((MatchState.publish_trades _ env _).trans (List.append_nil _)) rfl

end MatchingEngine

namespace MatchState

variable {β : Type} [OrderBookL3 β] {state : MatchState β} {config : SymbolConfig} {ref requestTime : Nat}

/-- What follows the match of a new order reports no trade. -/
theorem addOrder_prints (env : Environment) (config : SymbolConfig) (requestTime : Nat)
    (inv : state.ledger.Represents (.pending ref)) (isNew : (state.order ref).status = .pendingNew) :
    let added := state.addOrder env config ref requestTime
    state.PrintsReported added.2.1 added.2.2 := by
  have prints := @MatchingEngine.matchOrder_prints β _ state ref _ _ _ config.smpMode config.matchingEngine env
    requestTime (state.order ref).createdTime (.new inv isNew)
  unfold addOrder
  dsimp only at prints ⊢
  split <;> exact prints.congr rfl (fun _ owned => owned) rfl rfl

theorem modifyOrder_prints (env : Environment) (config : SymbolConfig) (requestTime : Nat)
    (inv : state.ledger.Represents (.amending ref)) (isAmend : (state.order ref).status = .pendingReplace)
    (newPrice newQty : Int) :
    let modified := state.modifyOrder env config ref newPrice newQty requestTime
    state.PrintsReported modified.2.1 modified.2.2 := by
  have prints := @MatchingEngine.matchOrder_prints β _ state ref _ _ _ config.smpMode config.matchingEngine env
    requestTime (state.order ref).lastUpdateTime (.amended inv isAmend newPrice newQty)
  generalize matched : config.matchingEngine.matchOrder env ref newPrice newQty requestTime
    (state.order ref).lastUpdateTime 0 config.smpMode state = result at prints
  obtain ⟨reason, summaries, between⟩ := result
  dsimp only at prints
  by_cases accepted : reason = .none
  · subst accepted
    rw [modifyOrder_accepted matched]
    refine prints.congr rfl (fun _ owned => owned) rfl ?_
    exact congrArg (List.filterMap OrderResponse.trade) (between.settleAmend_responses ..)
  · unfold modifyOrder
    dsimp only
    rw [matched]
    dsimp only
    rw [if_neg accepted]
    split <;> exact prints.congr rfl (fun _ owned => owned) rfl rfl

end MatchState

end SlickSim
