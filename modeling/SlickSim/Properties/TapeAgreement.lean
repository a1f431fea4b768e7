import SlickSim.Exchange.RequestReports
import SlickSim.Exchange.Trail
import SlickSim.Ledger.Naming
import SlickSim.Ledger.Tape
import SlickSim.OrderBook.Reference

/-!
# The tape and the reports agree

Trade summaries go to everyone and TRADE reports to the client of an order. In every reachable
state the summaries published so far say of each order of a client that it traded, at each price,
what its reports say.
-/

set_option autoImplicit false

namespace SlickSim

open OrderBookL3 (Regresses)

/-! ## What a run keeps -/

/-- No order is taken in. -/
def Permit.closed : Permit :=
  { Permit.all with accept := fun _ _ => False }

section Runs

variable {env : Environment} {permit : Permit} {before after : Hand × Ledger}

private theorem Micro.nextOrderId_le (step : Micro env permit before after) (inv : before.2.Represents before.1) :
    before.2.globals.nextOrderId ≤ after.2.globals.nextOrderId := by
  have same : ∀ (ledger : Ledger) (id : Nat) (next : Option BookOrder) (timestamp : Nat),
      ledger.globals.nextOrderId ≤ (ledger.setEntry id next timestamp).globals.nextOrderId := by
    intro ledger id next timestamp
    unfold Ledger.setEntry
    rw [(foldl_onOrderUpdate_frame _ _).2]
    exact le_rfl
  cases step with
  | sweep swept => exact (swept.takenFrom inv).later.nextOrderId
  | accept unused numbered later => exact later.nextOrderId
  | rest later drawn left restable clear isRanked => exact isRanked ▸ later.nextOrderId
  | amendRests held later left clear isRanked => exact isRanked ▸ later.nextOrderId
  | amendGone held later filled mine isRanked => exact isRanked ▸ later.nextOrderId
  | startAmend registered permitted isMarked => exact isMarked ▸ le_rfl
  | replace permitted isReplaced => exact isReplaced ▸ le_rfl
  | startCancel registered permitted isMarked => exact isMarked ▸ le_rfl
  | addPhantom | resizePhantom | movePhantom | dropPhantom => exact same ..
  | _ => exact le_rfl

/-- Reports are never taken back, and order ids are drawn in order. -/
theorem Micros.grows (run : Micros env permit before after) (inv : before.2.Represents before.1) :
    (∀ id, before.2.Owned id → after.2.Owned id) ∧
      before.2.globals.nextOrderId ≤ after.2.globals.nextOrderId := by
  induction run with
  | refl => exact ⟨fun _ owned => owned, le_rfl⟩
  | tail earlier step ih =>
      have between := Micros.represents earlier inv
      obtain ⟨told, isTold, -⟩ := step.adds between
      exact ⟨fun id owned => (ih.1 id owned).grown isTold, ih.2.trans (step.nextOrderId_le between)⟩

/-- A run that takes no order in reports on no order that had no report. -/
theorem Micros.reported (run : Micros env .closed before after) (inv : before.2.Represents before.1) {id : Nat}
    (owned : after.2.Owned id) : before.2.Owned id := by
  induction run generalizing id with
  | refl => exact owned
  | tail earlier step ih =>
      have between := Micros.represents earlier inv
      obtain ⟨told, isTold, adds⟩ := step.adds between
      obtain ⟨nonzero, response, member, same⟩ := owned
      rw [isTold] at member
      rcases List.mem_append.mp member with old | new
      · exact ih ⟨nonzero, response, old, same⟩
      · cases adds with
        | nothing => cases new
        | reject unnumbered =>
            rw [List.mem_singleton.mp new, unnumbered] at same
            exact absurd same.symm nonzero
        | first permitted => exact permitted.elim
        | later alive number =>
            rw [List.mem_singleton.mp new, number] at same
            refine ih (same ▸ ?_)
            rcases alive with held | ⟨-, registered, -⟩
            · rcases Hand.held_cases held with fresh | resting
              · exact between.indexed.fresh_owned fresh
              · exact between.indexed.registered_owned (between.indexed.resting_registered resting)
            · exact between.indexed.registered_owned registered

end Runs

/-! ## The tape -/

def MDFrame.summary : MDFrame → Option TradeSummaryInfo
  | .tradeSummary _ summary => some summary
  | _ => none

namespace OrderBook

variable {β : Type} (book : OrderBook β) (orderId : Nat) (side : BookSide) (price qty : Int)
  (timestamp priority seqNum : Nat) (isLast : Bool)

private theorem absorb_nextOrderId (result : L3Result β) :
    (book.absorb result).globals.nextOrderId = book.globals.nextOrderId := by
  have kept : ∀ (updates : List OrderUpdate) (start : OrderBook β),
      (updates.foldl onOrderUpdate start).globals = start.globals := by
    intro updates
    induction updates with
    | nil => exact fun _ => rfl
    | cons update rest ih =>
        intro start
        refine (ih _).trans ?_
        unfold onOrderUpdate
        split
        · rfl
        · split <;> rfl
  exact congrArg Globals.nextOrderId (kept _ _)

variable [OrderBookL3 β]

theorem addL3Order_nextOrderId :
    (book.addL3Order orderId side price qty timestamp priority seqNum isLast).globals.nextOrderId =
      book.globals.nextOrderId :=
  absorb_nextOrderId ..

theorem addBookOrder_nextOrderId :
    (book.addBookOrder orderId side price qty timestamp seqNum isLast).globals.nextOrderId =
      book.globals.nextOrderId :=
  addL3Order_nextOrderId ..

end OrderBook

namespace Exchange

variable {β : Type} {exchange first second third : Exchange β} {env : Environment} {config : SymbolConfig}
  {owed : List TradeSummaryInfo} {seqNum : Nat}

def tape (exchange : Exchange β) : List TradeSummaryInfo :=
  exchange.mdQueue.filterMap MDFrame.summary

section Tape

variable (exchange)

@[simp] theorem publishTradeSummaries_tape (summaries : List TradeSummaryInfo) :
    (exchange.publishTradeSummaries summaries).tape = exchange.tape ++ summaries := by
  induction summaries generalizing exchange with
  | nil => exact (List.append_nil _).symm
  | cons summary rest ih =>
      have one : (exchange.publishTradeSummary summary).tape = exchange.tape ++ [summary] := List.filterMap_append ..
      have later := ih (exchange.publishTradeSummary summary)
      rw [one, List.append_assoc] at later
      exact later

@[simp] theorem creditTradedQty_tape (side : Side) (price qty : Int) (eventTime : Nat) :
    (exchange.creditTradedQty side price qty eventTime).tape = exchange.tape := by
  unfold creditTradedQty
  split <;> rfl

@[simp] theorem creditSummaries_tape (side : Side) (eventTime : Nat) (summaries : List TradeSummaryInfo) :
    (summaries.foldl (fun exchange summary => (exchange.creditTradedQty side summary.price
      summary.phantomQty eventTime).publishTradeSummary summary) exchange).tape = exchange.tape ++ summaries := by
  induction summaries generalizing exchange with
  | nil => exact (List.append_nil _).symm
  | cons summary rest ih =>
      have one : ((exchange.creditTradedQty side summary.price summary.phantomQty
          eventTime).publishTradeSummary summary).tape = exchange.tape ++ [summary] := by
        rw [← creditTradedQty_tape exchange side summary.price summary.phantomQty eventTime]
        exact List.filterMap_append ..
      rw [List.foldl_cons, ih, one, List.append_assoc]
      rfl

@[simp] theorem flushMarketDataCaches_tape : exchange.flushMarketDataCaches.tape = exchange.tape := by
  unfold tape
  rw [flushMarketDataCaches_mdQueue]
  split <;> split <;> simp [MDFrame.summary]

@[simp] theorem takeTradedQty_tape (side : Side) (price : Int) (asOf : Nat) :
    (exchange.takeTradedQty side price asOf).2.tape = exchange.tape := by
  unfold takeTradedQty
  split
  · rfl
  · dsimp only
    split <;> rfl

@[simp] theorem clientIdFor_tape (userId : Name) : (exchange.clientIdFor userId).2.tape = exchange.tape := by
  unfold clientIdFor
  split
  · rfl
  · split <;> rfl

variable [OrderBookL3 β]

@[simp] theorem populateL2Snapshot_tape : exchange.populateL2Snapshot.tape = exchange.tape := by
  refine (List.filterMap_append ..).trans (List.append_nil _)

@[simp] theorem populateL2SubscriptionResponse_tape :
    exchange.populateL2SubscriptionResponse.tape = exchange.tape :=
  (List.filterMap_append ..).trans (List.append_nil _)

@[simp] theorem finalizeL2Event_tape : exchange.finalizeL2Event.tape = exchange.tape := by
  unfold finalizeL2Event tape
  dsimp only
  split <;> split <;> split <;>
    simp [populateL2SubscriptionResponse, populateL2Snapshot, MDFrame.summary]

@[simp] theorem bufferLevelRow_tape (event : CoinbaseEvent) (hadLevel : Bool) (index : Nat)
    (action : MDUpdateAction) : (exchange.bufferLevelRow event hadLevel index action).tape = exchange.tape := by
  have published : ∀ rows, (exchange.publishLevelUpdate rows).tape = exchange.tape :=
    fun _ => (List.filterMap_append ..).trans (List.append_nil _)
  have settled : ∀ (between : Exchange β) (coinbase : CoinbaseState),
      { between with coinbase }.tape = between.tape := fun _ _ => rfl
  unfold bufferLevelRow
  dsimp only
  rw [settled]
  split
  · rfl
  · split <;> split
    · exact published _
    · rfl
    · exact published _
    · rfl

end Tape

/-! ## One operation -/

variable [OrderBookL3 β]

/-- An operation of the exchange: the summaries it publishes and those that are owed for it tell of
certain orders what it reports of them. -/
structure PrintsOf (env : Environment) (known : Nat → Prop) (before : Exchange β) (owed : List TradeSummaryInfo)
    (after : Exchange β) : Prop where
  micros : Micros env .all (.none, before.ledger) (.none, after.ledger)
  told : ∃ summaries, after.tape ++ owed = before.tape ++ summaries ∧
    (∀ summary ∈ summaries, ∀ leg ∈ summary.trades, leg.orderId < after.book.globals.nextOrderId) ∧
    ∀ id, known id → ∀ price, price ≠ nullPrice →
      reportedQty after.matching.trades id price =
        reportedQty before.matching.trades id price + printedQty summaries id price

theorem PrintsOf.of_match {known : Nat → Prop} {before after : Exchange β} {between matched : MatchState β}
    {summaries : List TradeSummaryInfo}
    (micros : Micros env .all (.none, before.ledger) (.none, after.ledger))
    (prints : between.PrintsReported summaries matched) (owned : ∀ id, known id → between.ledger.Owned id)
    (trades : between.trades = before.matching.trades) (tradesAfter : after.matching.trades = matched.trades)
    (later : between.book.globals.nextOrderId ≤ after.book.globals.nextOrderId)
    (paid : after.tape ++ owed = before.tape ++ summaries) : PrintsOf env known before owed after where
  micros := micros
  told := by
    refine ⟨summaries, paid, fun summary inside leg isLeg => (prints.named summary inside leg isLeg).trans_le later, ?_⟩
    intro id isKnown price real
    rw [tradesAfter, ← trades]
    exact prints.alike id (owned id isKnown) price real

/-- An operation that tells alike of every order there was a report on. -/
abbrev Prints (env : Environment) (before : Exchange β) (owed : List TradeSummaryInfo) (after : Exchange β) : Prop :=
  PrintsOf env before.ledger.Owned before owed after

theorem Prints.silent {before after : Exchange β} (inv : before.ledger.Represents .none)
    (micros : Micros env .all (.none, before.ledger) (.none, after.ledger))
    (trades : after.matching.trades = before.matching.trades) (tape : after.tape = before.tape) :
    before.Prints env [] after := by
  have prints : before.matching.PrintsReported [] before.matching := .nothing rfl
  exact .of_match micros prints (fun _ owned => owned) rfl trades (micros.grows inv).2 (by rw [tape])

theorem Prints.refl (exchange : Exchange β) : exchange.Prints env [] exchange where
  micros := .refl
  told := ⟨[], rfl, by rintro _ ⟨⟩, fun _ _ _ _ => (Int.add_zero _).symm⟩

theorem Prints.trans (inv : first.ledger.Represents .none) (left : first.Prints env [] second)
    (right : second.Prints env owed third) : first.Prints env owed third := by
  obtain ⟨earlier, earlierTape, earlierNamed, earlierTold⟩ := left.told
  obtain ⟨later, laterTape, laterNamed, laterTold⟩ := right.told
  have between := left.micros.represents inv
  rw [List.append_nil] at earlierTape
  refine ⟨left.micros.trans right.micros, earlier ++ later, ?_, ?_, ?_⟩
  · rw [laterTape, earlierTape, List.append_assoc]
  · intro summary inside leg isLeg
    rcases List.mem_append.mp inside with old | new
    · exact (earlierNamed summary old leg isLeg).trans_le (right.micros.grows between).2
    · exact laterNamed summary new leg isLeg
  · intro id owned price real
    rw [laterTold id ((left.micros.grows inv).1 id owned) price real, earlierTold id owned price real,
      printedQty_append, Int.add_assoc]

/-- Summaries that were owed are published; nothing else happens that a ledger sees. -/
theorem Prints.settle {left : List TradeSummaryInfo} (prints : first.Prints env owed second)
    (same : third.ledger = second.ledger) (paid : third.tape ++ left = second.tape ++ owed) :
    first.Prints env left third := by
  obtain ⟨summaries, tape, named, told⟩ := prints.told
  have trades : third.matching.trades = second.matching.trades :=
    congrArg (fun ledger => ledger.responses.filterMap OrderResponse.trade) same
  have ids : third.book.globals.nextOrderId = second.book.globals.nextOrderId :=
    congrArg (fun ledger => ledger.globals.nextOrderId) same
  refine ⟨same ▸ prints.micros, summaries, paid.trans tape, ?_, ?_⟩
  · rw [ids]
    exact named
  · rw [trades]
    exact told

theorem Prints.unseen (prints : first.Prints env owed second) (same : third.ledger = second.ledger)
    (tape : third.tape = second.tape) : first.Prints env owed third :=
  prints.settle same (by rw [tape])

/-! ## Feeds -/

section Feeds

variable (env config)

/-- Venue liquidity sweeps, before and after which no trade is reported. -/
private theorem matchFeed_prints {drawn after : Exchange β} {side : Side} {orderId : Nat} {price qty : Int}
    {eventTime : Nat} (inv : drawn.ledger.Represents .none) (current : ¬ Regresses drawn.book.l3 seqNum)
    (numbered : orderId < drawn.book.globals.nextOrderId) (foreign : ¬ drawn.ledger.Owned orderId)
    (responses : drawn.matching.responses = exchange.matching.responses)
    (micros : Micros env .all (.none, exchange.ledger) (.none, after.ledger)) {left : Int}
    {summaries : List TradeSummaryInfo} {matched : MatchState β}
    (isMatched : config.matchingEngine.matchFeed env side orderId price qty eventTime seqNum drawn.matching =
      (left, summaries, matched))
    (tradesAfter : after.matching.trades = matched.trades)
    (idsAfter : after.book.globals.nextOrderId = matched.book.globals.nextOrderId)
    (paid : after.tape ++ owed = exchange.tape ++ summaries) : exchange.Prints env owed after := by
  have told := @MatchingEngine.matchFeed_prints β _ drawn.matching config.matchingEngine env inv side orderId price
    qty eventTime seqNum current numbered foreign
  obtain ⟨_, _, _, same, -, -, -, grows, -⟩ := @matchFeed_run β _ env .all seqNum drawn config side orderId price qty
    eventTime inv current
  rw [isMatched] at told
  cases isMatched.symm.trans same
  have owned : ∀ id, exchange.ledger.Owned id → drawn.ledger.Owned id := by
    rintro id ⟨nonzero, response, member, number⟩
    exact ⟨nonzero, response, (congrArg (response ∈ ·) responses).mpr member, number⟩
  exact .of_match micros told owned (congrArg (List.filterMap OrderResponse.trade) responses) tradesAfter
    (idsAfter ▸ grows.nextOrderId) paid

private theorem matchFresh_prints {after : Exchange β} {side : Side} {price qty : Int} {eventTime : Nat}
    (inv : exchange.ledger.Represents .none) (current : ¬ Regresses exchange.book.l3 seqNum)
    (micros : Micros env .all (.none, exchange.ledger) (.none, after.ledger)) {left : Int}
    {summaries : List TradeSummaryInfo} {matched : MatchState β}
    (isMatched : config.matchingEngine.matchFeed env side exchange.book.globals.nextOrderId price qty eventTime seqNum
      (exchange.onBook OrderBook.nextOrderId).matching = (left, summaries, matched))
    (tradesAfter : after.matching.trades = matched.trades)
    (idsAfter : after.book.globals.nextOrderId = matched.book.globals.nextOrderId)
    (paid : after.tape ++ owed = exchange.tape ++ summaries) : exchange.Prints env owed after := by
  have ticks := @nextOrderId_run β _ env .all seqNum exchange current
  exact matchFeed_prints env config (ticks.represents inv) ticks.current (Nat.lt_succ_self _)
    (nextOrderId_foreign inv) rfl micros isMatched tradesAfter idsAfter paid

theorem restVenueQty_prints (side : Side) (price : Int) {qty : Int} (eventTime : Nat) (isLast : Bool)
    (inv : exchange.ledger.Represents .none) (current : ¬ Regresses exchange.book.l3 seqNum) (nonneg : 0 ≤ qty) :
    let rested := exchange.restVenueQty env config side price qty eventTime seqNum isLast
    exchange.Prints env rested.2.1 rested.2.2 := by
  have run := (@restVenueQty_run β _ env .all seqNum exchange config side price qty eventTime isLast inv current nonneg
    fun _ _ _ _ _ _ _ => trivial).1.micros
  unfold restVenueQty at run ⊢
  dsimp only at run ⊢
  split at run <;> rename_i some
  · rw [if_pos some]
    exact matchFresh_prints env config inv current run rfl rfl (OrderBook.addBookOrder_nextOrderId ..) rfl
  · rw [if_neg some]
    exact matchFresh_prints env config inv current run rfl rfl rfl rfl

theorem restTimestamped_prints (side : Side) (price qty : Int) (eventTimeNs : Nat)
    (inv : exchange.ledger.Represents .none) :
    let rested := exchange.restTimestamped env config side price qty eventTimeNs
    exchange.Prints env rested.1 rested.2 := by
  have run := (@restTimestamped_run β _ env .all exchange config side price qty eventTimeNs inv
    fun _ _ _ _ _ _ _ => trivial).micros
  have current : ¬ Regresses exchange.book.l3 0 := fun stale => stale.1.false
  unfold restTimestamped at run ⊢
  dsimp only at run ⊢
  split at run <;> rename_i some
  · rw [if_pos some]
    exact matchFresh_prints env config inv current run rfl rfl (OrderBook.addL3Order_nextOrderId ..) rfl
  · rw [if_neg some]
    exact matchFresh_prints env config inv current run rfl rfl rfl rfl

theorem replayMarketTrade_prints (event : MarketTradeEvent) (inv : exchange.ledger.Represents .none) :
    exchange.Prints env [] (exchange.replayMarketTrade env config event) := by
  have current : ¬ Regresses exchange.book.l3 0 := fun stale => stale.1.false
  let drawn := exchange.onBook OrderBook.nextOrderId
  let result := config.matchingEngine.matchFeed env event.aggressor exchange.book.globals.nextOrderId event.price
    event.qty event.transactTime 0 drawn.matching
  let swept : Exchange β := { drawn with matching := result.2.2 }
  have same : (exchange.replayMarketTrade env config event).ledger = swept.ledger := publishTradeSummaries_ledger _
  have tape : (exchange.replayMarketTrade env config event).tape = swept.tape ++ result.2.1 :=
    publishTradeSummaries_tape swept result.2.1
  have run : Micros env .all (.none, exchange.ledger) (.none, swept.ledger) :=
    same ▸ (replayMarketTrade_run env config event inv).micros
  have prints : exchange.Prints env result.2.1 swept := matchFresh_prints env config inv current run rfl rfl rfl rfl
  exact prints.settle same (by rw [tape, List.append_nil])

theorem restMarketOrder_prints (event : MarketOrderEvent) (inv : exchange.ledger.Represents .none)
    (foreign : ¬ exchange.ledger.Owned event.bookOrderId)
    (numbered : event.bookOrderId < exchange.ledger.globals.nextOrderId) :
    exchange.Prints env [] (exchange.restMarketOrder env config event) := by
  have current : ¬ Regresses exchange.book.l3 0 := fun stale => stale.1.false
  have run := (@restMarketOrder_run β _ env .all exchange config event inv foreign numbered
    fun _ _ _ _ _ _ _ => trivial).micros
  let result := config.matchingEngine.matchFeed env event.side event.bookOrderId event.price event.qty
    event.transactTime 0 exchange.matching
  let swept : Exchange β := { exchange with matching := result.2.2 }
  have published : (swept.publishTradeSummaries result.2.1).matching = result.2.2 := publishTradeSummaries_matching _
  have trades : (swept.publishTradeSummaries result.2.1).matching.trades = result.2.2.trades :=
    congrArg MatchState.trades published
  have ids : (swept.publishTradeSummaries result.2.1).book.globals.nextOrderId =
      result.2.2.book.globals.nextOrderId := congrArg (fun state => state.book.globals.nextOrderId) published
  have tape : (swept.publishTradeSummaries result.2.1).tape = exchange.tape ++ result.2.1 :=
    publishTradeSummaries_tape ..
  unfold restMarketOrder at run ⊢
  dsimp only at run ⊢
  split at run <;> rename_i some
  · rw [if_pos some]
    exact matchFeed_prints env config inv current numbered foreign rfl run rfl trades
      ((OrderBook.addL3Order_nextOrderId ..).trans ids) ((List.append_nil _).trans tape)
  · rw [if_neg some]
    exact matchFeed_prints env config inv current numbered foreign rfl run rfl trades ids
      ((List.append_nil _).trans tape)

theorem applyMarketOrder_prints (event : MarketOrderEvent) (inv : exchange.ledger.Represents .none)
    (foreign : ¬ exchange.ledger.Owned event.bookOrderId)
    (numbered : event.bookOrderId < exchange.ledger.globals.nextOrderId) :
    exchange.Prints env [] (exchange.applyMarketOrder env config event) := by
  have run := (@applyMarketOrder_run β _ env .all exchange config event inv
    ⟨foreign, numbered, fun _ _ _ _ => trivial, fun _ _ => trivial⟩).micros
  have rests := restMarketOrder_prints env config event inv foreign numbered
  obtain ⟨deletes, sameGlobals, sameOwned⟩ := @deleteL3Order_run β _ env .all exchange event.bookOrderId
    event.transactTime inv foreign
  have deleted : exchange.Prints env [] (exchange.onBook fun book =>
      book.deleteL3Order event.bookOrderId event.transactTime 0 true) := .silent inv deletes.micros rfl rfl
  unfold applyMarketOrder at run ⊢
  cases action : event.action with
  | new => exact rests.unseen rfl rfl
  | delete => exact deleted.unseen rfl rfl
  | change =>
      rw [action] at run
      dsimp only at run ⊢
      cases found : OrderBookL3.findOrder exchange.book.l3 event.bookOrderId with
      | none => exact rests.unseen rfl rfl
      | some resting =>
          rw [found] at run
          dsimp only at run ⊢
          split at run <;> rename_i stays
          · rw [if_pos stays]
            exact .silent inv run rfl rfl
          · rw [if_neg stays]
            refine (deleted.trans inv (restMarketOrder_prints env config event (deletes.represents inv) ?_ ?_)).unseen
              rfl rfl
            · rw [sameOwned]
              exact foreign
            · rw [sameGlobals]
              exact numbered

theorem reconcilePhantomQty_prints (side : Side) (price targetQty : Int) (eventTime : Nat) (endEvent : Bool)
    (inv : exchange.ledger.Represents .none) (current : ¬ Regresses exchange.book.l3 seqNum) :
    exchange.Prints env [] (exchange.reconcilePhantomQty side price targetQty eventTime seqNum endEvent) := by
  have run := (@reconcilePhantomQty_run β _ env .all seqNum exchange side price targetQty eventTime endEvent inv current
    fun _ _ _ _ _ _ _ => trivial).micros
  have taken : (exchange.takeTradedQty side price eventTime).2.matching.trades = exchange.matching.trades :=
    congrArg MatchState.trades (takeTradedQty_matching ..)
  have tape := exchange.takeTradedQty_tape side price eventTime
  unfold reconcilePhantomQty at run ⊢
  split
  · exact .refl exchange
  · rename_i level found
    rw [found] at run
    dsimp only at run ⊢
    generalize exchange.takeTradedQty side price eventTime = took at run taken tape ⊢
    generalize (if 0 < took.1 then _ else targetQty) = target at run ⊢
    split at run <;> rename_i more
    · rw [if_pos more]
      exact .silent inv run taken tape
    · rw [if_neg more]
      split at run <;> rename_i less
      · rw [if_pos less]
        exact .silent inv run taken tape
      · rw [if_neg less]
        exact .silent inv run taken tape

theorem placeVenueLevel_prints (event : CoinbaseEvent) (hadLevel : Bool) (inv : exchange.ledger.Represents .none)
    (current : ¬ Regresses exchange.book.l3 seqNum) :
    exchange.Prints env [] (exchange.placeVenueLevel env config event seqNum hadLevel).2 := by
  unfold placeVenueLevel
  split
  · have rested := restVenueQty_prints env config event.side event.price event.eventTime event.flags.endEvent inv
      current event.qty_nonneg
    dsimp only at rested ⊢
    exact rested.settle (flushMarketDataCaches_ledger.trans (publishTradeSummaries_ledger _)) (by simp)
  · exact reconcilePhantomQty_prints env event.side event.price event.qty event.eventTime event.flags.endEvent inv
      current

theorem dispatchLevelUpdate_prints (event : CoinbaseEvent) (inv : exchange.ledger.Represents .none)
    (current : ¬ Regresses exchange.book.l3 seqNum) :
    exchange.Prints env [] (exchange.dispatchLevelUpdate env config event seqNum) := by
  unfold dispatchLevelUpdate
  split
  · exact .refl exchange
  · let hadLevel := (OrderBookL3.getLevel exchange.book.l3 (toBookSide event.side) event.price).isSome
    have placed := placeVenueLevel_prints env config event hadLevel inv current
    dsimp only
    refine placed.unseen ?_ ?_
    · exact (congrArg MatchState.ledger (bufferLevelRow_matching ..)).trans rfl
    · exact bufferLevelRow_tape ..

theorem dispatchTrade_prints (event : CoinbaseEvent) (inv : exchange.ledger.Represents .none)
    (current : ¬ Regresses exchange.book.l3 seqNum) :
    exchange.Prints env [] (exchange.dispatchTrade env config event seqNum) := by
  have rested := restVenueQty_prints env config event.side event.price event.eventTime event.flags.endEvent inv
    current event.qty_nonneg
  unfold dispatchTrade
  dsimp only at rested ⊢
  refine rested.settle ?_ ?_
  · exact flushMarketDataCaches_ledger.trans (congrArg MatchState.ledger (creditSummaries_matching ..))
  · rw [flushMarketDataCaches_tape, creditSummaries_tape, List.append_nil]
    rfl

theorem dispatchEvent_prints (event : CoinbaseEvent) (inv : exchange.ledger.Represents .none) :
    exchange.Prints env [] (exchange.dispatchEvent env config event) := by
  have current := nextBookSeqNum_current exchange
  have stamped : exchange.Prints env [] exchange.nextBookSeqNum.2 := (Prints.refl exchange).unseen rfl rfl
  refine stamped.trans inv ?_
  unfold dispatchEvent
  dsimp only
  split
  · exact dispatchLevelUpdate_prints env config event inv current
  · exact dispatchTrade_prints env config event inv current

theorem applySnapshotRow_prints (venueSeqNum : Nat) (update : Level2Update) (isLast : Bool)
    (inv : exchange.ledger.Represents .none) (current : ¬ Regresses exchange.book.l3 seqNum) :
    exchange.Prints env [] (exchange.applySnapshotRow env config venueSeqNum seqNum update isLast) := by
  have rested := restVenueQty_prints env config update.side update.price update.eventTime isLast inv current
    update.newQuantity_nonneg
  refine rested.settle (applySnapshotRow_unseen venueSeqNum update isLast).1 ?_
  unfold applySnapshotRow
  dsimp only
  rw [List.append_nil]
  split
  · exact publishTradeSummaries_tape ..
  · exact publishTradeSummaries_tape ..

theorem applySnapshotRows_prints (venueSeqNum : Nat) (updates : List Level2Update)
    (inv : exchange.ledger.Represents .none) (current : ¬ Regresses exchange.book.l3 seqNum) :
    exchange.Prints env [] (exchange.applySnapshotRows env config venueSeqNum seqNum updates) := by
  induction updates generalizing exchange with
  | nil => exact .refl exchange
  | cons update rest ih =>
      have row := applySnapshotRow_prints env config venueSeqNum update rest.isEmpty inv current
      have run := (@restVenueQty_run β _ env .all seqNum exchange config update.side update.price update.newQuantity
        update.eventTime rest.isEmpty inv current update.newQuantity_nonneg fun _ _ _ _ _ _ _ => trivial).1
      have applied := run.unseen (applySnapshotRow_unseen venueSeqNum update rest.isEmpty).1
        (applySnapshotRow_unseen venueSeqNum update rest.isEmpty).2
      exact row.trans inv (ih (applied.represents inv) applied.current)

theorem onLevel2Snapshot_prints (venueSeqNum : Nat) (updates : List Level2Update)
    (inv : exchange.ledger.Represents .none) :
    exchange.Prints env [] (exchange.onLevel2Snapshot env config venueSeqNum updates) := by
  have clears := (@clearMDOrders_run β _ env .all exchange inv).1
  let cleared : Exchange β := (exchange.onBook OrderBook.clearMDOrders).noteMark .rebuilt
  let reset : Exchange β := { cleared with
    coinbase := { cleared.coinbase with levelUpdateBuffer := [], lastPublishedLevelSeqNum := 0 } }
  have start : exchange.Prints env [] reset.nextBookSeqNum.2 := .silent inv clears rfl rfl
  have rows : reset.nextBookSeqNum.2.Prints env [] (reset.nextBookSeqNum.2.applySnapshotRows env config venueSeqNum
      reset.nextBookSeqNum.1 updates.reverse) :=
    applySnapshotRows_prints env config venueSeqNum updates.reverse (clears.represents inv)
      (nextBookSeqNum_current reset)
  refine (start.trans inv rows).unseen ?_ ?_
  · unfold onLevel2Snapshot
    dsimp only
    split <;> rfl
  · unfold onLevel2Snapshot
    dsimp only
    split
    · exact populateL2SubscriptionResponse_tape _
    · exact populateL2Snapshot_tape _

theorem applyL2Side_prints (side : Side) (eventTimeNs : Nat) (rows : List L2Row)
    (inv : exchange.ledger.Represents .none) :
    exchange.Prints env [] (exchange.applyL2Side env config side eventTimeNs rows) := by
  induction rows generalizing exchange with
  | nil => exact .refl exchange
  | cons row rest ih =>
      unfold applyL2Side
      split
      · exact ih inv
      · have rested := restTimestamped_prints env config side row.price row.qty eventTimeNs inv
        generalize exchange.restTimestamped env config side row.price row.qty eventTimeNs = result at rested ⊢
        obtain ⟨summaries, after⟩ := result
        dsimp only at rested ⊢
        have applied : exchange.Prints env [] ((after.publishTradeSummaries summaries).setRefLevels (toBookSide side)
            ((after.publishTradeSummaries summaries).hyperliquid.l2RefLevels (toBookSide side) ++ [row.price])) :=
          rested.settle (publishTradeSummaries_ledger _) ((List.append_nil _).trans (publishTradeSummaries_tape ..))
        exact applied.trans inv (ih (applied.micros.represents inv))

theorem processL2Snapshot_prints (snapshot : L2Snapshot) (inv : exchange.ledger.Represents .none) :
    exchange.Prints env [] (exchange.processL2Snapshot env config snapshot) := by
  let eventTimeNs := snapshot.timeMs * oneMillisecondNs
  let cleared := (((exchange.onBook OrderBook.clearMDOrders).noteMark .rebuilt).setRefLevels .buy
    []).setRefLevels .sell []
  have start : exchange.Prints env [] cleared := .silent inv (clearMDOrders_run inv).1 rfl rfl
  have bids := start.trans inv (applyL2Side_prints env config .buy eventTimeNs snapshot.bids
    (start.micros.represents inv))
  have asks := bids.trans inv (applyL2Side_prints env config .sell eventTimeNs snapshot.asks
    (bids.micros.represents inv))
  refine asks.unseen ?_ (finalizeL2Event_tape _)
  show (finalizeL2Event _).matching.ledger = _
  rw [finalizeL2Event_matching]
  rfl

theorem applyPhantomLevelUpdate_prints (side : Side) (price targetQty : Int) (eventTimeNs : Nat)
    (inv : exchange.ledger.Represents .none) :
    exchange.Prints env [] (exchange.applyPhantomLevelUpdate env config side price targetQty eventTimeNs) := by
  have rested := restTimestamped_prints env config side price targetQty eventTimeNs inv
  unfold applyPhantomLevelUpdate
  split
  · split
    · exact .refl exchange
    · exact rested.settle (publishTradeSummaries_ledger _) ((List.append_nil _).trans (publishTradeSummaries_tape ..))
  · exact reconcilePhantomQty_prints env side price targetQty eventTimeNs true inv fun stale => stale.1.false

theorem removeL2Prices_prints (side : Side) (eventTimeNs : Nat) (prices : List Int)
    (inv : exchange.ledger.Represents .none) :
    exchange.Prints env [] (exchange.removeL2Prices env config side eventTimeNs prices) := by
  induction prices generalizing exchange with
  | nil => exact .refl exchange
  | cons price rest ih =>
      have applied : exchange.Prints env [] (exchange.removeL2Prices env config side eventTimeNs [price]) :=
        (applyPhantomLevelUpdate_prints env config side price 0 eventTimeNs inv).unseen rfl rfl
      exact applied.trans inv (ih (applied.micros.represents inv))

theorem changeL2Rows_prints (side : Side) (eventTimeNs : Nat) (rows : List L2Row)
    (inv : exchange.ledger.Represents .none) :
    exchange.Prints env [] (exchange.changeL2Rows env config side eventTimeNs rows) := by
  induction rows generalizing exchange with
  | nil => exact .refl exchange
  | cons row rest ih =>
      have applied : exchange.Prints env [] (exchange.changeL2Rows env config side eventTimeNs [row]) :=
        (applyPhantomLevelUpdate_prints env config side row.price row.qty eventTimeNs inv).unseen rfl rfl
      exact applied.trans inv (ih (applied.micros.represents inv))

theorem removeL2Levels_prints (eventTimeNs : Nat) (removed : Option (List Nat × List Nat))
    (inv : exchange.ledger.Represents .none) :
    exchange.Prints env [] (exchange.removeL2Levels env config eventTimeNs removed) := by
  cases removed with
  | none => exact .refl exchange
  | some indices =>
      have bids : exchange.Prints env [] (exchange.removeL2Indices env config .buy eventTimeNs indices.1) :=
        removeL2Prices_prints env config .buy eventTimeNs _ inv
      exact bids.trans inv (removeL2Prices_prints env config .sell eventTimeNs _ (bids.micros.represents inv))

theorem processL2Diff_prints (diff : L2Diff) (inv : exchange.ledger.Represents .none) :
    exchange.Prints env [] (exchange.processL2Diff env config diff) := by
  let eventTimeNs := diff.timeMs * oneMillisecondNs
  have removes := removeL2Levels_prints env config eventTimeNs diff.removed inv
  have bids := removes.trans inv (changeL2Rows_prints env config .buy eventTimeNs diff.bids
    (removes.micros.represents inv))
  have asks := bids.trans inv (changeL2Rows_prints env config .sell eventTimeNs diff.asks
    (bids.micros.represents inv))
  refine asks.unseen ?_ (finalizeL2Event_tape _)
  show (finalizeL2Event _).matching.ledger = _
  rw [finalizeL2Event_matching]
  rfl

theorem applyTrades_prints (trades : List HyperliquidTrade) (inv : exchange.ledger.Represents .none) :
    exchange.Prints env [] (exchange.applyTrades env config trades) := by
  induction trades generalizing exchange with
  | nil => exact .refl exchange
  | cons trade rest ih =>
      have applied : exchange.Prints env [] (exchange.applyTrade env config trade) := by
        have rested := restTimestamped_prints env config trade.side trade.price trade.qty
          (trade.timeMs * oneMillisecondNs) inv
        unfold applyTrade
        dsimp only at rested ⊢
        refine rested.settle (congrArg MatchState.ledger (creditSummaries_matching ..)) ?_
        rw [creditSummaries_tape, List.append_nil]
        rfl
      exact applied.trans inv (ih (applied.micros.represents inv))

theorem processTradesEvent_prints (trades : List HyperliquidTrade) (inv : exchange.ledger.Represents .none) :
    exchange.Prints env [] (exchange.processTradesEvent env config trades) := by
  unfold processTradesEvent
  split
  · exact .refl exchange
  · exact (applyTrades_prints env config trades inv).unseen rfl (populateL2Snapshot_tape _)

end Feeds

/-! ## Requests -/

section Requests

variable {header : RequestHeader}

omit [OrderBookL3 β] in
private theorem settled_prints {begun : Exchange β} {matched : MatchState β} {summaries : List TradeSummaryInfo}
    (rejects : Prop) [Decidable rejects] {reject : Exchange β → Exchange β}
    (quiet : ∀ between : Exchange β, (reject between).tape = between.tape ∧
      (reject between).matching.trades = between.matching.trades) :
    let published := { begun with matching := matched }.publishTradeSummaries summaries
    let settled := (if rejects then reject published else published).flushMarketDataCaches
    settled.tape = begun.tape ++ summaries ∧ settled.matching.trades = matched.trades := by
  intro published settled
  have tape : published.tape = begun.tape ++ summaries := publishTradeSummaries_tape ..
  have trades : published.matching.trades = matched.trades :=
    congrArg MatchState.trades (publishTradeSummaries_matching _)
  have settledTape : settled.tape = _ := flushMarketDataCaches_tape _
  have settledTrades : settled.matching.trades = _ :=
    (congrArg MatchState.trades flushMarketDataCaches_matching).trans rfl
  rw [settledTape, settledTrades]
  split
  · exact ⟨(quiet published).1.trans tape, (quiet published).2.trans trades⟩
  · exact ⟨tape, trades⟩

theorem handleModifyOrderRequest_prints {msg : ModifyOrderMessage} (inv : exchange.ledger.Represents .none)
    (micros : Micros env .all (.none, exchange.ledger)
      (.none, (exchange.handleModifyOrderRequest env config header msg).ledger)) :
    exchange.Prints env [] (exchange.handleModifyOrderRequest env config header msg) := by
  by_cases unknown : header.symbol ≠ config.symbol ∨
      selectOrder exchange.book msg.clientOrderId msg.orderId = none
  · obtain ⟨reason, -, rejected⟩ := @handleModifyOrderRequest_unknown _ _ exchange env config header msg unknown
    rw [rejected] at micros ⊢
    exact .silent inv micros ((MatchState.publish_trades ..).trans (List.append_nil _)) rfl
  have listed : header.symbol = config.symbol := by
    by_contra unlisted
    exact unknown (.inl unlisted)
  obtain ⟨ref, selected⟩ := Option.ne_none_iff_exists'.mp (fun nothing => unknown (.inr nothing))
  have registered := selectOrder_registered inv selected
  have marks : Micros env .all (.none, exchange.ledger) (.amending ref, (exchange.markReplace env header ref).ledger) :=
    beginAmend_micros header.requestTag header.timeStamp registered trivial
  have prints := MatchState.modifyOrder_prints env config header.timeStamp (marks.represents inv)
    (show ((exchange.markReplace env header ref).matching.order ref).status = .pendingReplace by
      rw [markReplace_self]; rfl) msg.newPrice msg.newQty
  have later := (micros.grows inv).2
  rw [handleModifyOrderRequest_eq listed selected] at micros later ⊢
  dsimp only at prints micros later ⊢
  generalize (exchange.markReplace env header ref).matching.modifyOrder env config ref msg.newPrice msg.newQty
    header.timeStamp = result at prints micros later ⊢
  obtain ⟨reason, summaries, matched⟩ := result
  obtain ⟨tape, trades⟩ := @settled_prints β (exchange.markReplace env header ref) matched summaries (reason ≠ .none) _
    (fun between => (between.onBook fun book => book.updateOrder ref fun order =>
      { order with requestTag := (exchange.matching.order ref).requestTag }).onMatching fun state =>
        state.rejectModifyOrderRequest env header msg reason)
    fun between => ⟨rfl, (MatchState.publish_trades ..).trans (List.append_nil _)⟩
  exact .of_match micros prints (fun _ owned => owned.grown rfl)
    ((MatchState.publish_trades ..).trans (List.append_nil _)) trades later ((List.append_nil _).trans tape)

theorem handleCancelOrderRequest_prints {msg : CancelOrderMessage} (inv : exchange.ledger.Represents .none)
    (micros : Micros env .all (.none, exchange.ledger)
      (.none, (exchange.handleCancelOrderRequest env config header msg).ledger)) :
    exchange.Prints env [] (exchange.handleCancelOrderRequest env config header msg) := by
  by_cases unknown : header.symbol ≠ config.symbol ∨
      selectOrder exchange.book msg.clientOrderId msg.orderId = none
  · obtain ⟨reason, -, rejected⟩ := @handleCancelOrderRequest_unknown _ _ exchange env config header msg unknown
    rw [rejected] at micros ⊢
    exact .silent inv micros ((MatchState.publish_trades ..).trans (List.append_nil _)) rfl
  have listed : header.symbol = config.symbol := by
    by_contra unlisted
    exact unknown (.inl unlisted)
  obtain ⟨ref, selected⟩ := Option.ne_none_iff_exists'.mp (fun nothing => unknown (.inr nothing))
  let marked := (exchange.onBook fun book => book.updateOrder ref (beginCancel header.requestTag)).matching
  let begun := marked.sendOrderCancelPending env ref header.timeStamp
  let touched := begun.touchOrder env ref
  let gone := touched.onBook fun book => book.deleteOrder ref (touched.order ref).lastUpdateTime 0 true
  have pending : begun.trades = exchange.matching.trades :=
    (marked.publish_trades env fun slot => slot.writeCancelPending _ header.timeStamp).trans (List.append_nil _)
  have cancelled : (gone.publishOrderCancel env ref header.timeStamp).trades = begun.trades :=
    (gone.publish_trades env fun slot => slot.writeCancel _ header.timeStamp).trans (List.append_nil _)
  refine .silent inv micros ?_ ?_
  · unfold handleCancelOrderRequest
    rw [if_neg (fun unlisted => unlisted listed), selected]
    dsimp only
    rw [flushMarketDataCaches_matching]
    exact cancelled.trans pending
  · unfold handleCancelOrderRequest
    rw [if_neg (fun unlisted => unlisted listed), selected]
    exact flushMarketDataCaches_tape _

omit [OrderBookL3 β] in
theorem acceptOrder_tape (env : Environment) (config : SymbolConfig) (header : RequestHeader) (msg : AddOrderMessage) :
    (exchange.acceptOrder env config header msg).tape = exchange.tape :=
  (clientIdFor_tape _ msg.userId).trans rfl

/-- A new order that is accepted is told of alike from the start. -/
theorem handleNewOrderRequest_prints {msg : AddOrderMessage} (inv : exchange.ledger.Represents .none)
    (orderFree : exchange.ledger.byOrder (env.uuid exchange.book.globals.uuidDraws) = none)
    (listed : header.symbol = config.symbol) (free : ¬ exchange.ClientIdTaken msg.clientOrderId)
    (micros : Micros env .all (.none, exchange.ledger)
      (.none, (exchange.handleNewOrderRequest env config header msg).ledger))
    (owned : (exchange.handleNewOrderRequest env config header msg).ledger.Owned exchange.book.globals.nextOrderId) :
    PrintsOf env (fun id => exchange.ledger.Owned id ∨ id = exchange.book.globals.nextOrderId) exchange []
      (exchange.handleNewOrderRequest env config header msg) := by
  let accepted := exchange.acceptOrder env config header msg
  have accepts : Micro env .all (.none, exchange.ledger) (.pending (env.pool exchange.book.live), accepted.ledger) :=
    acceptOrder_micro header msg (byClient_of_free free) orderFree trivial
  have acceptedInv := accepts.represents inv
  have isOrder : accepted.matching.order (env.pool exchange.book.live) = _ := acceptOrder_order header msg
  have isLedger : accepted.ledger = _ := acceptOrder_ledger header msg
  have prints := MatchState.addOrder_prints env config header.timeStamp acceptedInv (by rw [isOrder]; rfl)
  have known : ∀ id, exchange.ledger.Owned id ∨ id = exchange.book.globals.nextOrderId → accepted.ledger.Owned id := by
    rintro id (old | rfl)
    · exact old.grown (congrArg Ledger.responses isLedger)
    · have new : accepted.ledger.Owned (accepted.matching.order (env.pool exchange.book.live)).id :=
        acceptedInv.indexed.fresh_owned rfl
      rw [isOrder, newOrder_id] at new
      exact new
  have ids : accepted.book.globals.nextOrderId = exchange.book.globals.nextOrderId + 1 :=
    congrArg (fun ledger => ledger.globals.nextOrderId) isLedger
  -- The new order's number was drawn, since a report bears it.
  have drawn := (micros.represents inv).indexed.owned_bound owned
  have untraded : accepted.matching.trades = exchange.matching.trades := by
    show (exchange.acceptOrder env config header msg).matching.trades = _
    rw [acceptOrder_matching]
    exact (MatchState.publish_trades ..).trans (List.append_nil _)
  rw [handleNewOrderRequest_eq listed free] at micros drawn ⊢
  dsimp only at prints micros drawn ⊢
  generalize (exchange.acceptOrder env config header msg).matching.addOrder env config (env.pool exchange.book.live)
    header.timeStamp = result at prints micros drawn ⊢
  obtain ⟨reason, summaries, matched⟩ := result
  obtain ⟨tape, trades⟩ := @settled_prints β accepted matched summaries (reason ≠ .none ∧ reason ≠ .fokCannotFill) _
    (fun between => between.onMatching fun state => state.rejectNewOrderRequest env header msg reason)
    fun between => ⟨rfl, (MatchState.publish_trades ..).trans (List.append_nil _)⟩
  rw [acceptOrder_tape] at tape
  exact .of_match micros prints known untraded trades (ids.trans_le drawn) ((List.append_nil _).trans tape)

end Requests

/-! ## Runs -/

section Inputs

variable {input : Input}

private theorem requestLicence_closed (notNew : ∀ header msg, input ≠ .newOrder header msg) :
    exchange.RequestLicence .closed env config input := by
  cases input with
  | newOrder header msg => exact absurd rfl (notNew header msg)
  | amend header msg =>
      exact ⟨fun _ => trivial, fun _ _ _ => trivial, fun _ _ _ _ => ⟨trivial, fun _ _ => trivial⟩,
        fun _ _ _ _ => trivial, fun _ _ _ _ _ _ => trivial, fun _ _ _ _ _ _ _ _ _ _ _ => trivial⟩
  | cancel header msg => exact ⟨fun _ => trivial, fun _ _ _ => trivial⟩
  | marketOrder event => exact fun _ _ _ _ => trivial
  | _ => trivial

/-- Whatever comes in but a new order. -/
private theorem step_prints (inv : exchange.ledger.Represents .none) (admitted : exchange.Admits env input)
    (micros : Micros env .all (.none, exchange.ledger) (.none, (exchange.step env config input).ledger))
    (notNew : ∀ header msg, input ≠ .newOrder header msg) :
    exchange.Prints env [] (exchange.step env config input) := by
  cases input with
  | newOrder header msg => exact absurd rfl (notNew header msg)
  | amend header msg => exact handleModifyOrderRequest_prints inv micros
  | cancel header msg => exact handleCancelOrderRequest_prints inv micros
  | level2Snapshot seqNum updates => exact onLevel2Snapshot_prints env config seqNum updates inv
  | coinbaseEvent event => exact dispatchEvent_prints env config event inv
  | l2Snapshot snapshot => exact processL2Snapshot_prints env config snapshot inv
  | l2Diff diff => exact processL2Diff_prints env config diff inv
  | trades trades => exact processTradesEvent_prints env config trades inv
  | marketOrder event => exact applyMarketOrder_prints env config event inv admitted.2 admitted.1
  | marketTrade event => exact replayMarketTrade_prints env config event inv
  | flushMarketEvents =>
      show exchange.Prints env [] exchange.flushMarketEvents
      unfold flushMarketEvents
      split
      · exact (Prints.refl exchange).unseen flushMarketDataCaches_ledger (flushMarketDataCaches_tape _)
      · exact .refl exchange
  | subscribe level2 l2Book l2 => exact (Prints.refl exchange).unseen rfl rfl
  | subscribeServed => exact (Prints.refl exchange).unseen rfl (populateL2SubscriptionResponse_tape _)
  | elsewhere draws => exact .silent inv micros rfl rfl

/-- A new order either leaves a reject, or is the one order that reports are new on. -/
private theorem newOrder_prints {header : RequestHeader} {msg : AddOrderMessage}
    (inv : exchange.ledger.Represents .none) (admitted : exchange.Admits env (.newOrder header msg))
    (micros : Micros env .all (.none, exchange.ledger)
      (.none, (exchange.handleNewOrderRequest env config header msg).ledger)) :
    ∃ known, (∀ id, (exchange.handleNewOrderRequest env config header msg).ledger.Owned id → known id) ∧
      (∀ id, known id → exchange.ledger.Owned id ∨ id = exchange.book.globals.nextOrderId) ∧
      PrintsOf env known exchange [] (exchange.handleNewOrderRequest env config header msg) := by
  by_cases wrong : header.symbol ≠ config.symbol ∨ exchange.ClientIdTaken msg.clientOrderId
  · obtain ⟨reason, rejected⟩ := @handleNewOrderRequest_rejects _ _ exchange env config header msg wrong
    rw [rejected] at micros ⊢
    refine ⟨exchange.ledger.Owned, ?_, fun _ => .inl,
      Prints.silent inv micros ((MatchState.publish_trades ..).trans (List.append_nil _)) rfl⟩
    rintro id ⟨nonzero, response, member, same⟩
    rcases List.mem_append.mp member with old | new
    · exact ⟨nonzero, response, old, same⟩
    · rw [List.mem_singleton.mp new] at same
      exact absurd same.symm nonzero
  have listed : header.symbol = config.symbol := by
    by_contra unlisted
    exact wrong (.inl unlisted)
  have free : ¬ exchange.ClientIdTaken msg.clientOrderId := fun taken => wrong (.inr taken)
  let last := exchange.handleNewOrderRequest env config header msg
  obtain ⟨told, handled, -⟩ :=
    @handleNewOrderRequest_handled β _ env config exchange header msg inv admitted listed free
  have isNew : (exchange.newOrder env config header msg).identity.id = exchange.book.globals.nextOrderId :=
    exchange.newOrder_id env config header msg
  have owned : last.ledger.Owned exchange.book.globals.nextOrderId := by
    obtain ⟨response, member, on⟩ := handled.taken
    refine ⟨Nat.ne_of_gt inv.indexed.numbered, response, ?_, on.orderNum.trans isNew⟩
    exact (congrArg (response ∈ ·) handled.responses).mpr (List.mem_append_right _ member)
  refine ⟨fun id => exchange.ledger.Owned id ∨ id = exchange.book.globals.nextOrderId, ?_, fun _ known => known,
    handleNewOrderRequest_prints inv admitted listed free micros owned⟩
  rintro id ⟨nonzero, response, member, same⟩
  have known : ∀ other, exchange.book.Holds other → response.IsOn (exchange.matching.order other).identity →
      exchange.ledger.Owned id := by
    rintro other ⟨number, held⟩ on
    have registered := inv.indexed.registered (show exchange.ledger.owner number = some other from held)
    rw [← same, on.orderNum]
    exact inv.indexed.registered_owned registered
  rcases List.mem_append.mp ((congrArg (response ∈ ·) handled.responses).mp member) with old | new
  · exact .inl ⟨nonzero, response, old, same⟩
  · cases handled.answers response new with
    | own on => exact .inr (same.symm.trans (on.orderNum.trans isNew))
    | reject unnamed rejected tag => exact absurd (same.symm.trans unnamed) nonzero
    | fill apart held on trade => exact .inl (known _ held on)
    | selfMatch apart held on cancel mine => exact .inl (known _ held on)

end Inputs

/-- The tape names only orders whose numbers were drawn, and tells of every order with reports what
its reports tell. -/
structure TapeAgrees (exchange : Exchange β) : Prop where
  named : ∀ summary ∈ exchange.tape, ∀ leg ∈ summary.trades, leg.orderId < exchange.book.globals.nextOrderId
  alike : ∀ id, exchange.ledger.Owned id → ∀ price, price ≠ nullPrice →
    printedQty exchange.tape id price = reportedQty exchange.matching.trades id price

/-- No trade was reported under the number to be drawn next. -/
private theorem undrawn_reported (inv : exchange.ledger.Represents .none) (price : Int) :
    reportedQty exchange.matching.trades exchange.book.globals.nextOrderId price = 0 := by
  refine reportedQty_of_absent (fun trade inside same => ?_) price
  obtain ⟨response, member, isTrade⟩ := List.mem_filterMap.mp inside
  have number : trade.orderNum = response.orderNum := by
    unfold OrderResponse.trade at isTrade
    split at isTrade
    · rw [← Option.some.inj isTrade]
    · cases isTrade
  exact nextOrderId_foreign inv ⟨Nat.ne_of_gt inv.indexed.numbered, response, member, number.symm.trans same⟩

/-- Agreement is kept where the reports are on known orders, and all of these but one had reports. -/
private theorem TapeAgrees.prints (agrees : exchange.TapeAgrees) {after : Exchange β} {known : Nat → Prop}
    (inv : exchange.ledger.Represents .none) (prints : PrintsOf env known exchange [] after)
    (knows : ∀ id, after.ledger.Owned id → known id)
    (fresh : ∀ id, known id → exchange.ledger.Owned id ∨ id = exchange.book.globals.nextOrderId) :
    after.TapeAgrees := by
  obtain ⟨summaries, isTape, named, told⟩ := prints.told
  rw [List.append_nil] at isTape
  refine ⟨?_, ?_⟩
  · intro summary inside leg isLeg
    rw [isTape] at inside
    rcases List.mem_append.mp inside with old | new
    · exact (agrees.named summary old leg isLeg).trans_le (prints.micros.grows inv).2
    · exact named summary new leg isLeg
  · intro id owned price real
    have before : printedQty exchange.tape id price = reportedQty exchange.matching.trades id price := by
      rcases fresh id (knows id owned) with old | rfl
      · exact agrees.alike id old price real
      · rw [undrawn_reported inv]
        exact printedQty_of_absent (fun summary inside leg isLeg =>
          Nat.ne_of_lt (agrees.named summary inside leg isLeg)) price
    rw [isTape, printedQty_append, before, told id (knows id owned) price real]

private theorem TapeAgrees.step (agrees : exchange.TapeAgrees) (inv : exchange.ledger.Represents .none)
    (totalled : exchange.ledger.Totalled) {input : Input} (admitted : exchange.Admits env input) :
    (exchange.step env config input).TapeAgrees := by
  have micros : Micros env .all (.none, exchange.ledger) (.none, (exchange.step env config input).ledger) :=
    step_micros inv totalled admitted (stepLicence_of_joins (fun _ _ => trivial) admitted
      (requestLicence_of_moves fun _ _ _ _ _ _ => trivial))
  by_cases isNew : ∃ header msg, input = .newOrder header msg
  · obtain ⟨header, msg, rfl⟩ := isNew
    obtain ⟨known, knows, fresh, prints⟩ := newOrder_prints inv admitted micros
    exact agrees.prints inv prints knows fresh
  · have notNew : ∀ header msg, input ≠ .newOrder header msg := fun header msg same => isNew ⟨header, msg, same⟩
    have closed : Micros env .closed (.none, exchange.ledger) (.none, (exchange.step env config input).ledger) :=
      step_micros inv totalled admitted (stepLicence_of_joins (fun _ _ => trivial) admitted
        (requestLicence_closed notNew))
    exact agrees.prints inv (step_prints inv admitted micros notNew) (fun _ => closed.reported inv) fun _ => .inl

variable {allowed : Exchange β → Input → Prop}

theorem Reachable.tapeAgrees (reachable : Reachable env config allowed exchange) : exchange.TapeAgrees := by
  induction reachable with
  | new pool publishOrderUpdates => exact ⟨by rintro _ ⟨⟩, fun _ _ _ _ => rfl⟩
  | step earlier input admitted permitted ih =>
      obtain ⟨inv, totalled⟩ := earlier.represents
      exact ih.step inv totalled admitted

/-- In every reachable state the trade summaries published so far, aggressors' legs included, say of
every client order what it traded at each price, as its TRADE reports do. -/
theorem tape_reports (reachable : Reachable env config allowed exchange) {id : Nat} (reported : exchange.Reported id)
    {price : Int} (real : price ≠ nullPrice) :
    printedQty exchange.tape id price = reportedQty exchange.matching.trades id price :=
  reachable.tapeAgrees.alike id reported price real

/-- An offer sweeps two bids and a level of the venue: the tape and the reports tell of it at both
prices. -/
theorem tape_reports_swept :
    let env : Environment := .counted fun _ => default
    let config : SymbolConfig := .reference .cancelResting
    let exchange := (Exchange.new (fun _ => default) true : Exchange ReferenceBook).run env config
      [.limit 1 .buy 101 5, .limit 2 .buy 100 3, .l2Snapshot ⟨1, [⟨100, 2⟩], []⟩, .limit 3 .sell 100 9]
    printedQty exchange.tape 4 100 = reportedQty exchange.matching.trades 4 100 ∧
      reportedQty exchange.matching.trades 4 100 = 4 ∧ reportedQty exchange.matching.trades 4 101 = 5 := by
  intro env config exchange
  have start : Reachable env config (fun _ _ => True) (Exchange.new (fun _ => default) true : Exchange ReferenceBook) :=
    .new _ _
  have reachable : Reachable env config (fun _ _ => True) exchange := start.run (by decide +kernel)
  have reported : exchange.Reported 4 := by decide +kernel
  exact ⟨tape_reports reachable reported (by decide), by decide +kernel, by decide +kernel⟩

end Exchange

end SlickSim
