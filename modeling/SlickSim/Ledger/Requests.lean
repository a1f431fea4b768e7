import SlickSim.Exchange.Exchange
import SlickSim.Ledger.Matching

/-!
# Requests are runs of the ledger machine

`Exchange.ledger` is what a whole exchange is to the ledger machine. Each of the
three request handlers takes it from an empty hand back to an empty hand.
-/

set_option autoImplicit false

namespace SlickSim

open OrderBookL3 (Regresses restingOrders)

def Exchange.ledger {β : Type} [OrderBookL3 β] (exchange : Exchange β) : Ledger :=
  exchange.matching.ledger

namespace Exchange

variable {β : Type} {exchange : Exchange β}

@[simp] theorem onBook_matching (change : OrderBook β → OrderBook β) :
    (exchange.onBook change).matching = exchange.matching.onBook change := rfl

@[simp] theorem publishTradeSummaries_matching (summaries : List TradeSummaryInfo) :
    (exchange.publishTradeSummaries summaries).matching = exchange.matching := by
  unfold publishTradeSummaries
  induction summaries generalizing exchange with
  | nil => rfl
  | cons summary rest ih => exact ih

@[simp] theorem clientIdFor_matching (userId : Name) :
    (exchange.clientIdFor userId).2.matching = exchange.matching := by
  unfold clientIdFor
  split
  · rfl
  · split <;> rfl

theorem flushMarketDataCaches_matching :
    exchange.flushMarketDataCaches.matching = exchange.matching.onBook OrderBook.clearCaches := by
  unfold flushMarketDataCaches
  dsimp only
  split <;> split <;> rfl

variable [OrderBookL3 β]

@[simp] theorem publishTradeSummaries_ledger (summaries : List TradeSummaryInfo) :
    (exchange.publishTradeSummaries summaries).ledger = exchange.ledger := by
  unfold ledger
  rw [publishTradeSummaries_matching]

@[simp] theorem flushMarketDataCaches_ledger :
    exchange.flushMarketDataCaches.ledger = exchange.ledger := by
  unfold ledger
  rw [flushMarketDataCaches_matching]
  rfl

end Exchange

namespace Globals

theorem Le.refl (globals : Globals) : globals.Le globals :=
  ⟨le_rfl, le_rfl, le_rfl, le_rfl, le_rfl⟩

def readClock (globals : Globals) : Globals :=
  { globals with clockReads := globals.clockReads + 1 }

theorem le_readClock (globals : Globals) : globals.Le globals.readClock :=
  ⟨le_rfl, le_rfl, le_rfl, le_rfl, Nat.le_succ _⟩

end Globals

namespace MatchState

variable {β : Type} [OrderBookL3 β] {state : MatchState β} {env : Environment} {permit : Permit}
  {hand : Hand}

theorem publishReject_ledger (state : MatchState β) {header : RequestHeader}
    {userId clientOrderId orderId : Name} {price qty : Int} {reason : OrdRejectReason}
    {write : OrderResponse → Nat → OrderResponse}
    (isReject : ∀ slot now, write slot now =
      slot.writeReject header userId clientOrderId orderId price qty reason now) :
    (state.publishReject env write).ledger =
      { state.ledger with globals := state.ledger.globals.readClock }.publish env
        fun slot => slot.writeReject header userId clientOrderId orderId price qty reason
          (state.book.currentTime env) := by
  unfold publishReject
  rw [publish_ledger]
  simp only [isReject]
  rfl

private theorem readClock_micro (ledger : Ledger) :
    Micro env permit (hand, ledger) (hand, { ledger with globals := ledger.globals.readClock }) :=
  .sweep (show Sweep env hand .buy _ _ from .tick (Globals.le_readClock _))

theorem publishReject_micros {header : RequestHeader} {userId clientOrderId orderId : Name}
    {price qty : Int} {reason : OrdRejectReason} {write : OrderResponse → Nat → OrderResponse}
    (isReject : ∀ slot now, write slot now =
      slot.writeReject header userId clientOrderId orderId price qty reason now)
    (permitted : permit.reject { state.ledger with globals := state.ledger.globals.readClock } orderId) :
    Micros env permit (.none, state.ledger) (.none, (state.publishReject env write).ledger) := by
  rw [publishReject_ledger state isReject]
  exact .head (readClock_micro _) (.single (.reject permitted))

theorem rejectRefused_micros {ref : Nat} {header : RequestHeader} {msg : AddOrderMessage}
    (mine : (state.ledger.heap ref).clientOrderId = msg.clientOrderId)
    (permitted : permit.reject { state.ledger with globals := state.ledger.globals.readClock } default) :
    Micros env permit (.refused ref, state.ledger)
      (.none, (state.rejectNewOrderRequest env header msg .smp).ledger) := by
  have rejected := @publishReject_ledger _ _ env state header msg.userId msg.clientOrderId default
    msg.price msg.qty .smp (fun slot now => slot.writeRejectNew header msg .smp now) (fun _ _ => rfl)
  rw [show (state.rejectNewOrderRequest env header msg .smp).ledger = _ from rejected, ← mine]
  exact .head (readClock_micro _) (.single (.rejectRefused permitted))

/-! ## New orders -/

section AddOrder

variable {config : SymbolConfig} {ref requestTime : Nat}

omit [OrderBookL3 β] in
private theorem closeAndFree_ledger [OrderBookL3 β] (state : MatchState β) (ref : Nat) :
    (state.onBook fun book =>
      { book with mdLevelUpdateCache := closeEvent book.mdLevelUpdateCache }.freeOrder ref).ledger =
      state.ledger.freeOrder ref := rfl

theorem addOrder_eq {reason : OrdRejectReason} {summaries : List TradeSummaryInfo}
    {between : MatchState β}
    (matched : config.matchingEngine.matchOrder env ref (state.order ref).price
      (state.order ref).quantity requestTime (state.order ref).createdTime 0 config.smpMode state =
      (reason, summaries, between)) :
    state.addOrder env config ref requestTime =
      (reason, summaries,
        if reason = .none ∧ 0 < (between.order ref).leavesQuantity ∧
            (between.order ref).restsRemainder = true then
          between.onBook fun book => book.addOrder ref (between.order ref).createdTime 0 true
        else between.onBook fun book =>
          { book with mdLevelUpdateCache := closeEvent book.mdLevelUpdateCache }.freeOrder ref) := by
  unfold addOrder
  dsimp only
  rw [matched]
  dsimp only
  split <;> rfl

private theorem rest_micro {limit : Int} (inv : state.ledger.Represents (.working ref))
    (left : 0 < (state.order ref).leavesQuantity) (restable : (state.order ref).restsRemainder = true)
    (sameLimit : limit = (state.order ref).price)
    (settled : state.ledger.Beyond (MatchingEngine.sweptSide (state.order ref).side) limit)
    (mayJoin : ∀ entry, state.ledger.globals.nextPriority < entry.priority →
      entry.side = toBookSide (state.order ref).side → entry.price = (state.order ref).price →
      entry.orderId = (state.order ref).id → permit.join state.ledger entry) (timestamp : Nat) :
    Micro env permit (.working ref, state.ledger)
      (.none, (state.onBook fun book => book.addOrder ref timestamp 0 true).ledger) := by
  have unregistered := inv.indexed.fresh_unregistered (show (Hand.working ref).fresh = some ref from rfl)
  have absent := inv.indexed.fresh_absent (show (Hand.working ref).fresh = some ref from rfl)
  let globals : Globals := { state.book.globals with nextPriority := state.book.globals.nextPriority + 1 }
  let ranked := { state.ledger with globals }.updateOrder ref (Order.withPriority globals.nextPriority)
  have self : ranked.entryOf ref =
      ((state.order ref).withPriority globals.nextPriority).bookEntry := by
    show (ranked.heap ref).bookEntry = _
    rw [show ranked.heap ref = _ from Function.update_self ..]
    rfl
  have added : (state.onBook fun book => book.addOrder ref timestamp 0 true).ledger =
      (ranked.registerOrder ref).placeEntry (state.ledger.heap ref).id (some (ranked.entryOf ref))
        timestamp :=
    OrderBook.addOrder_ledger true (fun stale => stale.1.false) unregistered absent left rfl
  have later : state.ledger.globals.Le globals := ⟨Nat.le_succ _, le_rfl, le_rfl, le_rfl, le_rfl⟩
  have drawn : state.ledger.globals.nextPriority < globals.nextPriority := Nat.lt_succ_self _
  rw [added]
  refine .rest later drawn left restable ?_ rfl ?_
  · rw [← MatchingEngine.sweptSide_eq]
    exact sameLimit ▸ settled
  · show permit.join state.ledger (ranked.entryOf ref)
    rw [self]
    exact mayJoin _ (Nat.lt_succ_self _) rfl rfl rfl

variable (env permit config requestTime) in
/-- `Symbol::addOrder` takes the order in hand to the book or back to the pool. Where it
is turned away there is a reject to come. -/
theorem addOrder_micros (inv : state.ledger.Represents (.pending ref))
    (isNew : (state.order ref).status = .pendingNew) (unfilled : (state.order ref).cumQuantity = 0)
    (mayRefuse : config.matchingEngine.Refuses state.book config.smpMode (state.order ref)
      (state.order ref).price (state.order ref).leavesQuantity → permit.refuse state.ledger ref)
    (mayJoin : (state.order ref).restsRemainder = true → ∀ after entry,
      state.ledger.SameSide entry.side after → state.ledger.globals.nextPriority < entry.priority →
      entry.side = toBookSide (state.order ref).side → entry.price = (state.order ref).price →
      entry.orderId = (state.order ref).id → permit.join after entry) :
    ∃ reason summaries after, state.addOrder env config ref requestTime = (reason, summaries, after) ∧
      ((reason = .none ∨ reason = .fokCannotFill) ∧
          Micros env permit (.pending ref, state.ledger) (.none, after.ledger) ∨
        reason = .smp ∧ after.ledger = state.ledger.freeOrder ref ∧
          Micros env permit (.pending ref, state.ledger) (.refused ref, after.ledger)) := by
  by_cases refuses : config.matchingEngine.Refuses state.book config.smpMode (state.order ref)
      (state.order ref).price (state.order ref).leavesQuantity
  · refine ⟨_, _, _, addOrder_eq (MatchingEngine.matchOrder_new_refused config.matchingEngine env
      requestTime config.smpMode (state.order ref).createdTime isNew refuses), .inr ⟨rfl, ?_⟩⟩
    rw [if_neg (by rintro ⟨⟨⟩, -⟩), closeAndFree_ledger]
    exact ⟨rfl, .single (.refuse (mayRefuse refuses))⟩
  let acked := state.ledger.publish env fun slot => slot.writeAck (state.order ref) requestTime
  have acks : Micro env permit (.pending ref, state.ledger) (.working ref, acked) := .ack
  have ackedInv : acked.Represents (.working ref) := acks.represents inv
  obtain ⟨reason, summaries, between, matched, outcome⟩ := MatchingEngine.matchOrder_new
    config.matchingEngine env requestTime config.smpMode (state.order ref).createdTime
    (state.order ref).quantity inv isNew refuses rfl
  refine ⟨_, _, _, addOrder_eq matched, .inl ⟨?_, ?_⟩⟩
  · rcases outcome with ⟨⟨rfl, -⟩ | ⟨rfl, -⟩, -⟩ | ⟨rfl, -⟩
    · exact .inr rfl
    · exact .inl rfl
    · exact .inl rfl
  have heapIs : ∀ {ledger : Ledger}, between.ledger = ledger → between.order ref = ledger.heap ref :=
    fun same => congrArg (fun ledger => ledger.heap ref) same
  rcases outcome with ⟨finished, ledgerIs⟩ | ⟨rfl, -, ⟨negative, ledgerIs⟩ | ⟨positive, swept, outcome⟩⟩
  · -- Cancelled before it could match.
    have same : between.order ref = state.order ref := heapIs ledgerIs
    rw [same, if_neg, closeAndFree_ledger, ledgerIs]
    · refine .head acks (.head (.cancelHand ?_ (.inr unfilled)) (.single .dropDone))
      rcases finished with ⟨-, cannot⟩ | ⟨-, empty⟩
      · exact .inl cannot.unrestable
      · exact .inr empty
    · rcases finished with ⟨rfl, -⟩ | ⟨-, empty⟩
      · rintro ⟨⟨⟩, -⟩
      · omega
  · have same : between.order ref = state.order ref := heapIs ledgerIs
    rw [same, if_neg (by omega), closeAndFree_ledger, ledgerIs]
    refine .head acks (.single (.dropFilled ?_ ?_))
    · show (state.order ref).leavesQuantity ≤ 0
      omega
    · show (state.order ref).leavesQuantity = 0 → _
      omega
  · have frame := outcome.sweeps.takenFrom ackedInv
    have sweptInv := outcome.sweeps.represents ackedInv
    have path : Micros env permit (.pending ref, state.ledger) (.working ref, swept) :=
      .head acks outcome.sweeps.micros
    have reported := outcome.reported
    by_cases left : 0 < (swept.heap ref).leavesQuantity
    · cases restable : (swept.heap ref).restsRemainder with
      | false =>
          rw [if_pos ⟨left, restable⟩] at reported
          have same : between.order ref = swept.heap ref :=
            (heapIs reported : between.order ref = (swept.publish env _).heap ref)
          rw [same, if_neg (by rw [restable]; rintro ⟨-, -, ⟨⟩⟩), closeAndFree_ledger, reported]
          exact path.trans (.head (.cancelHand (.inl restable) (.inl left)) (.single .dropDone))
      | true =>
          rw [if_neg (by rw [restable]; rintro ⟨-, ⟨⟩⟩)] at reported
          have same : between.order ref = swept.heap ref := heapIs reported
          rw [same, if_pos ⟨rfl, left, restable⟩, ← same]
          subst reported
          have terms : (between.order ref).SameTerms (state.order ref) := frame.terms ref
          refine path.tail (rest_micro sweptInv left restable terms.price.symm ?_ ?_ _)
          · rw [show (between.order ref).side = (state.order ref).side from terms.side]
            exact outcome.settled left
          · intro entry drawn side price id
            have mayRest : (state.order ref).restsRemainder = true := by
              unfold Order.restsRemainder at restable ⊢
              rw [← terms.price, ← terms.timeInForce]
              exact restable
            refine mayJoin mayRest _ entry ?_ (Nat.lt_of_le_of_lt frame.later.nextPriority drawn)
              (side.trans (congrArg toBookSide terms.side)) (price.trans terms.price)
              (id.trans terms.id)
            refine frame.sameSide ?_
            rw [side, MatchingEngine.sweptSide_eq, terms.side]
            exact (BookSide.opposite_ne _).symm
    · rw [if_neg (by rintro ⟨more, -⟩; exact left more)] at reported
      have same : between.order ref = swept.heap ref := heapIs reported
      rw [same, if_neg (by rintro ⟨-, more, -⟩; exact left more), closeAndFree_ledger, reported]
      have wholeBefore := (inv.agrees.at_ ref).whole rfl
      have whole := (sweptInv.agrees.at_ ref).whole rfl
      have sameQuantity : (swept.heap ref).quantity = (state.ledger.heap ref).quantity :=
        (frame.terms ref).quantity
      have positive : 0 < (state.ledger.heap ref).leavesQuantity := positive
      have unfilled : (state.ledger.heap ref).cumQuantity = 0 := unfilled
      exact path.tail (.dropFilled (by omega) fun _ => by omega)

/-- A new order is turned away exactly when it would meet an order of its own client. -/
theorem addOrder_smp_iff (inv : state.ledger.Represents (.pending ref))
    (isNew : (state.order ref).status = .pendingNew) {reason : OrdRejectReason}
    {summaries : List TradeSummaryInfo} {after : MatchState β}
    (added : state.addOrder env config ref requestTime = (reason, summaries, after)) :
    reason = .smp ↔ config.matchingEngine.Refuses state.book config.smpMode (state.order ref)
      (state.order ref).price (state.order ref).leavesQuantity := by
  by_cases refuses : config.matchingEngine.Refuses state.book config.smpMode (state.order ref)
      (state.order ref).price (state.order ref).leavesQuantity
  · have turnedAway := addOrder_eq (MatchingEngine.matchOrder_new_refused config.matchingEngine env
      requestTime config.smpMode (state.order ref).createdTime isNew refuses)
    rw [added] at turnedAway
    exact iff_of_true (congrArg Prod.fst turnedAway) refuses
  · obtain ⟨other, _, _, matched, outcome⟩ := MatchingEngine.matchOrder_new
      config.matchingEngine env requestTime config.smpMode (state.order ref).createdTime
      (state.order ref).quantity inv isNew refuses rfl
    have sameReason := congrArg Prod.fst (added.symm.trans (addOrder_eq matched))
    refine iff_of_false ?_ refuses
    rintro rfl
    rcases outcome with ⟨⟨rfl, -⟩ | ⟨rfl, -⟩, -⟩ | ⟨rfl, -⟩ <;> cases sameReason

/-- An order for less than nothing is acknowledged and goes back to the pool. Only a
fill-or-kill order that finds nothing to trade with is told that it ended. -/
theorem addOrder_negative (inv : state.ledger.Represents (.pending ref))
    (isNew : (state.order ref).status = .pendingNew)
    (whole : (state.order ref).leavesQuantity = (state.order ref).quantity)
    (negative : (state.order ref).quantity < 0) :
    ∃ reason summaries after, state.addOrder env config ref requestTime = (reason, summaries, after) ∧
      (reason = .none ∨ reason = .fokCannotFill) ∧
      let acked := state.ledger.publish env fun slot => slot.writeAck (state.order ref) requestTime
      after.ledger = Ledger.freeOrder (if MatchingEngine.CannotFill state.book config.smpMode
          (state.order ref) (state.order ref).price (state.order ref).quantity then
        acked.publish env fun slot => slot.writeCancel (state.order ref) requestTime
      else acked) ref := by
  have willing : ¬ config.matchingEngine.Refuses state.book config.smpMode (state.order ref)
      (state.order ref).price (state.order ref).leavesQuantity := by
    rintro ⟨-, more, -⟩
    omega
  obtain ⟨reason, summaries, between, matched, outcome⟩ := MatchingEngine.matchOrder_new
    config.matchingEngine env requestTime config.smpMode (state.order ref).createdTime
    (state.order ref).quantity inv isNew willing rfl
  have dropped : ∀ {ledger : Ledger}, between.ledger = ledger → ledger.heap = state.ledger.heap →
      ¬ (reason = .none ∧ 0 < (between.order ref).leavesQuantity ∧
        (between.order ref).restsRemainder = true) := by
    rintro ledger rfl sameHeap ⟨-, left, -⟩
    have same : between.order ref = state.order ref := congrArg (fun heap => heap ref) sameHeap
    rw [same] at left
    omega
  refine ⟨_, _, _, addOrder_eq matched, ?_⟩
  rcases outcome with ⟨⟨rfl, cannot⟩ | ⟨-, empty⟩, ledgerIs⟩ | ⟨rfl, can, ⟨-, ledgerIs⟩ | ⟨positive, -⟩⟩
  · refine ⟨.inr rfl, ?_⟩
    dsimp only
    rw [if_neg (dropped ledgerIs rfl), closeAndFree_ledger, ledgerIs, if_pos cannot]
  · omega
  · refine ⟨.inl rfl, ?_⟩
    dsimp only
    rw [if_neg (dropped ledgerIs rfl), closeAndFree_ledger, ledgerIs, if_neg can]
  · omega

end AddOrder

end MatchState

namespace Exchange

variable {β : Type} [OrderBookL3 β] {exchange : Exchange β} {env : Environment}
  {config : SymbolConfig} {permit : Permit}

def newOrder (exchange : Exchange β) (env : Environment) (config : SymbolConfig)
    (header : RequestHeader) (msg : AddOrderMessage) : Order :=
  fillNewOrder config header msg (exchange.clientIdFor msg.userId).1
    ((exchange.book.allocateOrder env).2.heap (env.pool exchange.book.live))

omit [OrderBookL3 β] in
private theorem newOrder_eq (header : RequestHeader) (msg : AddOrderMessage) :
    exchange.newOrder env config header msg =
      fillNewOrder config header msg (exchange.clientIdFor msg.userId).1
        { exchange.book.heap (env.pool exchange.book.live) with
          orderId := env.uuid exchange.book.globals.uuidDraws
          id := exchange.book.globals.nextOrderId
          requestTag := 0
          createdTime := exchange.book.currentTime env
          lastUpdateTime := exchange.book.currentTime env } := by
  unfold newOrder
  rw [show (exchange.book.allocateOrder env).2.heap (env.pool exchange.book.live) = _ from
    Function.update_self ..]
  rfl

section NewOrder

variable (exchange env config) (header : RequestHeader) (msg : AddOrderMessage)

omit [OrderBookL3 β]

@[simp] theorem newOrder_id :
    (exchange.newOrder env config header msg).id = exchange.book.globals.nextOrderId := by
  rw [newOrder_eq]
  rfl

@[simp] theorem newOrder_orderId :
    (exchange.newOrder env config header msg).orderId =
      env.uuid exchange.book.globals.uuidDraws := by
  rw [newOrder_eq]
  rfl

@[simp] theorem newOrder_createdTime :
    (exchange.newOrder env config header msg).createdTime = exchange.book.currentTime env := by
  rw [newOrder_eq]
  rfl

end NewOrder

def acceptOrder (exchange : Exchange β) (env : Environment) (config : SymbolConfig)
    (header : RequestHeader) (msg : AddOrderMessage) : Exchange β :=
  let ref := env.pool exchange.book.live
  let allocated := exchange.onBook fun _ => (exchange.book.allocateOrder env).2
  let (clientId, identified) := allocated.clientIdFor msg.userId
  let written := identified.onBook fun book =>
    book.updateOrder ref (fillNewOrder config header msg clientId)
  written.onMatching fun state => state.sendOrderNewPending env ref header.timeStamp

omit [OrderBookL3 β] in
private theorem clientIdFor_onBook (change : OrderBook β → OrderBook β) (userId : Name) :
    ((exchange.onBook change).clientIdFor userId).1 = (exchange.clientIdFor userId).1 ∧
      ((exchange.onBook change).clientIdFor userId).2.matching = exchange.matching.onBook change := by
  refine ⟨?_, clientIdFor_matching userId⟩
  unfold clientIdFor
  rw [show (exchange.onBook change).clientIds = exchange.clientIds from rfl]
  split
  · rfl
  · split <;> rfl

omit [OrderBookL3 β] in
theorem acceptOrder_matching (header : RequestHeader) (msg : AddOrderMessage) :
    (exchange.acceptOrder env config header msg).matching =
      ((exchange.matching.onBook fun _ => (exchange.book.allocateOrder env).2).onBook fun book =>
        book.updateOrder (env.pool exchange.book.live)
          (fillNewOrder config header msg (exchange.clientIdFor msg.userId).1)).sendOrderNewPending env
        (env.pool exchange.book.live) header.timeStamp := by
  obtain ⟨sameClient, sameMatching⟩ :=
    @clientIdFor_onBook _ exchange (fun _ => (exchange.book.allocateOrder env).2) msg.userId
  show (MatchState.onBook ((exchange.onBook _).clientIdFor msg.userId).2.matching fun book =>
    book.updateOrder (env.pool exchange.book.live) (fillNewOrder config header msg
      ((exchange.onBook _).clientIdFor msg.userId).1)).sendOrderNewPending env _ header.timeStamp = _
  rw [sameMatching, sameClient]

omit [OrderBookL3 β] in
theorem acceptOrder_l3 (header : RequestHeader) (msg : AddOrderMessage) :
    (exchange.acceptOrder env config header msg).book.l3 = exchange.book.l3 := by
  show (exchange.acceptOrder env config header msg).matching.book.l3 = _
  rw [acceptOrder_matching]
  rfl

theorem acceptOrder_ledger (header : RequestHeader) (msg : AddOrderMessage) :
    (exchange.acceptOrder env config header msg).ledger =
      { exchange.ledger with
        heap := Function.update exchange.ledger.heap (env.pool exchange.book.live)
          (exchange.newOrder env config header msg)
        live := env.pool exchange.book.live :: exchange.ledger.live
        globals := (exchange.book.allocateOrder env).2.globals }.publish env fun slot =>
          slot.writeNewPending (exchange.newOrder env config header msg) header.timeStamp := by
  let ref := env.pool exchange.book.live
  let written := (exchange.matching.onBook fun _ => (exchange.book.allocateOrder env).2).onBook
    fun book => book.updateOrder ref (fillNewOrder config header msg (exchange.clientIdFor msg.userId).1)
  have self : written.order ref = exchange.newOrder env config header msg := Function.update_self ..
  have heapIs : written.book.heap =
      Function.update exchange.book.heap ref (exchange.newOrder env config header msg) :=
    Function.update_idem ..
  unfold ledger
  rw [acceptOrder_matching, MatchState.sendOrderNewPending, MatchState.publish_ledger, self]
  congr 1
  show Ledger.mk _ _ _ _ _ written.book.heap _ _ _ _ _ _ _ = _
  rw [heapIs]
  rfl

/-- What a new-order request needs of a permit. -/
structure NewOrderLicence (permit : Permit) (env : Environment) (config : SymbolConfig)
    (exchange : Exchange β) (header : RequestHeader) (msg : AddOrderMessage) : Prop where
  reject : ∀ ledger : Ledger, ledger.Represents .none → permit.reject ledger default
  accept : header.symbol = config.symbol → permit.accept exchange.ledger
    (exchange.newOrder env config header msg)
  refuse : header.symbol = config.symbol →
    config.matchingEngine.Refuses (exchange.acceptOrder env config header msg).book config.smpMode
      (exchange.newOrder env config header msg) msg.price msg.qty →
    permit.refuse (exchange.acceptOrder env config header msg).ledger (env.pool exchange.book.live)
  join : header.symbol = config.symbol →
    (exchange.newOrder env config header msg).restsRemainder = true → ∀ after entry,
    exchange.ledger.SameSide entry.side after → exchange.ledger.globals.nextPriority < entry.priority →
    entry.side = toBookSide msg.side → entry.price = msg.price →
    entry.orderId = exchange.ledger.globals.nextOrderId → permit.join after entry

theorem acceptOrder_order (header : RequestHeader) (msg : AddOrderMessage) :
    (exchange.acceptOrder env config header msg).matching.order (env.pool exchange.book.live) =
      exchange.newOrder env config header msg := by
  have heapIs := congrArg (fun ledger => ledger.heap (env.pool exchange.book.live))
    (@acceptOrder_ledger β _ exchange env config header msg)
  exact heapIs.trans (Function.update_self ..)

theorem acceptOrder_micro (header : RequestHeader) (msg : AddOrderMessage)
    (clientFree : msg.clientOrderId.isEmpty = false →
      exchange.ledger.byClient msg.clientOrderId = none)
    (orderFree : exchange.ledger.byOrder (env.uuid exchange.book.globals.uuidDraws) = none)
    (permitted : permit.accept exchange.ledger (exchange.newOrder env config header msg)) :
    Micro env permit (.none, exchange.ledger)
      (.pending (env.pool exchange.book.live), (exchange.acceptOrder env config header msg).ledger) := by
  rw [acceptOrder_ledger]
  refine .accept (env.pool_fresh _) (newOrder_id ..)
    ⟨le_rfl, Nat.le_succ _, le_rfl, Nat.le_succ _, Nat.le_succ _⟩ (Nat.lt_succ_self _) clientFree ?_
    ((newOrder_orderId ..).symm ▸ orderFree) rfl rfl rfl permitted
  have long := env.uuid_length exchange.book.globals.uuidDraws
  rw [newOrder_orderId]
  show (env.uuid exchange.book.globals.uuidDraws).bytes.isEmpty = false
  cases bytes : (env.uuid exchange.book.globals.uuidDraws).bytes with
  | nil =>
      rw [bytes] at long
      cases long
  | cons byte rest => rfl

/-- Whether a client order id is in use. -/
def ClientIdTaken (exchange : Exchange β) (clientOrderId : Name) : Prop :=
  clientOrderId.isEmpty = false ∧ (exchange.book.findOrderByClientOrderId clientOrderId).isSome = true

instance (clientOrderId : Name) : Decidable (exchange.ClientIdTaken clientOrderId) :=
  inferInstanceAs (Decidable (_ ∧ _))

omit [OrderBookL3 β] in
theorem byClient_of_free {clientOrderId : Name} [OrderBookL3 β]
    (free : ¬ exchange.ClientIdTaken clientOrderId) (named : clientOrderId.isEmpty = false) :
    exchange.ledger.byClient clientOrderId = none := by
  cases found : exchange.ledger.byClient clientOrderId with
  | none => rfl
  | some other => exact absurd ⟨named, Option.isSome_iff_exists.mpr ⟨other, found⟩⟩ free

theorem incoming_accepted (inv : exchange.ledger.Represents .none) {header : RequestHeader} {msg : AddOrderMessage}
    (admitted : exchange.ledger.byOrder (env.uuid exchange.book.globals.uuidDraws) = none)
    (free : ¬ exchange.ClientIdTaken msg.clientOrderId) :
    Incoming (exchange.acceptOrder env config header msg).matching (env.pool exchange.book.live) msg.price
      msg.qty msg.qty := by
  have accepts : Micro env .all (.none, exchange.ledger)
      (.pending (env.pool exchange.book.live), (exchange.acceptOrder env config header msg).ledger) :=
    acceptOrder_micro header msg (byClient_of_free free) admitted trivial
  have isOrder := @acceptOrder_order β _ exchange env config header msg
  have incoming := Incoming.new (accepts.represents inv) (by rw [isOrder]; rfl)
  rw [isOrder] at incoming
  exact incoming

theorem handleNewOrderRequest_rejects {header : RequestHeader} {msg : AddOrderMessage}
    (wrong : header.symbol ≠ config.symbol ∨ exchange.ClientIdTaken msg.clientOrderId) :
    ∃ reason, exchange.handleNewOrderRequest env config header msg =
      exchange.onMatching fun state => state.rejectNewOrderRequest env header msg reason := by
  unfold handleNewOrderRequest
  by_cases listed : header.symbol = config.symbol
  · rw [if_neg (fun unlisted => unlisted listed),
      if_pos (show _ ∧ _ from wrong.resolve_left (fun unlisted => unlisted listed))]
    exact ⟨_, rfl⟩
  · rw [if_pos listed]
    exact ⟨_, rfl⟩

theorem handleNewOrderRequest_eq {header : RequestHeader} {msg : AddOrderMessage}
    (listed : header.symbol = config.symbol) (free : ¬ exchange.ClientIdTaken msg.clientOrderId) :
    exchange.handleNewOrderRequest env config header msg =
      let accepted := exchange.acceptOrder env config header msg
      let (reason, summaries, matching) := accepted.matching.addOrder env config
        (env.pool exchange.book.live) header.timeStamp
      let published := { accepted with matching }.publishTradeSummaries summaries
      (if reason ≠ .none ∧ reason ≠ .fokCannotFill then
        published.onMatching fun state => state.rejectNewOrderRequest env header msg reason
      else published).flushMarketDataCaches := by
  unfold handleNewOrderRequest
  rw [if_neg (fun unlisted => unlisted listed), if_neg (show ¬ (_ ∧ _) from free)]
  rfl

/-- Any other request becomes an order, and a reject follows where it is turned away. -/
theorem handleNewOrderRequest_matching {header : RequestHeader} {msg : AddOrderMessage}
    (listed : header.symbol = config.symbol) (free : ¬ exchange.ClientIdTaken msg.clientOrderId)
    {reason : OrdRejectReason} {summaries : List TradeSummaryInfo} {after : MatchState β}
    (added : (exchange.acceptOrder env config header msg).matching.addOrder env config
      (env.pool exchange.book.live) header.timeStamp = (reason, summaries, after)) :
    (exchange.handleNewOrderRequest env config header msg).matching =
      (if reason ≠ .none ∧ reason ≠ .fokCannotFill then after.rejectNewOrderRequest env header msg reason
      else after).onBook OrderBook.clearCaches := by
  let accepted := exchange.acceptOrder env config header msg
  have published : ({ accepted with matching := after }.publishTradeSummaries summaries).matching = after :=
    publishTradeSummaries_matching _
  rw [handleNewOrderRequest_eq listed free]
  dsimp only
  rw [added]
  dsimp only
  rw [flushMarketDataCaches_matching]
  congr 1
  split
  · show MatchState.rejectNewOrderRequest _ env header msg reason = _
    rw [published]
  · exact published

theorem handleNewOrderRequest_ledger {header : RequestHeader} {msg : AddOrderMessage}
    (listed : header.symbol = config.symbol) (free : ¬ exchange.ClientIdTaken msg.clientOrderId)
    {reason : OrdRejectReason} {summaries : List TradeSummaryInfo} {after : MatchState β}
    (added : (exchange.acceptOrder env config header msg).matching.addOrder env config
      (env.pool exchange.book.live) header.timeStamp = (reason, summaries, after)) :
    (exchange.handleNewOrderRequest env config header msg).ledger =
      if reason ≠ .none ∧ reason ≠ .fokCannotFill then
        (after.rejectNewOrderRequest env header msg reason).ledger
      else after.ledger := by
  unfold ledger
  rw [handleNewOrderRequest_matching listed free added]
  split <;> rfl

/-- A request published reports on the order in one slot, and did nothing else. -/
structure OnlyReported (before after : Exchange β) (ref : Nat)
    (told : List (ExecType × OrderStatus × Nat)) : Prop where
  queues : after.book.l3 = before.book.l3
  others : ∀ other ∈ before.book.live, other ≠ ref → after.matching.order other = before.matching.order other
  byId : after.book.findOrder = before.book.findOrder
  byClientOrderId : after.book.findOrderByClientOrderId = before.book.findOrderByClientOrderId
  byOrderId : after.book.findOrderByOrderId = before.book.findOrderByOrderId
  phantoms : after.book.getMDLevelQty = before.book.getMDLevelQty
  live : after.book.live = before.book.live
  prints : after.tradeHistory = before.tradeHistory
  reports : ∃ added, after.matching.responses = before.matching.responses ++ added ∧
    added.map (fun response => (response.execType, response.orderStatus, response.orderNum)) = told

omit [OrderBookL3 β] in
@[simp] theorem flushMarketDataCaches_tradeHistory :
    exchange.flushMarketDataCaches.tradeHistory = exchange.tradeHistory := by
  unfold flushMarketDataCaches
  dsimp only
  split <;> split <;> rfl

omit [OrderBookL3 β] in
theorem acceptOrder_tradeHistory (header : RequestHeader) (msg : AddOrderMessage) :
    (exchange.acceptOrder env config header msg).tradeHistory = exchange.tradeHistory := by
  unfold acceptOrder clientIdFor
  dsimp only
  split
  · rfl
  · split <;> rfl

theorem onlyReported_new {header : RequestHeader} {msg : AddOrderMessage} {after : Exchange β} {book : OrderBook β}
    {told : List OrderResponse} (bookIs : after.book = (book.freeOrder (env.pool exchange.book.live)).clearCaches)
    (same : book.ledger (exchange.acceptOrder env config header msg).matching.responses =
      { (exchange.acceptOrder env config header msg).ledger with globals := book.globals })
    (sameL3 : book.l3 = (exchange.acceptOrder env config header msg).book.l3)
    (responses : after.matching.responses = (exchange.acceptOrder env config header msg).matching.responses ++ told)
    (prints : after.tradeHistory = exchange.tradeHistory) :
    exchange.OnlyReported after (env.pool exchange.book.live)
      ((.new, .pendingNew, exchange.book.globals.nextOrderId) ::
        told.map fun response => (response.execType, response.orderStatus, response.orderNum)) := by
  rw [acceptOrder_ledger] at same
  refine ⟨?_, ?_, ?_, ?_, ?_, ?_, ?_, prints, ?_⟩
  · exact (congrArg OrderBook.l3 bookIs).trans (sameL3.trans (@acceptOrder_l3 β exchange env config header msg))
  · intro other _ different
    refine (congrArg (fun book => book.heap other) bookIs).trans ?_
    exact (congrArg (fun ledger => ledger.heap other) same).trans (Function.update_of_ne different _ _)
  · exact (congrArg OrderBook.findOrder bookIs).trans (congrArg Ledger.owner same)
  · exact (congrArg OrderBook.findOrderByClientOrderId bookIs).trans (congrArg Ledger.byClient same)
  · exact (congrArg OrderBook.findOrderByOrderId bookIs).trans (congrArg Ledger.byOrder same)
  · exact (congrArg OrderBook.getMDLevelQty bookIs).trans
      (congrArg (fun ledger price => (ledger.totals price).getD 0) same)
  · refine (congrArg OrderBook.live bookIs).trans ?_
    refine (congrArg (fun ledger => ledger.live.erase (env.pool exchange.book.live)) same).trans ?_
    exact List.erase_cons_head ..
  · let pending := (env.slot exchange.matching.responses.length).writeNewPending
      (exchange.newOrder env config header msg) header.timeStamp
    have pendingIs : (exchange.acceptOrder env config header msg).matching.responses =
        exchange.matching.responses ++ [pending] :=
      congrArg Ledger.responses (acceptOrder_ledger header msg)
    refine ⟨pending :: told, ?_, ?_⟩
    · rw [responses, pendingIs, List.append_assoc]
      rfl
    · rw [List.map_cons, show pending.orderNum = _ from exchange.newOrder_id env config header msg]
      rfl

theorem handleNewOrderRequest_micros {header : RequestHeader} {msg : AddOrderMessage}
    (inv : exchange.ledger.Represents .none)
    (orderFree : exchange.ledger.byOrder (env.uuid exchange.book.globals.uuidDraws) = none)
    (licence : NewOrderLicence permit env config exchange header msg) :
    Micros env permit (.none, exchange.ledger)
      (.none, (exchange.handleNewOrderRequest env config header msg).ledger) := by
  have rejects : ∀ (other : Exchange β) (reason : OrdRejectReason), other.ledger.Represents .none →
      Micros env permit (.none, other.ledger)
        (.none, (other.onMatching fun state => state.rejectNewOrderRequest env header msg reason).ledger) := by
    intro other reason otherInv
    exact MatchState.publishReject_micros (fun _ _ => rfl)
      (licence.reject _ (otherInv.tick (Globals.le_readClock _) _))
  by_cases wrong : header.symbol ≠ config.symbol ∨ exchange.ClientIdTaken msg.clientOrderId
  · obtain ⟨reason, rejected⟩ := @handleNewOrderRequest_rejects _ _ exchange env config header msg wrong
    rw [rejected]
    exact rejects exchange reason inv
  have listed : header.symbol = config.symbol := by
    by_contra unlisted
    exact wrong (.inl unlisted)
  have free : ¬ exchange.ClientIdTaken msg.clientOrderId := fun taken => wrong (.inr taken)
  let accepted := exchange.acceptOrder env config header msg
  have accepts : Micro env permit (.none, exchange.ledger)
      (.pending (env.pool exchange.book.live), accepted.ledger) :=
    acceptOrder_micro header msg (byClient_of_free free) orderFree (licence.accept listed)
  have acceptedInv := accepts.represents inv
  have isOrder := @acceptOrder_order β _ exchange env config header msg
  obtain ⟨reason, summaries, after, added, outcome⟩ := MatchState.addOrder_micros env
    permit config header.timeStamp acceptedInv
    (by rw [isOrder]; rfl) (by rw [isOrder]; rfl)
    (by
      rw [isOrder]
      exact licence.refuse listed)
    (by
      rw [isOrder]
      intro mayRest after entry sameSide drawn side price id
      rw [newOrder_id] at id
      rw [show accepted.matching.ledger = _ from acceptOrder_ledger header msg] at sameSide drawn
      exact licence.join listed mayRest after entry sameSide drawn side price id)
  rw [handleNewOrderRequest_ledger listed free added]
  rcases outcome with ⟨fine, path⟩ | ⟨rfl, freed, path⟩
  · rw [if_neg (by rcases fine with rfl | rfl <;> decide)]
    exact .head accepts path
  · rw [if_pos (by decide)]
    have run : Micros env permit (.none, exchange.ledger)
        (.refused (env.pool exchange.book.live), after.ledger) := .head accepts path
    refine run.trans (MatchState.rejectRefused_micros ?_ ?_)
    · rw [freed]
      show (accepted.matching.order _).clientOrderId = _
      rw [isOrder]
      rfl
    · have refusedInv := (run.represents inv).rehand (show Hand.none.fresh = _ from rfl) rfl
        (by rintro _ ⟨⟩)
      exact licence.reject _ (refusedInv.tick (Globals.le_readClock _) _)

end Exchange

end SlickSim
