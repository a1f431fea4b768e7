import SlickSim.Properties.StoredOrders
import SlickSim.Properties.UserReplica

/-!
# What a subscriber of the user channel knows of the book

The exchange reports on a queue. The gateway drains it in batches, folds what it reads and sends
each user its own, and a client puts the updates over the snapshot it was answered with. At the
end of that way, once the queue is drained, stands the order as it rests in the book.
-/

set_option autoImplicit false

namespace SlickSim

/-! ## Whose reports they are -/

/-- The reports of a life are one user's. -/
def Life.OfUser : Life → List OrderResponse → Prop
  | .alive _ order, reports => ∀ report ∈ reports, report.userId = order.userId
  | _, reports => ∃ user, ∀ report ∈ reports, report.userId = user

theorem LifeStep.ofUser {terms : Terms} {before after : Life × List OrderResponse}
    (step : LifeStep terms before after) (ofUser : before.1.OfUser before.2) : after.1.OfUser after.2 := by
  have appended : ∀ {reports : List OrderResponse} {report : OrderResponse} {user : Name},
      (∀ report ∈ reports, report.userId = user) → report.userId = user →
        ∀ other ∈ reports ++ [report], other.userId = user := by
    intro reports report user all last other member
    rcases List.mem_append.mp member with earlier | isLast
    · exact all other earlier
    · rw [List.mem_singleton.mp isLast]
      exact last
  cases step with
  | accept => exact List.forall_mem_singleton.mpr rfl
  | ack | aggress | fillPartly | cancelHand | startAmend | replace | cancelAmended | startCancel =>
      exact appended ofUser rfl
  | fillFully | cancelResting => exact ⟨_, appended ofUser rfl⟩
  | refuse | dropDone | dropFilled | amendGone => exact ⟨_, ofUser⟩
  | touch | rest | abortAmend | amendRests => exact ofUser

theorem Life.ofUser_of_run {terms : Terms} {state : Life × List OrderResponse}
    (run : Relation.ReflTransGen (LifeStep terms) (.unborn, []) state) : state.1.OfUser state.2 := by
  induction run with
  | refl => exact ⟨default, by rintro _ ⟨⟩⟩
  | tail _ step ih => exact step.ofUser ih

theorem Life.OfUser.same {life : Life} {reports : List OrderResponse} (ofUser : life.OfUser reports)
    {report other : OrderResponse} (told : report ∈ reports) (also : other ∈ reports) :
    other.userId = report.userId := by
  cases life with
  | alive stage order => exact (ofUser other also).trans (ofUser report told).symm
  | unborn | turnedAway | gone =>
      obtain ⟨user, all⟩ := ofUser
      exact (all other also).trans (all report told).symm

/-! ## The way of a report -/

/-- What a client is told are the terms of an order that rests. -/
structure OrderTerms.Shows (terms : OrderTerms) (order : Order) : Prop where
  buys : terms.buys = decide (order.side = .buy)
  type : terms.type = order.type
  leaves : terms.leaves = order.leavesQuantity
  unfinished : 0 < terms.leaves
  filled : terms.amending = true ∨ terms.filled = order.cumQuantity
  limitPrice : ∀ price ∈ terms.limitPrice, price = order.price
  priced : terms.amending = true ∨
    (order.type = .limit → order.timeInForce = .goodTillCancel → terms.limitPrice = some order.price)

theorem OrderResponse.Gives.terms_shows {last : OrderResponse} {order entry : Order} {terms : OrderTerms}
    (gives : last.Gives order) (unfinished : 0 < order.leavesQuantity) (restates : entry.Restates last)
    (tells : terms.Tells entry) : terms.Shows order where
  buys := by rw [tells.buys, restates.side, gives.side]
  type := by rw [tells.type, restates.type, gives.type]
  leaves := by rw [tells.leaves, restates.leaves, gives.leaves]
  unfinished := by rwa [tells.leaves, restates.leaves, gives.leaves]
  filled := by
    rw [tells.amending, tells.filled, restates.status, restates.filled, decide_eq_true_iff]
    exact gives.filled
  limitPrice := by
    rw [← gives.price, ← restates.price]
    exact tells.limitPrice
  priced := by
    rw [tells.amending, restates.status, decide_eq_true_iff]
    refine gives.timeInForce.imp_right fun sameTime => ?_
    rw [← gives.type, ← sameTime, ← gives.price, ← restates.type, ← restates.timeInForce, ← restates.price]
    intro isLimit rests
    obtain ⟨price, isPrice⟩ := Option.isSome_iff_exists.mp (tells.priced isLimit rests)
    rw [isPrice, tells.limitPrice price isPrice]

namespace Exchange

variable {β : Type} [OrderBookL3 β] {env : Environment} {config : SymbolConfig} {exchange : Exchange β}

/-- A response under the order id of an order is on that order, and so its user's, or a reject. -/
theorem Reachable.same_user (reachable : Reachable env config (WellListed env) exchange)
    {report other : OrderResponse} (told : report ∈ exchange.matching.responses) (numbered : report.orderNum ≠ 0)
    (also : other ∈ exchange.matching.responses) (isReport : other.orderNum ≠ 0)
    (sameId : other.orderId = report.orderId) : other.userId = report.userId := by
  obtain ⟨names, storied⟩ := reachable.named (.listed config) (fun _ _ _ permitted => permitted.2)
    fun _ _ _ _ listed => wellListed_licence listed
  obtain ⟨life, -, past⟩ := storied _ numbered
  have sameNumber := (names.names other also report told isReport numbered).mp sameId
  exact (Life.ofUser_of_run past).same (List.mem_filter.mpr ⟨told, decide_eq_true rfl⟩)
    (List.mem_filter.mpr ⟨also, decide_eq_true sameNumber⟩)

end Exchange

namespace CoinbaseWsOrderGateway

open Exchange (Reachable WellListed)

variable {β : Type} [OrderBookL3 β] {env : Environment} {config : SymbolConfig} {exchange : Exchange β}

/-- Whenever the gateway has read all the exchange has reported, a client whose socket serves it
since it subscribed knows its order as it rests in the book, and knows of an order that is gone
that nothing of it is left. Requests that were refused under the order's id leave a reject
behind; the order is then not shown. -/
theorem client_knows_book (reachable : Reachable env config (WellListed env) exchange) {report last : OrderResponse}
    (told : report ∈ exchange.matching.responses) (numbered : report.orderNum ≠ 0)
    (named : report.orderId.isEmpty = false)
    (isLast : last ∈ (responsesUnder exchange.matching.responses report.orderId).getLast?)
    (isReport : last.orderNum ≠ 0) (settled : last.orderStatus ≠ .pendingNew)
    (rejects : ∀ response ∈ exchange.matching.responses, response.orderId = report.orderId →
      response.orderNum = 0 → response.userId = report.userId)
    (pongTimeout : Nat) (past later : List GatewayEvent) (ws : Nat) {sub : List UInt8}
    (isUser : report.userId.bytes = userOfSubject sub) (present : userOfSubject sub ≠ []) :
    let gateway := new.run pongTimeout past
    let subscribed := gateway.step pongTimeout (.message ws (.subscribe (some sub) (some .user)))
    let now := subscribed.run pongTimeout later
    let updates := ((now.updates.drop subscribed.updates.length).filter fun sent => decide (sent.1 = ws)).map Prod.snd
    ∀ (seqNum : Nat) (orders : List OrderJson), (ws, .orders seqNum orders) ∈ subscribed.sent.drop gateway.sent.length →
      Along (step pongTimeout) (fun gateway _ => Serving ws (userOfSubject sub) gateway) subscribed later →
      now.terminated = false → published (past ++ later) = exchange.matching.responses → now.unread = [] →
        ∃ terms, clientView orders updates report.orderId = some terms ∧
          (∀ ref, exchange.book.findOrder report.orderNum = some ref → terms.Shows (exchange.book.heap ref)) ∧
          (exchange.book.findOrder report.orderNum = none → terms.leaves = 0) := by
  intro gateway subscribed now updates seqNum orders isSent serving running queue drained
  have own : ∀ response ∈ published (past ++ later), response.orderId = report.orderId →
      response.userId.bytes = userOfSubject sub := by
    rw [queue]
    intro response member sameId
    refine (congrArg FixedString.bytes ?_).trans isUser
    rcases Nat.eq_zero_or_pos response.orderNum with unnumbered | isNumbered
    · exact rejects response member sameId unnumbered
    · exact reachable.same_user told numbered member isNumbered.ne' sameId
  have split : published (past ++ later) = exchange.matching.responses ++ now.unread := by
    rw [show now.unread = [] from drained, List.append_nil, queue]
  obtain ⟨entry, found, restates⟩ := OrderStore.replay_restates named isLast
  have isKnown := clientView_run pongTimeout past later ws sub present seqNum orders _ report.orderId isSent serving
    running split named own fun other isOther => Option.some.inj (isLast.symm.trans isOther) ▸ settled
  rw [found] at isKnown
  obtain ⟨terms, isView, tells⟩ := isKnown
  refine ⟨terms, isView, ?_⟩
  obtain ⟨rests, gone⟩ := (reachable.last_response told numbered isLast).2 isReport
  refine ⟨fun ref held => (rests ref held).2.terms_shows (rests ref held).1 restates tells, fun absent => ?_⟩
  rcases gone absent with closes | ⟨pending, -⟩
  · rw [tells.leaves, restates.leaves, closes.leaves]
  · exact absurd pending settled

/-- A bid of five that rests before its client subscribes, and of which two are bought after that. -/
theorem client_knows_book_partFilled :
    let env : Environment := .counted fun _ => default
    let bid : Input := .newOrder Input.header
      { userId := Name.copyWireField [65], clientOrderId := Environment.countedName 1, side := .buy, type := .limit
        timeInForce := .goodTillCancel, price := 100, qty := 5 }
    let exchange := (Exchange.new (fun _ => default) true : Exchange ReferenceBook).run env (.reference .cancelResting)
      [bid, .limit 2 .sell 100 2]
    let responses := exchange.matching.responses
    let report := responses[0]?.getD default
    let past : List GatewayEvent := .connect 0 0 :: (responses.take 2).map .respond ++ [.processAllResponses]
    let later : List GatewayEvent := (responses.drop 2).map .respond ++ [.processAllResponses]
    let gateway := new.run 30 past
    let subscribed := gateway.step 30 (.message 0 (.subscribe (some [65]) (some .user)))
    let now := subscribed.run 30 later
    let updates := ((now.updates.drop subscribed.updates.length).filter fun sent => decide (sent.1 = 0)).map Prod.snd
    ∃ terms ref, clientView (gateway.snapshot [65]) updates report.orderId = some terms ∧
      exchange.book.findOrder report.orderNum = some ref ∧ terms.Shows (exchange.book.heap ref) ∧
      (exchange.book.heap ref).leavesQuantity = 3 := by
  intro env bid exchange responses report past later gateway subscribed now updates
  have start : Reachable env (.reference .cancelResting) (WellListed env)
      (Exchange.new (fun _ => default) true : Exchange ReferenceBook) := .new _ _
  have reachable : Reachable env (.reference .cancelResting) (WellListed env) exchange := start.run (by decide +kernel)
  have told : report ∈ responses := by decide +kernel
  have isReport : report.orderNum ≠ 0 ∧ report.orderId.isEmpty = false ∧ report.userId.bytes = [65] := by decide +kernel
  have last : ∃ last ∈ (responsesUnder responses report.orderId).getLast?,
      last.orderNum ≠ 0 ∧ last.orderStatus ≠ .pendingNew :=
    ⟨(responsesUnder responses report.orderId).getLast?.getD default, by decide +kernel, by decide +kernel⟩
  have rejects : ∀ response ∈ responses, response.orderId = report.orderId → response.orderNum = 0 →
      response.userId = report.userId := by decide +kernel
  have rests : ∃ ref, exchange.book.findOrder report.orderNum = some ref ∧
      (exchange.book.heap ref).leavesQuantity = 3 :=
    ⟨(exchange.book.findOrder report.orderNum).getD 0, by decide +kernel, by decide +kernel⟩
  have isSent : (0, .orders 0 (gateway.snapshot [65])) ∈ subscribed.sent.drop gateway.sent.length := by decide +kernel
  have caughtUp : Along (step 30) (fun gateway _ => Serving 0 [65] gateway) subscribed later ∧
      now.terminated = false ∧ published (past ++ later) = responses ∧ now.unread = [] := by decide +kernel
  obtain ⟨last, isLast, lastReport, settled⟩ := last
  obtain ⟨ref, isRef, left⟩ := rests
  clear_value past later report exchange
  obtain ⟨terms, isView, shows, -⟩ :=
    @client_knows_book ReferenceBook _ env (.reference .cancelResting) exchange reachable report last told isReport.1
      isReport.2.1 isLast lastReport settled rejects 30 past later 0 [65] isReport.2.2 (by decide) 0
      (gateway.snapshot [65]) isSent caughtUp.1 caughtUp.2.1 caughtUp.2.2.1 caughtUp.2.2.2
  exact ⟨terms, ref, isView, isRef, shows ref isRef, left⟩

end CoinbaseWsOrderGateway

end SlickSim
