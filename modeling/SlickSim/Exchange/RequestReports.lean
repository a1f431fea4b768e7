import SlickSim.Exchange.Reports
import SlickSim.Ledger.Amendments

/-!
# What a request reports

A request takes up one order, the one it creates or the one it finds. Reports on other
orders are fills, or cancellations that prevent a self match; only the order taken up
changes its identity, and a turned away amendment gives it back.
-/

set_option autoImplicit false

namespace SlickSim

namespace MatchState

variable {β : Type} {ref : Nat} {identity : OrderIdentity} {before begun after : MatchState β}

/-- A request takes an order up under an identity and reports it pending. -/
structure Begins (ref : Nat) (identity : OrderIdentity) (before begun : MatchState β) : Prop where
  self : (begun.order ref).identity = identity
  others : ∀ other, other ≠ ref → (begun.order other).identity = (before.order other).identity
  orders : ∀ id, begun.book.findOrder id = before.book.findOrder id
  told : ∃ pending, begun.responses = before.responses ++ [pending] ∧ pending.IsOn identity

/-- A report that answers a request for an order of an identity, given the state before it. -/
inductive Answers (ref : Nat) (identity : OrderIdentity) (state : MatchState β) (response : OrderResponse) :
    Prop
  | own (on : response.IsOn identity)
  | reject (unnamed : response.orderNum = 0) (rejected : response.responseType = .reject)
      (tag : response.requestTag = identity.requestTag)
  | fill {other : Nat} (apart : other ≠ ref) (held : state.book.Holds other)
      (on : response.IsOn (state.order other).identity) (trade : response.execType = .trade)
  | selfMatch {other : Nat} (apart : other ≠ ref) (held : state.book.Holds other)
      (on : response.IsOn (state.order other).identity) (cancel : response.execType = .canceled)
      (mine : identity.clientId = (state.order other).clientId ∧ (state.order other).clientId ≠ -1)

/-- What a request for an order does to the others. -/
structure Handled (ref : Nat) (identity : OrderIdentity) (told : List OrderResponse)
    (before after : MatchState β) : Prop where
  responses : after.responses = before.responses ++ told
  answers : ∀ response ∈ told, before.Answers ref identity response
  others : ∀ other, other ≠ ref → (after.order other).identity = (before.order other).identity
  holds : ∀ {other}, after.book.Holds other → before.book.Holds other ∨ other = ref
  taken : ∃ response ∈ told, response.IsOn identity

def Rejects (told : List OrderResponse) : Prop :=
  ∃ response ∈ told, response.responseType = .reject

instance (told : List OrderResponse) : Decidable (Rejects told) :=
  inferInstanceAs (Decidable (∃ response ∈ told, _))

/-- A match after the order was taken up. -/
theorem Begins.handled (begins : Begins ref identity before begun) (run : begun.Serves (some ref) after) :
    ∃ told, Handled ref identity told before after ∧ ¬ Rejects told ∧
      (after.order ref).identity = identity := by
  obtain ⟨pending, isBegun, onPending⟩ := begins.told
  obtain ⟨told, isTold, reports⟩ := run.reports
  have held : ∀ other, begun.book.Holds other → before.book.Holds other := by
    rintro other ⟨id, found⟩
    exact ⟨id, (begins.orders id).symm.trans found⟩
  have answered : ∀ response ∈ told, before.Answers ref identity response ∧
      response.responseType = .executionReport := by
    intro response member
    -- A report on the order itself is its own, whichever way it came about.
    have sorted : ∀ other, begun.book.Holds other → response.IsOn (begun.order other).identity →
        response.IsOn identity ∨ other ≠ ref ∧ before.book.Holds other ∧
          response.IsOn (before.order other).identity := by
      intro other inside on
      by_cases same : other = ref
      · rw [same, begins.self] at on
        exact .inl on
      · rw [begins.others other same] at on
        exact .inr ⟨same, held other inside, on⟩
    cases reports response member with
    | own acts on =>
        cases acts
        rw [begins.self] at on
        exact ⟨.own on, on.report⟩
    | fill inside on trade =>
        refine ⟨?_, on.report⟩
        rcases sorted _ inside on with own | ⟨apart, held, on⟩
        · exact .own own
        · exact .fill apart held on trade
    | @selfMatch aggressor other acts inside on cancel mine =>
        cases acts
        refine ⟨?_, on.report⟩
        rcases sorted _ inside on with own | ⟨apart, held, on⟩
        · exact .own own
        · refine .selfMatch apart held on cancel ?_
          obtain ⟨sameClient, known⟩ := isSelfMatch_client mine
          have self := congrArg OrderIdentity.clientId begins.self
          have other := congrArg OrderIdentity.clientId (begins.others _ apart)
          exact ⟨self.symm.trans (sameClient.trans other), fun unknown => known (other.trans unknown)⟩
  refine ⟨pending :: told, ⟨?_, ?_, ?_, ?_, pending, List.mem_cons_self, onPending⟩, ?_,
    (run.identity ref).trans begins.self⟩
  · rw [isTold, isBegun, List.append_assoc]
    rfl
  · intro response member
    rcases List.mem_cons.mp member with rfl | later
    · exact .own onPending
    · exact (answered response later).1
  · exact fun other apart => (run.identity other).trans (begins.others other apart)
  · intro other inside
    rcases run.knows inside with earlier | acts
    · exact .inl (held other earlier)
    · exact .inr (Option.some.inj acts).symm
  · rintro ⟨response, member, rejected⟩
    have report : response.responseType = .executionReport := by
      rcases List.mem_cons.mp member with rfl | later
      · exact onPending.report
      · exact (answered response later).2
    rw [report] at rejected
    cases rejected

theorem Handled.rejects {told : List OrderResponse} (handled : Handled ref identity told before after)
    {last : MatchState β} {reject : OrderResponse} (isLast : last.responses = after.responses ++ [reject])
    (others : ∀ other, other ≠ ref → (last.order other).identity = (after.order other).identity)
    (orders : ∀ id, last.book.findOrder id = after.book.findOrder id) (unnamed : reject.orderNum = 0)
    (rejected : reject.responseType = .reject) (tag : reject.requestTag = identity.requestTag) :
    Handled ref identity (told ++ [reject]) before last ∧ Rejects (told ++ [reject]) := by
  obtain ⟨pending, member, onPending⟩ := handled.taken
  refine ⟨⟨?_, ?_, ?_, ?_, pending, List.mem_append_left _ member, onPending⟩, reject, by simp, rejected⟩
  · rw [isLast, handled.responses, List.append_assoc]
  · intro response member
    rcases List.mem_append.mp member with earlier | last
    · exact handled.answers response earlier
    · rw [List.mem_singleton.mp last]
      exact .reject unnamed rejected tag
  · exact fun other apart => (others other apart).trans (handled.others other apart)
  · rintro other ⟨id, found⟩
    exact handled.holds ⟨id, (orders id).symm.trans found⟩

end MatchState

namespace Exchange

variable {β : Type} [OrderBookL3 β] {env : Environment} {config : SymbolConfig} {exchange : Exchange β}
  {header : RequestHeader} {ref : Nat}

open MatchState

/-- The identity of an order while it answers to a request. -/
def identityUnder (exchange : Exchange β) (ref : Nat) (header : RequestHeader) : OrderIdentity :=
  { (exchange.matching.order ref).identity with requestTag := header.requestTag }

omit [OrderBookL3 β] in
private theorem mark_begins {book : OrderBook β} {change : Order → Order}
    {write : OrderResponse → OrderResponse}
    (heap : book.heap = exchange.book.heap) (orders : book.orders = exchange.book.orders)
    (marks : ∀ order : Order, (change order).identity =
      { order.identity with requestTag := header.requestTag })
    (on : ∀ slot, (write slot).IsOn (change (exchange.matching.order ref)).identity) :
    Begins ref (exchange.identityUnder ref header) exchange.matching
      (({ exchange.matching with book := book.updateOrder ref change } : MatchState β).publish env write) where
  self := by
    show (Function.update book.heap ref (change (book.heap ref)) ref).identity = _
    rw [Function.update_self, marks, heap]
    rfl
  others := by
    intro other apart
    show (Function.update book.heap ref (change (book.heap ref)) other).identity = _
    rw [Function.update_of_ne apart, heap]
    rfl
  orders := by
    intro id
    show book.orders.lookup id = exchange.book.orders.lookup id
    rw [orders]
  told := by
    refine ⟨_, rfl, ?_⟩
    rw [show exchange.identityUnder ref header = (change (exchange.matching.order ref)).identity from
      (marks _).symm]
    exact on _

theorem handleCancelOrderRequest_handled {msg : CancelOrderMessage} (listed : header.symbol = config.symbol)
    (selected : selectOrder exchange.book msg.clientOrderId msg.orderId = some ref) :
    ∃ told, Handled ref (exchange.identityUnder ref header) told exchange.matching
        (exchange.handleCancelOrderRequest env config header msg).matching ∧ ¬ Rejects told ∧
      ((exchange.handleCancelOrderRequest env config header msg).matching.order ref).identity =
        exchange.identityUnder ref header := by
  have begins : Begins ref (exchange.identityUnder ref header) exchange.matching
      ((exchange.matching.onBook fun book => book.updateOrder ref
        (beginCancel header.requestTag)).sendOrderCancelPending env ref header.timeStamp) := by
    refine mark_begins rfl rfl (fun _ => rfl) ?_
    intro slot
    rw [show (exchange.matching.onBook fun book => book.updateOrder ref
      (beginCancel header.requestTag)).order ref = beginCancel header.requestTag
        (exchange.matching.order ref) from Function.update_self ..]
    exact ⟨rfl, rfl, rfl, rfl, rfl, rfl, rfl⟩
  have cancelled : ((exchange.onBook fun book => book.updateOrder ref
      (beginCancel header.requestTag)).onMatching fun state =>
        state.sendOrderCancelPending env ref header.timeStamp).Serves (some ref)
      ((exchange.onBook fun book => book.updateOrder ref (beginCancel header.requestTag)).onMatching
        fun state => (state.sendOrderCancelPending env ref header.timeStamp).cancelOrder env ref
          header.timeStamp) :=
    ⟨cancelOrder_serves env (MatchState.Serves.refl _) rfl header.timeStamp, rfl, rfl⟩
  unfold handleCancelOrderRequest
  rw [if_neg (fun unlisted => unlisted listed), selected]
  exact begins.handled cancelled.flushMarketDataCaches.matching

private def takeUp (exchange : Exchange β) (env : Environment) (header : RequestHeader) (ref : Nat) :
    Exchange β :=
  (exchange.onBook fun book => book.readClock.updateOrder ref
    (beginReplace header.requestTag (exchange.book.currentTime env))).onMatching fun state =>
      state.sendOrderReplacePending env ref header.timeStamp

omit [OrderBookL3 β] in
private theorem takeUp_begins :
    Begins ref (exchange.identityUnder ref header) exchange.matching
      (exchange.takeUp env header ref).matching := by
  refine @mark_begins β env exchange header ref exchange.book.readClock
    (beginReplace header.requestTag (exchange.book.currentTime env))
    (fun slot => slot.writeReplacePending _ header.timeStamp) rfl rfl (fun _ => rfl) ?_
  intro slot
  rw [show (exchange.onBook fun book => book.readClock.updateOrder ref
    (beginReplace header.requestTag (exchange.book.currentTime env))).matching.order ref =
      beginReplace header.requestTag (exchange.book.currentTime env) (exchange.matching.order ref) from
    Function.update_self ..]
  exact ⟨rfl, rfl, rfl, rfl, rfl, rfl, rfl⟩

omit [OrderBookL3 β] in
/-- What a turned away amendment leaves: the order has its tag back, and a reject is told. -/
private theorem restore_handled {last : Exchange β} {told : List OrderResponse} {msg : ModifyOrderMessage}
    {reason : OrdRejectReason}
    (handled : Handled ref (exchange.identityUnder ref header) told exchange.matching last.matching)
    (kept : (last.matching.order ref).identity = exchange.identityUnder ref header) :
    let restored := ((last.onBook fun book => book.updateOrder ref fun order =>
      { order with requestTag := (exchange.matching.order ref).requestTag }).onMatching fun state =>
        state.rejectModifyOrderRequest env header msg reason).flushMarketDataCaches
    ∃ told, Handled ref (exchange.identityUnder ref header) told exchange.matching restored.matching ∧
      Rejects told ∧ (restored.matching.order ref).identity = (exchange.matching.order ref).identity := by
  intro restored
  have isRestored : restored.matching = ((last.matching.onBook fun book => book.updateOrder ref fun order =>
      { order with requestTag := (exchange.matching.order ref).requestTag }).rejectModifyOrderRequest env
        header msg reason).onBook OrderBook.clearCaches := flushMarketDataCaches_matching
  rw [isRestored]
  have sameHeap : ∀ other, other ≠ ref → (((last.matching.onBook fun book => book.updateOrder ref
      fun order => { order with
        requestTag := (exchange.matching.order ref).requestTag }).rejectModifyOrderRequest env header msg
        reason).onBook OrderBook.clearCaches).order other = last.matching.order other :=
    fun other apart => Function.update_of_ne apart ..
  obtain ⟨handled, rejected⟩ := @Handled.rejects _ _ _ _ _ _ handled
    (((last.matching.onBook fun book => book.updateOrder ref fun order =>
      { order with requestTag := (exchange.matching.order ref).requestTag }).rejectModifyOrderRequest env
        header msg reason).onBook OrderBook.clearCaches)
    _ rfl (fun other apart => by rw [sameHeap other apart]) (fun _ => rfl) rfl rfl rfl
  refine ⟨_, handled, rejected, ?_⟩
  show (Function.update last.matching.book.heap ref _ ref).identity = _
  rw [Function.update_self]
  have restores : ∀ order : Order, order.identity = exchange.identityUnder ref header →
      ({ order with requestTag := (exchange.matching.order ref).requestTag } : Order).identity =
        (exchange.matching.order ref).identity := by
    intro order under
    show { order.identity with requestTag := (exchange.matching.order ref).identity.requestTag } = _
    rw [under]
    rfl
  exact restores _ kept

private theorem handleModifyOrderRequest_takeUp {msg : ModifyOrderMessage}
    (listed : header.symbol = config.symbol)
    (selected : selectOrder exchange.book msg.clientOrderId msg.orderId = some ref) :
    exchange.handleModifyOrderRequest env config header msg =
      let begun := exchange.takeUp env header ref
      let (rejectReason, summaries, matching) :=
        begun.matching.modifyOrder env config ref msg.newPrice msg.newQty header.timeStamp
      let published := { begun with matching }.publishTradeSummaries summaries
      (if rejectReason ≠ .none then
        (published.onBook fun book => book.updateOrder ref fun order =>
          { order with requestTag := (exchange.matching.order ref).requestTag }).onMatching fun state =>
            state.rejectModifyOrderRequest env header msg rejectReason
      else published).flushMarketDataCaches := by
  unfold handleModifyOrderRequest
  rw [if_neg (fun unlisted => unlisted listed), selected]
  rfl

/-- An amendment that finds its order keeps the request's tag on it unless it is turned
away. -/
theorem handleModifyOrderRequest_handled {msg : ModifyOrderMessage} (listed : header.symbol = config.symbol)
    (selected : selectOrder exchange.book msg.clientOrderId msg.orderId = some ref) :
    ∃ told, Handled ref (exchange.identityUnder ref header) told exchange.matching
        (exchange.handleModifyOrderRequest env config header msg).matching ∧
      ((exchange.handleModifyOrderRequest env config header msg).matching.order ref).identity =
        if Rejects told then (exchange.matching.order ref).identity
        else exchange.identityUnder ref header := by
  have modified := modifyOrder_serves env config (MatchState.Serves.refl (exchange.takeUp env header ref).matching)
    (show some ref = some ref from rfl) msg.newPrice msg.newQty header.timeStamp
  rw [handleModifyOrderRequest_takeUp listed selected]
  dsimp only
  generalize (exchange.takeUp env header ref).matching.modifyOrder env config ref msg.newPrice msg.newQty
    header.timeStamp = result at modified ⊢
  obtain ⟨reason, summaries, after⟩ := result
  have matched : (exchange.takeUp env header ref).Serves (some ref)
      { exchange.takeUp env header ref with matching := after } := ⟨modified, rfl, rfl⟩
  have published := matched.publishTradeSummaries summaries
  dsimp only at published ⊢
  by_cases refused : reason ≠ .none
  · rw [if_pos refused]
    obtain ⟨told, handled, -, kept⟩ := takeUp_begins.handled published.matching
    obtain ⟨told, handled, rejected, restored⟩ := @restore_handled β env exchange header ref _ told msg reason
      handled kept
    refine ⟨told, handled, ?_⟩
    rw [if_pos rejected]
    exact restored
  · rw [if_neg refused]
    obtain ⟨told, handled, accepted, kept⟩ := takeUp_begins.handled published.flushMarketDataCaches.matching
    refine ⟨told, handled, ?_⟩
    rw [if_neg accepted]
    exact kept

/-! ## New orders -/

private theorem acceptOrder_begins (msg : AddOrderMessage) :
    Begins (env.pool exchange.book.live) (exchange.newOrder env config header msg).identity
      exchange.matching (exchange.acceptOrder env config header msg).matching where
  self := by rw [acceptOrder_order]
  others := by
    intro other apart
    have heapIs := congrArg (fun ledger => ledger.heap other)
      (@acceptOrder_ledger β _ exchange env config header msg)
    exact congrArg Order.identity (heapIs.trans (Function.update_of_ne apart ..))
  orders := fun id => congrArg (fun ledger => ledger.owner id)
    (@acceptOrder_ledger β _ exchange env config header msg)
  told := by
    refine ⟨_, congrArg Ledger.responses (@acceptOrder_ledger β _ exchange env config header msg), ?_⟩
    exact ⟨rfl, rfl, rfl, rfl, rfl, rfl, rfl⟩

/-- A new order that is turned away after all was never in the maps. -/
theorem handleNewOrderRequest_handled {msg : AddOrderMessage} (inv : exchange.ledger.Represents .none)
    (orderFree : exchange.ledger.byOrder (env.uuid exchange.book.globals.uuidDraws) = none)
    (listed : header.symbol = config.symbol) (free : ¬ exchange.ClientIdTaken msg.clientOrderId) :
    let ref := env.pool exchange.book.live
    let after := (exchange.handleNewOrderRequest env config header msg).matching
    ∃ told, Handled ref (exchange.newOrder env config header msg).identity told exchange.matching after ∧
      (after.order ref).identity = (exchange.newOrder env config header msg).identity ∧
      (Rejects told → ¬ after.book.Holds ref) ∧
      ∀ response ∈ told, response.responseType = .reject → response.rejectReason = .smp := by
  intro ref last
  have accepts : Micro env .all (.none, exchange.ledger)
      (.pending ref, (exchange.acceptOrder env config header msg).ledger) :=
    acceptOrder_micro header msg (byClient_of_free free) orderFree trivial
  have isOrder := @acceptOrder_order β _ exchange env config header msg
  obtain ⟨reason, summaries, after, added, outcome⟩ := MatchState.addOrder_micros env .all config
    header.timeStamp (accepts.represents inv) (by rw [isOrder]; rfl) (by rw [isOrder]; rfl)
    (fun _ => trivial) (fun _ _ _ _ _ _ _ _ => trivial)
  have served := addOrder_serves env config (MatchState.Serves.refl
    (exchange.acceptOrder env config header msg).matching) (show some ref = some ref from rfl) header.timeStamp
  rw [added] at served
  obtain ⟨told, handled, accepted, kept⟩ := (acceptOrder_begins msg).handled served
  have isLast := handleNewOrderRequest_ledger listed free added
  have sameOrder : ∀ (result : MatchState β) (other : Nat), last.ledger = result.ledger →
      last.order other = result.order other :=
    fun _ other same => congrArg (fun ledger => ledger.heap other) same
  rcases outcome with ⟨fine, -⟩ | ⟨rfl, freed, -⟩
  · rw [if_neg (by rcases fine with rfl | rfl <;> decide)] at isLast
    have isLast : last.ledger = after.ledger := isLast
    refine ⟨told, ⟨?_, handled.answers, ?_, ?_, handled.taken⟩, ?_, fun rejected => absurd rejected accepted,
      fun response member rejected => absurd ⟨response, member, rejected⟩ accepted⟩
    · exact (congrArg Ledger.responses isLast).trans handled.responses
    · intro other apart
      rw [sameOrder after other isLast]
      exact handled.others other apart
    · rintro other ⟨id, found⟩
      exact handled.holds ⟨id, (congrArg (fun ledger => ledger.owner id) isLast).symm.trans found⟩
    · rw [sameOrder after ref isLast]
      exact kept
  · rw [if_pos (by decide)] at isLast
    have isLast : last.ledger = (after.rejectNewOrderRequest env header msg .smp).ledger := isLast
    have sameHeap : ∀ other, last.order other = after.order other :=
      fun other => sameOrder (after.rejectNewOrderRequest env header msg .smp) other isLast
    obtain ⟨handled, rejected⟩ := @Handled.rejects _ _ _ _ _ _ handled last
      ((env.slot after.responses.length).writeRejectNew header msg .smp (after.book.currentTime env))
      (congrArg Ledger.responses isLast) (fun other _ => congrArg Order.identity (sameHeap other))
      (fun id => congrArg (fun ledger => ledger.owner id) isLast) rfl rfl rfl
    refine ⟨_, handled, ?_, ?_, ?_⟩
    · rw [sameHeap]
      exact kept
    · rintro - ⟨id, found⟩
      have inside : exchange.ledger.owner id = some ref := by
        have sameOwner := congrArg (fun ledger => ledger.owner id) isLast
        have freedOwner := congrArg (fun ledger => ledger.owner id) freed
        have acceptedOwner := congrArg (fun ledger => ledger.owner id)
          (@acceptOrder_ledger β _ exchange env config header msg)
        exact acceptedOwner.symm.trans (freedOwner.symm.trans (sameOwner.symm.trans found))
      have live := inv.indexed.live_iff.mpr (.inl (inv.indexed.registered inside))
      exact env.pool_fresh _ live
    · intro response member isReject
      rcases List.mem_append.mp member with earlier | last
      · exact absurd ⟨response, earlier, isReject⟩ accepted
      · rw [List.mem_singleton.mp last]
        rfl

/-! ## Inputs -/

section Inputs

variable {input : Input}

def Anything (_ : Exchange β) (_ : Input) : Prop :=
  True

instance (exchange : Exchange β) (input : Input) : Decidable (exchange.Anything input) :=
  isTrue trivial

/-- The reports an input causes. -/
def reportsOf (exchange : Exchange β) (env : Environment) (config : SymbolConfig) (input : Input) :
    List OrderResponse :=
  (exchange.step env config input).matching.responses.drop exchange.matching.responses.length

theorem reportsOf_eq {told : List OrderResponse}
    (isTold : (exchange.step env config input).matching.responses = exchange.matching.responses ++ told) :
    exchange.reportsOf env config input = told := by
  unfold reportsOf
  rw [isTold, List.drop_left]

end Inputs

section Maps

variable (inv : exchange.ledger.Represents .none)

include inv in
theorem holds_number {ref : Nat} (held : exchange.book.Holds ref) :
    exchange.book.findOrder (exchange.matching.order ref).id = some ref ∧
      (exchange.matching.order ref).id ≠ 0 ∧
      (exchange.matching.order ref).id < exchange.book.globals.nextOrderId := by
  obtain ⟨id, found⟩ := held
  have found : exchange.ledger.owner id = some ref := found
  have registered := inv.indexed.registered found
  have owned := inv.indexed.registered_owned registered
  exact ⟨registered, owned.1, inv.indexed.owned_bound owned⟩

include inv in
theorem holds_apart {ref other : Nat} (held : exchange.book.Holds ref) (different : other ≠ ref)
    (otherHeld : exchange.book.Holds other) :
    (exchange.matching.order other).id ≠ (exchange.matching.order ref).id := by
  intro same
  have found := (holds_number inv otherHeld).1
  rw [same, (holds_number inv held).1] at found
  exact different (Option.some.inj found).symm

include inv in
theorem selectOrder_holds {clientOrderId orderId : Name} {ref : Nat}
    (selected : selectOrder exchange.book clientOrderId orderId = some ref) : exchange.book.Holds ref :=
  ⟨_, selectOrder_registered inv selected⟩

end Maps

end Exchange

end SlickSim
