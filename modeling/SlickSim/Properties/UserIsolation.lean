import SlickSim.OrderBook.Reference
import SlickSim.Exchange.RequestReports
import SlickSim.Ledger.Bystanders
import SlickSim.Properties.ReportLifecycle

/-!
# Whose orders a request reaches

Orders are found by their names alone, across all users of a symbol. What a request does
to an order it does not name is matching: a fill, or a cancellation that prevents a self
match between orders of one user.
-/

set_option autoImplicit false

namespace SlickSim

namespace Exchange

variable {β : Type} [OrderBookL3 β] {env : Environment} {config : SymbolConfig} {exchange : Exchange β}
  {input : Input} {header : RequestHeader}

open MatchState (Rejects Handled)

/-! ## Client numbers -/

/-- Users have numbers of their own, and every order in the maps has its user's. -/
structure Numbered (exchange : Exchange β) : Prop where
  client : ∀ ref, exchange.book.Holds ref →
    (exchange.matching.order ref).userId.isEmpty = true ∧ (exchange.matching.order ref).clientId = -1 ∨
      (exchange.matching.order ref).userId.isEmpty = false ∧
        exchange.clientIds.lookup (exchange.matching.order ref).userId =
          some (exchange.matching.order ref).clientId
  distinct : ∀ {left right number}, exchange.clientIds.lookup left = some number →
    exchange.clientIds.lookup right = some number → left = right
  bounded : ∀ {user number}, exchange.clientIds.lookup user = some number →
    number < exchange.nextClientId

omit [OrderBookL3 β] in
/-- Orders of one client number are orders of one user. -/
theorem Numbered.sameUser (numbered : exchange.Numbered) {ref other : Nat} (held : exchange.book.Holds ref)
    (otherHeld : exchange.book.Holds other)
    (same : (exchange.matching.order ref).clientId = (exchange.matching.order other).clientId)
    (known : (exchange.matching.order other).clientId ≠ -1) :
    (exchange.matching.order other).userId = (exchange.matching.order ref).userId ∧
      (exchange.matching.order ref).userId.isEmpty = false := by
  rcases numbered.client other otherHeld with ⟨-, unknown⟩ | ⟨-, isOther⟩
  · exact absurd unknown known
  rcases numbered.client ref held with ⟨-, unknown⟩ | ⟨named, isRef⟩
  · exact absurd (same.symm.trans unknown) known
  rw [same] at isRef
  exact ⟨numbered.distinct isOther isRef, named⟩

omit [OrderBookL3 β] in
/-- Orders keep their users and numbers. -/
theorem Numbered.transport {after : Exchange β} (numbered : exchange.Numbered)
    (holds : ∀ ref, after.book.Holds ref → exchange.book.Holds ref)
    (same : ∀ ref, after.book.Holds ref →
      (after.matching.order ref).userId = (exchange.matching.order ref).userId ∧
        (after.matching.order ref).clientId = (exchange.matching.order ref).clientId)
    (clientIds : after.clientIds = exchange.clientIds)
    (nextClientId : after.nextClientId = exchange.nextClientId) : after.Numbered where
  client := by
    intro ref held
    rw [(same ref held).1, (same ref held).2, clientIds]
    exact numbered.client ref (holds ref held)
  distinct := by
    rw [clientIds]
    exact numbered.distinct
  bounded := by
    rw [clientIds, nextClientId]
    exact numbered.bounded

section Clients

omit [OrderBookL3 β]

def clients (exchange : Exchange β) : AList (fun _ : Name => Int) × Int :=
  (exchange.clientIds, exchange.nextClientId)

@[simp] theorem onMatching_clients (change : MatchState β → MatchState β) :
    (exchange.onMatching change).clients = exchange.clients := rfl

@[simp] theorem onBook_clients (change : OrderBook β → OrderBook β) :
    (exchange.onBook change).clients = exchange.clients := rfl

@[simp] theorem publishTradeSummaries_clients (summaries : List TradeSummaryInfo) :
    (exchange.publishTradeSummaries summaries).clients = exchange.clients := by
  have run := (@Serves.refl _ none exchange).publishTradeSummaries summaries
  exact Prod.ext run.clientIds run.nextClientId

@[simp] theorem flushMarketDataCaches_clients :
    exchange.flushMarketDataCaches.clients = exchange.clients := by
  have run := (@Serves.refl _ none exchange).flushMarketDataCaches
  exact Prod.ext run.clientIds run.nextClientId

end Clients

theorem handleModifyOrderRequest_clients (msg : ModifyOrderMessage) :
    (exchange.handleModifyOrderRequest env config header msg).clients = exchange.clients := by
  unfold handleModifyOrderRequest
  split
  · rfl
  · split
    · rfl
    · dsimp only
      rw [flushMarketDataCaches_clients]
      split
      · rw [onMatching_clients, onBook_clients, publishTradeSummaries_clients]
        rfl
      · rw [publishTradeSummaries_clients]
        rfl

theorem handleCancelOrderRequest_clients (msg : CancelOrderMessage) :
    (exchange.handleCancelOrderRequest env config header msg).clients = exchange.clients := by
  unfold handleCancelOrderRequest
  split
  · rfl
  · split
    · rfl
    · rw [flushMarketDataCaches_clients]
      rfl

theorem handleNewOrderRequest_clients {msg : AddOrderMessage} (listed : header.symbol = config.symbol)
    (free : ¬ exchange.ClientIdTaken msg.clientOrderId) :
    (exchange.handleNewOrderRequest env config header msg).clients =
      (exchange.clientIdFor msg.userId).2.clients := by
  have numbers : ∀ change : OrderBook β → OrderBook β,
      ((exchange.onBook change).clientIdFor msg.userId).2.clients =
        (exchange.clientIdFor msg.userId).2.clients := by
    intro change
    unfold clientIdFor
    rw [show (exchange.onBook change).clientIds = exchange.clientIds from rfl]
    split
    · rfl
    · split <;> rfl
  unfold handleNewOrderRequest
  rw [if_neg (fun unlisted => unlisted listed), if_neg (show ¬ (_ ∧ _) from free)]
  dsimp only
  rw [flushMarketDataCaches_clients]
  split
  · rw [onMatching_clients, publishTradeSummaries_clients]
    exact numbers _
  · rw [publishTradeSummaries_clients]
    exact numbers _

omit [OrderBookL3 β] in
/-- Numbering a user keeps the numbers of the others apart. -/
theorem Numbered.clientIdFor (numbered : exchange.Numbered) (userId : Name) :
    let (number, after) := exchange.clientIdFor userId
    (userId.isEmpty = true ∧ number = -1 ∨
        userId.isEmpty = false ∧ after.clientIds.lookup userId = some number) ∧
      (∀ {user old}, exchange.clientIds.lookup user = some old → after.clientIds.lookup user = some old) ∧
      (∀ {left right number}, after.clientIds.lookup left = some number →
        after.clientIds.lookup right = some number → left = right) ∧
      ∀ {user number}, after.clientIds.lookup user = some number → number < after.nextClientId := by
  unfold Exchange.clientIdFor
  by_cases unnamed : userId.isEmpty = true
  · rw [if_pos unnamed]
    exact ⟨.inl ⟨unnamed, rfl⟩, fun found => found, numbered.distinct, numbered.bounded⟩
  rw [if_neg unnamed]
  have named : userId.isEmpty = false := by simpa using unnamed
  cases found : exchange.clientIds.lookup userId with
  | some number => exact ⟨.inr ⟨named, found⟩, fun found => found, numbered.distinct, numbered.bounded⟩
  | none =>
      dsimp only
      have lookups : ∀ {user number}, (exchange.clientIds.insert userId exchange.nextClientId).lookup user =
          some number → user = userId ∧ number = exchange.nextClientId ∨
            user ≠ userId ∧ exchange.clientIds.lookup user = some number := by
        intro user number inside
        by_cases same : user = userId
        · rw [same, AList.lookup_insert] at inside
          exact .inl ⟨same, (Option.some.inj inside).symm⟩
        · rw [AList.lookup_insert_ne same] at inside
          exact .inr ⟨same, inside⟩
      refine ⟨.inr ⟨named, AList.lookup_insert _⟩, ?_, ?_, ?_⟩
      · intro user old inside
        rw [AList.lookup_insert_ne]
        · exact inside
        · rintro rfl
          rw [found] at inside
          cases inside
      · intro left right number isLeft isRight
        rcases lookups isLeft with ⟨rfl, rfl⟩ | ⟨-, oldLeft⟩
        · rcases lookups isRight with ⟨rfl, -⟩ | ⟨-, oldRight⟩
          · rfl
          · exact absurd (numbered.bounded oldRight) (Int.lt_irrefl _)
        · rcases lookups isRight with ⟨rfl, rfl⟩ | ⟨-, oldRight⟩
          · exact absurd (numbered.bounded oldLeft) (Int.lt_irrefl _)
          · exact numbered.distinct oldLeft oldRight
      · intro user number inside
        rcases lookups inside with ⟨-, rfl⟩ | ⟨-, old⟩
        · exact Int.lt_succ _
        · exact Int.lt_trans (numbered.bounded old) (Int.lt_succ _)

omit [OrderBookL3 β] in
theorem Numbered.handled {after : Exchange β} (numbered : exchange.Numbered) {ref : Nat}
    {identity : OrderIdentity} {told : List OrderResponse}
    (handled : Handled ref identity told exchange.matching after.matching) (held : exchange.book.Holds ref)
    (self : (after.matching.order ref).userId = (exchange.matching.order ref).userId ∧
      (after.matching.order ref).clientId = (exchange.matching.order ref).clientId)
    (clients : after.clients = exchange.clients) : after.Numbered := by
  refine numbered.transport ?_ ?_ (congrArg Prod.fst clients) (congrArg Prod.snd clients)
  · intro other otherHeld
    rcases handled.holds otherHeld with earlier | rfl
    · exact earlier
    · exact held
  · intro other _
    by_cases same : other = ref
    · rw [same]
      exact self
    · have sameIdentity := handled.others other same
      exact ⟨congrArg OrderIdentity.userId sameIdentity, congrArg OrderIdentity.clientId sameIdentity⟩

theorem newOrder_numbered {msg : AddOrderMessage} (inv : exchange.ledger.Represents .none)
    (numbered : exchange.Numbered) (admitted : exchange.Admits env (.newOrder header msg)) :
    (exchange.handleNewOrderRequest env config header msg).Numbered := by
  by_cases wrong : header.symbol ≠ config.symbol ∨ exchange.ClientIdTaken msg.clientOrderId
  · obtain ⟨reason, rejected⟩ := @handleNewOrderRequest_rejects β _ exchange env config header msg wrong
    rw [rejected]
    exact numbered.transport (fun _ held => held) (fun _ _ => ⟨rfl, rfl⟩) rfl rfl
  have listed : header.symbol = config.symbol := by
    by_contra unlisted
    exact wrong (.inl unlisted)
  have free : ¬ exchange.ClientIdTaken msg.clientOrderId := fun taken => wrong (.inr taken)
  obtain ⟨told, handled, self, -⟩ := @handleNewOrderRequest_handled β _ env config exchange header msg inv
    admitted listed free
  have clients := @handleNewOrderRequest_clients β _ env config exchange header msg listed free
  have clientIds := congrArg Prod.fst clients
  have nextClientId := congrArg Prod.snd clients
  obtain ⟨mine, kept, distinct, bounded⟩ := numbered.clientIdFor msg.userId
  refine ⟨?_, ?_, ?_⟩
  · intro other held
    rw [show (exchange.handleNewOrderRequest env config header msg).clientIds = _ from clientIds]
    by_cases same : other = env.pool exchange.book.live
    · rw [same, show ((exchange.handleNewOrderRequest env config header msg).matching.order
          (env.pool exchange.book.live)).userId = msg.userId from congrArg OrderIdentity.userId self,
        show ((exchange.handleNewOrderRequest env config header msg).matching.order
          (env.pool exchange.book.live)).clientId = (exchange.clientIdFor msg.userId).1 from
            congrArg OrderIdentity.clientId self]
      exact mine
    · have sameIdentity := handled.others other same
      rw [show ((exchange.handleNewOrderRequest env config header msg).matching.order other).userId = _ from
          congrArg OrderIdentity.userId sameIdentity,
        show ((exchange.handleNewOrderRequest env config header msg).matching.order other).clientId = _ from
          congrArg OrderIdentity.clientId sameIdentity]
      rcases numbered.client other ((handled.holds held).resolve_right same) with unnamed | ⟨named, old⟩
      · exact .inl unnamed
      · exact .inr ⟨named, kept old⟩
  · intro left right number
    rw [show (exchange.handleNewOrderRequest env config header msg).clientIds = _ from clientIds]
    exact distinct
  · intro user number
    rw [show (exchange.handleNewOrderRequest env config header msg).clientIds = _ from clientIds,
      show (exchange.handleNewOrderRequest env config header msg).nextClientId = _ from nextClientId]
    exact bounded

theorem amend_numbered {msg : ModifyOrderMessage} (inv : exchange.ledger.Represents .none)
    (numbered : exchange.Numbered) :
    (exchange.handleModifyOrderRequest env config header msg).Numbered := by
  by_cases unknown : header.symbol ≠ config.symbol ∨
      selectOrder exchange.book msg.clientOrderId msg.orderId = none
  · obtain ⟨reason, -, rejected⟩ := @handleModifyOrderRequest_unknown β _ exchange env config header msg unknown
    rw [rejected]
    exact numbered.transport (fun _ held => held) (fun _ _ => ⟨rfl, rfl⟩) rfl rfl
  · push Not at unknown
    obtain ⟨listed, found⟩ := unknown
    obtain ⟨ref, selected⟩ := Option.ne_none_iff_exists'.mp found
    obtain ⟨told, handled, self⟩ := @handleModifyOrderRequest_handled β _ env config exchange header ref msg
      listed selected
    refine numbered.handled handled (selectOrder_holds inv selected) ?_ (handleModifyOrderRequest_clients msg)
    have user := congrArg OrderIdentity.userId self
    have client := congrArg OrderIdentity.clientId self
    split at user
    · split at client
      · exact ⟨user, client⟩
      · exact ⟨user, client⟩
    · split at client
      · exact ⟨user, client⟩
      · exact ⟨user, client⟩

theorem cancel_numbered {msg : CancelOrderMessage} (inv : exchange.ledger.Represents .none)
    (numbered : exchange.Numbered) :
    (exchange.handleCancelOrderRequest env config header msg).Numbered := by
  by_cases unknown : header.symbol ≠ config.symbol ∨
      selectOrder exchange.book msg.clientOrderId msg.orderId = none
  · obtain ⟨reason, -, rejected⟩ := @handleCancelOrderRequest_unknown β _ exchange env config header msg unknown
    rw [rejected]
    exact numbered.transport (fun _ held => held) (fun _ _ => ⟨rfl, rfl⟩) rfl rfl
  · push Not at unknown
    obtain ⟨listed, found⟩ := unknown
    obtain ⟨ref, selected⟩ := Option.ne_none_iff_exists'.mp found
    obtain ⟨told, handled, -, self⟩ := @handleCancelOrderRequest_handled β _ env config exchange header ref msg
      listed selected
    exact numbered.handled handled (selectOrder_holds inv selected)
      ⟨congrArg OrderIdentity.userId self, congrArg OrderIdentity.clientId self⟩
      (handleCancelOrderRequest_clients msg)

theorem feed_numbered (numbered : exchange.Numbered) (feed : input.isRequest = false) :
    (exchange.step env config input).Numbered := by
  have served := exchange.step_serves env config feed
  refine numbered.transport ?_ ?_ served.clientIds served.nextClientId
  · exact fun ref held => (served.matching.knows held).resolve_right (by rintro ⟨⟩)
  · intro ref _
    have sameIdentity := served.matching.identity ref
    exact ⟨congrArg OrderIdentity.userId sameIdentity, congrArg OrderIdentity.clientId sameIdentity⟩

theorem Reachable.numbered (reachable : Reachable env config Anything exchange) : exchange.Numbered := by
  induction reachable with
  | new pool publishOrderUpdates =>
      refine ⟨?_, ?_, ?_⟩
      · rintro ref ⟨id, found⟩
        cases found
      · intro left right number found
        cases found
      · intro user number found
        cases found
  | @step exchange earlier input admitted _ numbered =>
      have inv := earlier.represents.1
      cases input with
      | newOrder header msg => exact newOrder_numbered inv numbered admitted
      | amend header msg => exact amend_numbered inv numbered
      | cancel header msg => exact cancel_numbered inv numbered
      | level2Snapshot | coinbaseEvent | l2Snapshot | l2Diff | trades | marketOrder | marketTrade
      | flushMarketEvents | subscribe | subscribeServed | elsewhere => exact feed_numbered numbered rfl

/-! ## Requests -/

/-- The order is in the maps and bears the names of a request: its client order id when it
has one, else its order id. -/
def Bears (exchange : Exchange β) (clientOrderId orderId : Name) (ref : Nat) : Prop :=
  exchange.book.Holds ref ∧
    if clientOrderId.isEmpty = false then (exchange.matching.order ref).clientOrderId = clientOrderId
    else orderId.isEmpty = false ∧ (exchange.matching.order ref).orderId = orderId

/-- The order is of the same user as the one named. -/
def OfOneUser (exchange : Exchange β) (ref other : Nat) : Prop :=
  (exchange.matching.order other).userId = (exchange.matching.order ref).userId ∧
    (exchange.matching.order ref).userId.isEmpty = false

/-- All that befalls an order is matching for the one named: it is told its fills, which
are all that changes it, and perhaps that a self match was prevented. -/
structure OnlyMatched (exchange after : Exchange β) (told : List OrderResponse) (ref other : Nat) : Prop where
  reports : ∀ response ∈ told, response.orderNum = (exchange.matching.order other).id →
    response.execType = .trade ∨ response.execType = .canceled ∧ exchange.OfOneUser ref other
  fills : ¬ exchange.OfOneUser ref other →
    (exchange.matching.order other).FilledBy
        (told.filter fun response => decide (response.orderNum = (exchange.matching.order other).id))
        (after.matching.order other) ∧
      (after.book.Holds other ∨ (after.matching.order other).leavesQuantity = 0)

/-- A cancel reports its order pending and then cancelled, and takes it out. -/
structure Withdraws (exchange : Exchange β) (env : Environment) (config : SymbolConfig) (input : Input)
    (header : RequestHeader) (ref : Nat) : Prop where
  told : ∃ pending cancelled, exchange.reportsOf env config input = [pending, cancelled] ∧
    pending.IsOn (exchange.identityUnder ref header) ∧ pending.execType = .pendingCancel ∧
    cancelled.IsOn (exchange.identityUnder ref header) ∧ cancelled.execType = .canceled
  gone : (exchange.step env config input).OutOfBook (exchange.matching.order ref).id

/-- An amendment gives its order the new terms and rests what is left of it, or it is turned away
and leaves the order's terms, its fills and its place as they were. -/
inductive Amends (exchange : Exchange β) (env : Environment) (config : SymbolConfig) (input : Input)
    (header : RequestHeader) (newPrice newQty : Int) (ref : Nat) : Prop
  | takes
      (told : ∃ replaced ∈ exchange.reportsOf env config input,
        replaced.IsOn (exchange.identityUnder ref header) ∧ replaced.execType = .replaced ∧
          replaced.price = newPrice ∧ replaced.qty = newQty)
      (price : ((exchange.step env config input).matching.order ref).price = newPrice)
      (quantity : ((exchange.step env config input).matching.order ref).quantity = newQty)
      (place : if ((exchange.step env config input).matching.order ref).leavesQuantity = 0 then
          (exchange.step env config input).OutOfBook (exchange.matching.order ref).id
        else OrderBookL3.findOrder (exchange.step env config input).book.l3 (exchange.matching.order ref).id =
          some ((exchange.step env config input).matching.order ref).bookEntry)
  | turnedAway
      (told : ∃ pending reject, exchange.reportsOf env config input = [pending, reject] ∧
        pending.IsOn (exchange.identityUnder ref header) ∧ pending.execType = .pendingReplace ∧
        reject.orderNum = 0 ∧ reject.responseType = .reject)
      (kept : ∃ stamp, (exchange.step env config input).matching.order ref =
        { exchange.matching.order ref with status := .pendingReplace, lastUpdateTime := stamp })
      (place : (exchange.step env config input).ledger.entry = exchange.ledger.entry)
      (held : (exchange.step env config input).book.Holds ref)

/-- What an amendment or a cancel under given names reaches, whoever sent it. -/
structure Reaches (exchange : Exchange β) (env : Environment) (config : SymbolConfig) (input : Input)
    (header : RequestHeader) (clientOrderId orderId : Name) (Acts : Nat → Prop) : Prop where
  unique : ∀ ref other, exchange.Bears clientOrderId orderId ref →
    exchange.Bears clientOrderId orderId other → other = ref
  named : header.symbol = config.symbol → ∀ ref, exchange.Bears clientOrderId orderId ref →
    Acts ref ∧ ∀ other, other ≠ ref → exchange.book.Holds other →
      exchange.OnlyMatched (exchange.step env config input) (exchange.reportsOf env config input) ref other
  unknown : (header.symbol ≠ config.symbol ∨ ∀ ref, ¬ exchange.Bears clientOrderId orderId ref) →
    (∃ reject, exchange.reportsOf env config input = [reject] ∧ reject.orderNum = 0 ∧
      reject.responseType = .reject) ∧
    (exchange.step env config input).book.heap = exchange.book.heap ∧
    (exchange.step env config input).book.l3 = exchange.book.l3

section Reach

variable (inv : exchange.ledger.Represents .none)

include inv

theorem selectOrder_iff {clientOrderId orderId : Name} {ref : Nat} :
    selectOrder exchange.book clientOrderId orderId = some ref ↔
      exchange.Bears clientOrderId orderId ref := by
  have registered : exchange.ledger.Registered ref ↔ exchange.book.Holds ref :=
    ⟨fun inside => ⟨_, inside⟩, fun held => (holds_number inv held).1⟩
  unfold selectOrder Bears
  split
  · rename_i named
    rw [show exchange.book.findOrderByClientOrderId clientOrderId = some ref ↔ _ from inv.indexed.byClient_iff,
      registered]
    exact ⟨fun found => found.2, fun bears => ⟨named, bears⟩⟩
  · rw [show exchange.book.findOrderByOrderId orderId = some ref ↔ _ from inv.indexed.byOrder_iff,
      registered]
    exact ⟨fun found => ⟨found.2.1, found.1, found.2.2⟩, fun bears => ⟨bears.2.1, bears.1, bears.2.2⟩⟩

theorem onlyMatched_of_handled (numbered : exchange.Numbered) {ref other : Nat} {told : List OrderResponse}
    {after : Exchange β} (held : exchange.book.Holds ref) (apart : other ≠ ref)
    (otherHeld : exchange.book.Holds other)
    (handled : Handled ref (exchange.identityUnder ref header) told exchange.matching after.matching)
    (served : Ledger.Served other exchange.ledger after.ledger) :
    exchange.OnlyMatched after told ref other := by
  have reports : ∀ response ∈ told, response.orderNum = (exchange.matching.order other).id →
      response.execType = .trade ∨ response.execType = .canceled ∧ exchange.OfOneUser ref other := by
    intro response member isOther
    cases handled.answers response member with
    | own on => exact absurd (isOther.symm.trans on.orderNum) (holds_apart inv held apart otherHeld)
    | reject unnamed => exact absurd (isOther.symm.trans unnamed) (holds_number inv otherHeld).2.1
    | fill _ _ _ trade => exact .inl trade
    | @selfMatch found _ foundHeld on cancel mine =>
        have same : found = other := by
          by_contra different
          exact holds_apart inv otherHeld different foundHeld (on.orderNum.symm.trans isOther)
        subst same
        exact .inr ⟨cancel, numbered.sameUser held otherHeld mine.1 mine.2⟩
  have filtered : after.ledger.reports (exchange.matching.order other).id =
      exchange.ledger.reports (exchange.matching.order other).id ++
        told.filter fun response => decide (response.orderNum = (exchange.matching.order other).id) := by
    unfold Ledger.reports
    rw [show after.ledger.responses = exchange.ledger.responses ++ told from handled.responses,
      List.filter_append]
  refine ⟨reports, fun foreign => ?_⟩
  cases served with
  | @filled toldOther isTold fills stays =>
      have isFiltered := List.append_cancel_left (filtered.symm.trans isTold)
      rw [isFiltered]
      refine ⟨fills, ?_⟩
      rcases stays with inside | ⟨-, nothing⟩
      · exact .inl ⟨_, inside⟩
      · exact .inr nothing
  | @cancelled toldOther between slot requestTime isTold fills gone =>
      have isFiltered := List.append_cancel_left (filtered.symm.trans isTold)
      have member : slot.writeCancel between.withoutLeaves requestTime ∈ told.filter fun response =>
          decide (response.orderNum = (exchange.matching.order other).id) := by
        rw [isFiltered]
        simp
      obtain ⟨inside, isOther⟩ := List.mem_filter.mp member
      rcases reports _ inside (of_decide_eq_true isOther) with trade | ⟨-, mine⟩
      · cases trade
      · exact absurd mine foreign

omit inv in
/-- A request that finds nothing changes nothing. -/
theorem rejected_reaches {write : OrderResponse → Nat → OrderResponse}
    (isStep : exchange.step env config input = exchange.onMatching fun state => state.publishReject env write)
    (noNumber : ∀ slot now, (write slot now).orderNum = 0)
    (isReject : ∀ slot now, (write slot now).responseType = .reject) :
    (∃ reject, exchange.reportsOf env config input = [reject] ∧ reject.orderNum = 0 ∧
        reject.responseType = .reject) ∧
      (exchange.step env config input).book.heap = exchange.book.heap ∧
      (exchange.step env config input).book.l3 = exchange.book.l3 := by
  refine ⟨⟨write (env.slot exchange.matching.responses.length) (exchange.book.currentTime env), ?_,
    noNumber .., isReject ..⟩, ?_, ?_⟩
  · exact reportsOf_eq (by rw [isStep]; rfl)
  · rw [isStep]
    rfl
  · rw [isStep]
    rfl

private theorem unknown_of_unborne {clientOrderId orderId : Name}
    (unknown : header.symbol ≠ config.symbol ∨ ∀ ref, ¬ exchange.Bears clientOrderId orderId ref) :
    header.symbol ≠ config.symbol ∨ selectOrder exchange.book clientOrderId orderId = none := by
  rcases unknown with unlisted | unborne
  · exact .inl unlisted
  · refine .inr (Option.eq_none_iff_forall_ne_some.mpr ?_)
    exact fun ref selected => unborne ref ((selectOrder_iff inv).mp selected)

private theorem bears_unique {clientOrderId orderId : Name} (ref other : Nat)
    (bears : exchange.Bears clientOrderId orderId ref) (alsoBears : exchange.Bears clientOrderId orderId other) :
    other = ref :=
  Option.some.inj (((selectOrder_iff inv).mpr alsoBears).symm.trans ((selectOrder_iff inv).mpr bears))

/-- A cancel withdraws the order that it finds. -/
private theorem cancel_withdraws {msg : CancelOrderMessage} {ref : Nat} (listed : header.symbol = config.symbol)
    (selected : selectOrder exchange.book msg.clientOrderId msg.orderId = some ref)
    (afterInv : (exchange.step env config (.cancel header msg)).ledger.Represents .none) :
    exchange.Withdraws env config (.cancel header msg) header ref := by
  let after := exchange.step env config (.cancel header msg)
  have isAfter : after.ledger = exchange.cancelledLedger env header ref :=
    (handleCancelOrderRequest_cancels listed selected inv (show Permit.all.cancel _ _ from trivial)).1
  let marked := exchange.ledger.updateOrder ref (beginCancel header.requestTag)
  have isMarked : marked.heap ref = beginCancel header.requestTag (exchange.matching.order ref) :=
    Function.update_self ..
  let begun := marked.publish env fun slot => slot.writeCancelPending (marked.heap ref) header.timeStamp
  let touched := begun.touchOrder env ref
  have isTouched : (touched.heap ref).identity = exchange.identityUnder ref header := by
    show (Function.update marked.heap ref _ ref).identity = _
    rw [Function.update_self]
    show (marked.heap ref).identity = _
    rw [isMarked]
    rfl
  have sameId : (touched.heap ref).id = (exchange.matching.order ref).id := congrArg OrderIdentity.id isTouched
  let removed := (touched.placeEntry (touched.heap ref).id none (touched.heap ref).lastUpdateTime).updateOrder ref
    Order.withoutLeaves
  have isRemoved : (removed.heap ref).identity = exchange.identityUnder ref header := by
    rw [← isTouched]
    show (Function.update touched.heap ref _ ref).identity = _
    rw [Function.update_self]
    rfl
  let pending := (env.slot exchange.ledger.responses.length).writeCancelPending (marked.heap ref) header.timeStamp
  let cancelled := (env.slot begun.responses.length).writeCancel (removed.heap ref) header.timeStamp
  have onMarked : pending.IsOn (exchange.identityUnder ref header) := by
    dsimp only [pending]
    rw [isMarked]
    exact ⟨rfl, rfl, rfl, rfl, rfl, rfl, rfl⟩
  have onRemoved : cancelled.IsOn (exchange.identityUnder ref header) := by
    rw [← isRemoved]
    exact ⟨rfl, rfl, rfl, rfl, rfl, rfl, rfl⟩
  have responses : after.ledger.responses = exchange.ledger.responses ++ [pending, cancelled] := by
    rw [isAfter]
    exact List.append_assoc exchange.ledger.responses [pending] [cancelled]
  refine ⟨⟨pending, cancelled, reportsOf_eq responses, onMarked, rfl, onRemoved, rfl⟩, ?_⟩
  have registered := selectOrder_registered inv selected
  refine outOfBook_of_absent afterInv ?_ ⟨?_, by rintro _ ⟨⟩⟩
  · refine Ledger.owned_iff_reports.mpr ⟨(inv.indexed.registered_owned registered).1, ?_⟩
    refine List.ne_nil_of_mem (List.mem_filter.mpr ⟨?_, decide_eq_true onMarked.orderNum⟩)
    rw [responses]
    simp
  · rw [isAfter, ← sameId]
    show Function.update touched.owner (removed.heap ref).id none (touched.heap ref).id = none
    rw [show (removed.heap ref).id = (touched.heap ref).id from
      (congrArg OrderIdentity.id isRemoved).trans (congrArg OrderIdentity.id isTouched).symm, Function.update_self]

private theorem amend_turnedAway {msg : ModifyOrderMessage} {ref : Nat} (listed : header.symbol = config.symbol)
    (selected : selectOrder exchange.book msg.clientOrderId msg.orderId = some ref)
    (refuses : exchange.RefusesAmend config ref msg.newPrice msg.newQty) :
    exchange.Amends env config (.amend header msg) header msg.newPrice msg.newQty ref := by
  let after := exchange.step env config (.amend header msg)
  have isAfter : after.ledger = exchange.refusedAmend env header msg ref :=
    handleModifyOrderRequest_refused listed selected inv refuses
  let begun := exchange.ledger.beginAmend env ref header.requestTag header.timeStamp
  have isBegun : begun.heap ref = _ := beginAmend_order header.requestTag header.timeStamp
  let pending := (env.slot exchange.ledger.responses.length).writeReplacePending (begun.heap ref) header.timeStamp
  have onBegun : pending.IsOn (exchange.identityUnder ref header) := by
    dsimp only [pending]
    rw [isBegun]
    exact ⟨rfl, rfl, rfl, rfl, rfl, rfl, rfl⟩
  let reject := (env.slot begun.responses.length).writeRejectModify header msg .smp
    (env.clock (begun.touchOrder env ref).globals.clockReads)
  refine .turnedAway ⟨pending, reject, reportsOf_eq ?_, onBegun, rfl, rfl, rfl⟩
    ⟨env.clock begun.globals.clockReads, ?_⟩ ?_ ?_
  · refine (congrArg Ledger.responses isAfter).trans ?_
    exact List.append_assoc exchange.ledger.responses [pending] [reject]
  · refine (congrArg (fun ledger => ledger.heap ref) isAfter).trans ?_
    have isTouched : (begun.touchOrder env ref).heap ref =
        { begun.heap ref with lastUpdateTime := env.clock begun.globals.clockReads } := Function.update_self ..
    show Function.update (begun.touchOrder env ref).heap ref _ ref = _
    rw [Function.update_self, isTouched, isBegun]
    rfl
  · rw [isAfter]
    rfl
  · have ours : after.ledger.owner (exchange.matching.order ref).id = some ref := by
      rw [isAfter]
      exact selectOrder_registered inv selected
    exact ⟨_, ours⟩

private theorem amend_takes {msg : ModifyOrderMessage} {ref : Nat} (listed : header.symbol = config.symbol)
    (selected : selectOrder exchange.book msg.clientOrderId msg.orderId = some ref)
    (goesOn : ¬ exchange.RefusesAmend config ref msg.newPrice msg.newQty)
    (afterInv : (exchange.step env config (.amend header msg)).ledger.Represents .none) :
    exchange.Amends env config (.amend header msg) header msg.newPrice msg.newQty ref := by
  let after := exchange.step env config (.amend header msg)
  have registered := selectOrder_registered inv selected
  obtain ⟨swept, sweeps, isAfter⟩ := handleModifyOrderRequest_amends env header listed selected inv goesOn
  have isAfter : after.ledger = _ := isAfter
  obtain ⟨sweptInv, -, -, terms, -⟩ := AmendSweeps.spec selected inv sweeps
  obtain ⟨stamp, priority, isOrder⟩ := swept.settleAmend_order env ref header.timeStamp
    (exchange.amendCloses msg ref swept) ((exchange.matching.order ref).requeues msg.newPrice msg.newQty)
  rw [← isAfter] at isOrder
  have sameId : (swept.heap ref).id = (exchange.matching.order ref).id := terms.id
  have sameLeaves : (after.ledger.heap ref).leavesQuantity = (swept.heap ref).leavesQuantity := by rw [isOrder]
  let begun := exchange.ledger.beginAmend env ref header.requestTag header.timeStamp
  have isBegun : begun.heap ref = _ := beginAmend_order header.requestTag header.timeStamp
  let replaced := (env.slot begun.responses.length).writeModify ((begun.heap ref).replace msg.newPrice msg.newQty)
    msg.newPrice msg.newQty header.timeStamp
  have onReplaced : replaced.IsOn (exchange.identityUnder ref header) := by
    dsimp only [replaced]
    rw [isBegun]
    exact ⟨rfl, rfl, rfl, rfl, rfl, rfl, rfl⟩
  obtain ⟨published, later⟩ := (sweeps.sweeps.takenFrom
    (amendedLedger_represents header msg inv registered)).reports
  have told : ∃ rest, after.ledger.responses = exchange.ledger.responses ++ rest ∧ replaced ∈ rest := by
    let pending := (env.slot exchange.ledger.responses.length).writeReplacePending (begun.heap ref) header.timeStamp
    have first : (exchange.amendedLedger env header msg ref).responses =
        exchange.ledger.responses ++ [pending] ++ [replaced] := rfl
    rw [first, List.append_assoc, List.append_assoc] at later
    rw [isAfter, Ledger.settleAmend_responses]
    split
    · exact ⟨_, (congrArg (· ++ [_]) later).trans (List.append_assoc ..), by simp⟩
    · exact ⟨_, later, by simp⟩
  obtain ⟨rest, responses, member⟩ := told
  refine .takes ⟨replaced, ?_, onReplaced, rfl, rfl, rfl⟩ ((congrArg Order.price isOrder).trans terms.price)
    ((congrArg Order.quantity isOrder).trans terms.quantity) ?_
  · rw [reportsOf_eq responses]
    exact member
  rw [show (after.matching.order ref).leavesQuantity = _ from sameLeaves]
  split <;> rename_i left
  · obtain ⟨-, owner⟩ := swept.settleAmend_gone env ref header.timeStamp (exchange.amendCloses msg ref swept)
      ((exchange.matching.order ref).requeues msg.newPrice msg.newQty) left
    refine outOfBook_of_absent afterInv ?_ ⟨?_, by rintro _ ⟨⟩⟩
    · refine Ledger.owned_iff_reports.mpr ⟨(inv.indexed.registered_owned registered).1, ?_⟩
      refine List.ne_nil_of_mem (List.mem_filter.mpr ⟨?_, decide_eq_true onReplaced.orderNum⟩)
      rw [responses]
      exact List.mem_append_right _ member
    · rw [isAfter, owner, sameId, Function.update_self]
  · obtain ⟨⟨resting, entry, -⟩, owner⟩ := swept.settleAmend_rests env ref header.timeStamp
      (exchange.amendCloses msg ref swept) ((exchange.matching.order ref).requeues msg.newPrice msg.newQty) left
    have stillIn : swept.owner (swept.heap ref).id = some ref :=
      sweptInv.indexed.resting_registered (show (Hand.amended ref).resting = some ref from rfl)
    have rests : after.ledger.entry (exchange.matching.order ref).id = some resting := by
      rw [isAfter, entry, sameId, Function.update_self]
    have ours : after.ledger.owner (exchange.matching.order ref).id = some ref := by
      rw [isAfter, owner, ← sameId, stillIn]
    obtain ⟨isEntry, -⟩ := afterInv.resting_eq rests ours (by rintro ⟨⟩)
    exact rests.trans (congrArg some isEntry)

theorem amend_reaches (numbered : exchange.Numbered) (header : RequestHeader) (msg : ModifyOrderMessage)
    (afterInv : (exchange.step env config (.amend header msg)).ledger.Represents .none) :
    exchange.Reaches env config (.amend header msg) header msg.clientOrderId msg.orderId
      (exchange.Amends env config (.amend header msg) header msg.newPrice msg.newQty) := by
  refine ⟨bears_unique inv, ?_, ?_⟩
  · intro listed ref bears
    have selected := (selectOrder_iff inv).mpr bears
    obtain ⟨told, handled, -⟩ := @handleModifyOrderRequest_handled β _ env config exchange header ref msg
      listed selected
    rw [reportsOf_eq (show (exchange.step env config (.amend header msg)).matching.responses = _ from
      handled.responses)]
    refine ⟨?_, fun other apart otherHeld => ?_⟩
    · by_cases refuses : exchange.RefusesAmend config ref msg.newPrice msg.newQty
      · exact amend_turnedAway inv listed selected refuses
      · exact amend_takes inv listed selected refuses afterInv
    · exact onlyMatched_of_handled inv numbered bears.1 apart otherHeld handled
        (handleModifyOrderRequest_served listed inv (holds_number inv otherHeld).1 apart selected)
  · intro unknown
    obtain ⟨reason, -, rejected⟩ := @handleModifyOrderRequest_unknown β _ exchange env config header msg
      (unknown_of_unborne inv unknown)
    exact rejected_reaches rejected (fun _ _ => rfl) (fun _ _ => rfl)

theorem cancel_reaches (numbered : exchange.Numbered) (header : RequestHeader) (msg : CancelOrderMessage)
    (afterInv : (exchange.step env config (.cancel header msg)).ledger.Represents .none) :
    exchange.Reaches env config (.cancel header msg) header msg.clientOrderId msg.orderId
      (exchange.Withdraws env config (.cancel header msg) header) := by
  refine ⟨bears_unique inv, ?_, ?_⟩
  · intro listed ref bears
    have selected := (selectOrder_iff inv).mpr bears
    obtain ⟨told, handled, -⟩ := @handleCancelOrderRequest_handled β _ env config exchange header ref msg
      listed selected
    rw [reportsOf_eq (show (exchange.step env config (.cancel header msg)).matching.responses = _ from
      handled.responses)]
    refine ⟨cancel_withdraws inv listed selected afterInv, fun other apart otherHeld => ?_⟩
    have inside : exchange.ledger.Registered other := (holds_number inv otherHeld).1
    exact onlyMatched_of_handled inv numbered bears.1 apart otherHeld handled
      ((Ledger.Served.begin inside).leavesAlone
        (handleCancelOrderRequest_leavesAlone listed inv inside apart selected))
  · intro unknown
    obtain ⟨reason, -, rejected⟩ := @handleCancelOrderRequest_unknown β _ exchange env config header msg
      (unknown_of_unborne inv unknown)
    exact rejected_reaches rejected (fun _ _ => rfl) (fun _ _ => rfl)

theorem clientIdTaken_iff {clientOrderId : Name} :
    exchange.ClientIdTaken clientOrderId ↔ clientOrderId.isEmpty = false ∧
      ∃ ref, exchange.book.Holds ref ∧ (exchange.matching.order ref).clientOrderId = clientOrderId := by
  unfold ClientIdTaken
  refine and_congr_right fun named => ?_
  rw [Option.isSome_iff_exists]
  refine exists_congr fun ref => ?_
  have selected := @selectOrder_iff β _ exchange inv clientOrderId default ref
  unfold selectOrder Bears at selected
  rwa [if_pos named, if_pos named] at selected

/-- A new order is refused for its client order id exactly when an order in the maps
bears it, of whatever user. -/
theorem newOrder_duplicate_iff {header : RequestHeader} {msg : AddOrderMessage}
    (admitted : exchange.Admits env (.newOrder header msg)) :
    (∃ response ∈ exchange.reportsOf env config (.newOrder header msg),
        response.responseType = .reject ∧ response.rejectReason = .clientOrderIdAlreadyExists) ↔
      header.symbol = config.symbol ∧ msg.clientOrderId.isEmpty = false ∧
        ∃ ref, exchange.book.Holds ref ∧
          (exchange.matching.order ref).clientOrderId = msg.clientOrderId := by
  rw [← clientIdTaken_iff inv]
  by_cases listed : header.symbol = config.symbol
  · by_cases taken : exchange.ClientIdTaken msg.clientOrderId
    · have rejected : exchange.step env config (.newOrder header msg) = exchange.onMatching fun state =>
          state.rejectNewOrderRequest env header msg .clientOrderIdAlreadyExists := by
        show exchange.handleNewOrderRequest env config header msg = _
        unfold handleNewOrderRequest
        rw [if_neg (fun unlisted => unlisted listed), if_pos (show _ ∧ _ from taken)]
      refine iff_of_true ⟨(env.slot exchange.matching.responses.length).writeRejectNew header msg
        .clientOrderIdAlreadyExists (exchange.book.currentTime env), ?_, rfl, rfl⟩ ⟨listed, taken⟩
      rw [@reportsOf_eq β _ env config exchange (.newOrder header msg) [_] (by rw [rejected]; rfl)]
      exact List.mem_singleton_self _
    · obtain ⟨told, handled, -, -, reasons⟩ := @handleNewOrderRequest_handled β _ env config exchange header msg
        inv admitted listed taken
      rw [@reportsOf_eq β _ env config exchange (.newOrder header msg) told handled.responses]
      refine iff_of_false ?_ (fun both => taken both.2)
      rintro ⟨response, member, isReject, duplicate⟩
      rw [reasons response member isReject] at duplicate
      cases duplicate
  · have rejected : exchange.step env config (.newOrder header msg) = exchange.onMatching fun state =>
        state.rejectNewOrderRequest env header msg .unknownContract := by
      show exchange.handleNewOrderRequest env config header msg = _
      unfold handleNewOrderRequest
      rw [if_pos listed]
    rw [@reportsOf_eq β _ env config exchange (.newOrder header msg) [(env.slot
      exchange.matching.responses.length).writeRejectNew header msg .unknownContract
        (exchange.book.currentTime env)] (by rw [rejected]; rfl)]
    refine iff_of_false ?_ (fun both => listed both.1)
    rintro ⟨response, member, -, duplicate⟩
    rw [List.mem_singleton.mp member] at duplicate
    cases duplicate

end Reach

/-- Users are apart as far as cancels go: all that a cancel of one reports on an order of another is
a fill. -/
def KeepsCancelsApart (exchange : Exchange β) (env : Environment) (config : SymbolConfig) : Prop :=
  ∀ header msg ref, exchange.book.Holds ref → (exchange.matching.order ref).userId ≠ msg.userId →
    ∀ response ∈ exchange.reportsOf env config (.cancel header msg),
      response.orderNum = (exchange.matching.order ref).id → response.execType = .trade

/-- Users are apart as far as names go: one is refused for a client order id only if it is its own. -/
def KeepsNamesApart (exchange : Exchange β) (env : Environment) (config : SymbolConfig) : Prop :=
  ∀ header msg, (∃ response ∈ exchange.reportsOf env config (.newOrder header msg),
      response.rejectReason = .clientOrderIdAlreadyExists) →
    ∃ ref, exchange.book.Holds ref ∧ (exchange.matching.order ref).userId = msg.userId ∧
      (exchange.matching.order ref).clientOrderId = msg.clientOrderId

/-- A bid under a client order id that every user can name. -/
private def bidMessage (userId : Name) : AddOrderMessage :=
  { userId, clientOrderId := Environment.countedName 1, side := .buy, type := .limit, timeInForce := .goodTillCancel
    price := 100, qty := 10 }

end Exchange

end SlickSim
