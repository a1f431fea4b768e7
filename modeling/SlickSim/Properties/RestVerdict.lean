import Mathlib.Data.List.TakeWhile
import SlickSim.Properties.NewOrderOutcome
import SlickSim.Venues.CoinbaseRestGateway

/-!
# What the REST gateway tells its clients

The exchange answers a request with several reports, and the gateway believes the
first one it takes for the answer. A pending report comes first whether or not a
reject follows, so an order or an edit that self-match prevention turns away is
reported as a success.
-/

set_option autoImplicit false

namespace SlickSim

open CoinbaseRestOrderGateway

/-! ## Wire fields -/

/-- A string that a wire field holds in full. -/
def Name.Holds (value : List UInt8) : Prop :=
  (Name.copyWireField value).bytes = value

instance (value : List UInt8) : Decidable (Name.Holds value) :=
  inferInstanceAs (Decidable (_ = _))

theorem Name.holds_bytes (name : Name) : Name.Holds name.bytes := by
  unfold Name.Holds Name.copyWireField FixedString.copyWireField
  dsimp only
  rw [List.take_of_length_le (Nat.le_of_lt_succ name.fits), List.takeWhile_eq_self_iff]
  intro byte member
  refine decide_eq_true ?_
  rintro rfl
  exact name.terminated member

theorem answersCreate_holds {order : CreateOrder} {response : OrderResponse}
    (answers : answersCreate order response = true) :
    Name.Holds order.userId ∧ Name.Holds order.clientOrderId := by
  obtain ⟨user, client⟩ := Bool.and_eq_true_iff.mp answers
  rw [← of_decide_eq_true user, ← of_decide_eq_true client]
  exact ⟨Name.holds_bytes _, Name.holds_bytes _⟩

theorem answersRequest_holds {userId : List UInt8} {timeStamp : Nat} {response : OrderResponse}
    (answers : answersRequest userId timeStamp response = true) : Name.Holds userId := by
  obtain ⟨user, -⟩ := Bool.and_eq_true_iff.mp answers
  rw [← of_decide_eq_true user]
  exact Name.holds_bytes _

/-! ## What the exchange publishes for a request -/

namespace Exchange

variable {β : Type} [OrderBookL3 β] {exchange : Exchange β} {env : Environment} {config : SymbolConfig}
  {header : RequestHeader}

/-- The reports published by one step. -/
def published (before after : Exchange β) : List OrderResponse :=
  after.matching.responses.drop before.matching.responses.length

omit [OrderBookL3 β] in
theorem published_eq {after : Exchange β} {reports : List OrderResponse}
    (responses : after.matching.responses = exchange.matching.responses ++ reports) :
    exchange.published after = reports := by
  unfold published
  rw [responses, List.drop_left]

/-- `CANCEL_NEWEST` turns a new order away. -/
def RefusesNew (exchange : Exchange β) (env : Environment) (config : SymbolConfig) (header : RequestHeader)
    (msg : AddOrderMessage) : Prop :=
  config.matchingEngine.Refuses exchange.book config.smpMode (exchange.newOrder env config header msg) msg.price
    msg.qty

instance (msg : AddOrderMessage) : Decidable (exchange.RefusesNew env config header msg) :=
  inferInstanceAs (Decidable (MatchingEngine.Refuses ..))

theorem refuses_accepted (inv : exchange.ledger.Represents .none) (msg : AddOrderMessage) :
    config.matchingEngine.Refuses (exchange.acceptOrder env config header msg).book config.smpMode
        (exchange.newOrder env config header msg) msg.price msg.qty ↔
      exchange.RefusesNew env config header msg := by
  unfold RefusesNew MatchingEngine.Refuses
  rw [OrderBook.wouldSelfMatch_congr]
  · show ((exchange.onBook fun _ => (exchange.book.allocateOrder env).2).clientIdFor
      msg.userId).2.matching.book.l3 = exchange.book.l3
    rw [clientIdFor_matching]
    rfl
  · intro id
    rw [acceptOrder_resolve inv]

variable (config) in
/-- A new-order request is answered first with a report that names it. That report is a
reject when the request is turned away outright, and otherwise a reject follows when
self-match prevention turns the order away. -/
theorem newOrder_published {msg : AddOrderMessage} (inv : exchange.ledger.Represents .none)
    (admitted : exchange.Admits env (.newOrder header msg)) :
    let wrong := header.symbol ≠ config.symbol ∨ exchange.ClientIdTaken msg.clientOrderId
    ∃ first rest, exchange.published (exchange.handleNewOrderRequest env config header msg) = first :: rest ∧
      (exchange.handleNewOrderRequest env config header msg).matching.responses =
        exchange.matching.responses ++ first :: rest ∧
      first.userId = msg.userId ∧ first.clientOrderId = msg.clientOrderId ∧
      (first.orderStatus = .rejected ↔ wrong) ∧
      ((∃ report ∈ first :: rest, report.execType = .rejected) ↔
        wrong ∨ exchange.RefusesNew env config header msg) := by
  intro wrong
  by_cases isWrong : wrong
  · obtain ⟨reason, rejected⟩ := @handleNewOrderRequest_rejects _ _ exchange env config header msg isWrong
    let reject := (env.slot exchange.matching.responses.length).writeRejectNew header msg reason
      (exchange.book.currentTime env)
    have responses : (exchange.handleNewOrderRequest env config header msg).matching.responses =
        exchange.matching.responses ++ [reject] := by
      rw [rejected]
      rfl
    refine ⟨reject, [], published_eq responses, responses, rfl, rfl, iff_of_true rfl isWrong, ?_⟩
    exact iff_of_true ⟨reject, List.mem_singleton_self _, rfl⟩ (.inl isWrong)
  have listed : header.symbol = config.symbol := by
    by_contra unlisted
    exact isWrong (.inl unlisted)
  have free : ¬ exchange.ClientIdTaken msg.clientOrderId := fun taken => isWrong (.inr taken)
  let accepted := exchange.acceptOrder env config header msg
  let permit := (Terms.newOnly msg.qty).permit env
  let pending := (env.slot exchange.matching.responses.length).writeNewPending
    (exchange.newOrder env config header msg) header.timeStamp
  have isOrder := @acceptOrder_order β _ exchange env config header msg
  have accepts : Micro env permit (.none, exchange.ledger)
      (.pending (env.pool exchange.book.live), accepted.ledger) :=
    acceptOrder_micro header msg (byClient_of_free free) admitted rfl
  have acceptedInv := accepts.represents inv
  have acceptedResponses : accepted.ledger.responses = exchange.matching.responses ++ [pending] :=
    congrArg Ledger.responses (acceptOrder_ledger header msg)
  obtain ⟨reason, summaries, after, added, outcome⟩ :=
    MatchState.addOrder_micros env permit config header.timeStamp acceptedInv
      (by rw [isOrder]; rfl) (by rw [isOrder]; rfl) (fun _ => trivial) (fun _ _ _ _ _ _ _ _ => trivial)
  have refuses := MatchState.addOrder_smp_iff acceptedInv (by rw [isOrder]; rfl) added
  rw [isOrder] at refuses
  have handled := handleNewOrderRequest_ledger listed free added
  have turnedAway : reason = .smp ↔ exchange.RefusesNew env config header msg :=
    refuses.trans (refuses_accepted inv msg)
  rcases outcome with ⟨fine, path⟩ | ⟨rfl, freed, -⟩
  · obtain ⟨rest, published, unrejected⟩ := path.addsNoReject (fun _ _ forbidden => forbidden)
    have responses : (exchange.handleNewOrderRequest env config header msg).matching.responses =
        exchange.matching.responses ++ pending :: rest := by
      rw [if_neg (by rcases fine with rfl | rfl <;> decide)] at handled
      refine (congrArg Ledger.responses handled).trans (published.trans ?_)
      show accepted.ledger.responses ++ rest = _
      rw [acceptedResponses, List.append_assoc]
      rfl
    refine ⟨pending, rest, published_eq responses, responses, rfl, rfl, iff_of_false nofun isWrong, ?_⟩
    refine iff_of_false ?_ ?_
    · rintro ⟨report, member, isReject⟩
      rcases List.mem_cons.mp member with rfl | member
      · cases isReject
      · exact unrejected report member isReject
    · rintro (turned | refused)
      · exact isWrong turned
      · rw [turnedAway.mpr refused] at fine
        rcases fine with fine | fine <;> cases fine
  · let reject := (env.slot after.responses.length).writeRejectNew header msg .smp
      (after.book.currentTime env)
    have afterResponses : after.responses = exchange.matching.responses ++ [pending] :=
      (congrArg Ledger.responses freed).trans acceptedResponses
    have responses : (exchange.handleNewOrderRequest env config header msg).matching.responses =
        exchange.matching.responses ++ [pending, reject] := by
      rw [if_pos (by decide)] at handled
      refine (congrArg Ledger.responses handled).trans ?_
      show after.responses ++ [reject] = _
      rw [afterResponses, List.append_assoc]
      rfl
    refine ⟨pending, [reject], published_eq responses, responses, rfl, rfl, iff_of_false nofun isWrong, ?_⟩
    exact iff_of_true ⟨reject, by simp, rfl⟩ (.inr (turnedAway.mp rfl))

/-- The reject a request is answered with. -/
structure Rejects (header : RequestHeader) (userId : Name) (response : OrderResponse) : Prop where
  user : response.userId = userId
  stamp : response.requestTime = header.timeStamp
  status : response.orderStatus = .rejected
  kind : response.execType = .rejected
  reason : response.rejectReason ≠ .none

/-- A report on an order that is not a reject. -/
structure Reports (header : RequestHeader) (order : Order) (response : OrderResponse) : Prop where
  user : response.userId = order.userId
  stamp : response.requestTime = header.timeStamp
  status : response.orderStatus ≠ .rejected
  kind : response.execType ≠ .rejected

variable (env) in
theorem amend_published_unknown (msg : ModifyOrderMessage)
    (unknown : header.symbol ≠ config.symbol ∨ selectOrder exchange.book msg.clientOrderId msg.orderId = none) :
    ∃ reject, (exchange.handleModifyOrderRequest env config header msg).matching.responses =
        exchange.matching.responses ++ [reject] ∧ Rejects header msg.userId reject := by
  obtain ⟨reason, isReason, rejected⟩ := @handleModifyOrderRequest_unknown _ _ exchange env config header msg unknown
  rw [rejected]
  exact ⟨_, rfl, rfl, rfl, rfl, rfl, isReason⟩

variable (env) in
/-- An amendment of an order that is there is reported as pending. Then it is rejected, or
it is reported as made. -/
theorem amend_published (msg : ModifyOrderMessage) {ref : Nat} (inv : exchange.ledger.Represents .none)
    (listed : header.symbol = config.symbol)
    (selected : selectOrder exchange.book msg.clientOrderId msg.orderId = some ref) :
    ∃ pending rest, (exchange.handleModifyOrderRequest env config header msg).matching.responses =
        exchange.matching.responses ++ pending :: rest ∧
      Reports header (exchange.matching.order ref) pending ∧
      (exchange.RefusesAmend config ref msg.newPrice msg.newQty →
        ∃ reject, rest = [reject] ∧ Rejects header msg.userId reject) ∧
      (¬ exchange.RefusesAmend config ref msg.newPrice msg.newQty →
        (∃ report ∈ rest, report.execType = .replaced) ∧ ∀ report ∈ rest, report.execType ≠ .rejected) := by
  let begun := exchange.ledger.beginAmend env ref header.requestTag header.timeStamp
  let pending := (env.slot exchange.matching.responses.length).writeReplacePending (begun.heap ref) header.timeStamp
  have begunResponses : begun.responses = exchange.matching.responses ++ [pending] := rfl
  have reports : Reports header (exchange.matching.order ref) pending := by
    refine ⟨?_, rfl, nofun, nofun⟩
    show (Function.update exchange.ledger.heap ref _ ref).userId = _
    rw [Function.update_self]
    rfl
  by_cases refuses : exchange.RefusesAmend config ref msg.newPrice msg.newQty
  · have handled := @handleModifyOrderRequest_refused _ _ exchange env config header ref msg listed selected inv refuses
    let reject := (env.slot begun.responses.length).writeRejectModify header msg .smp
      (env.clock (begun.touchOrder env ref).globals.clockReads)
    refine ⟨pending, [reject], ?_, reports, fun _ => ⟨reject, rfl, rfl, rfl, rfl, rfl, nofun⟩,
      fun willing => absurd refuses willing⟩
    refine (congrArg Ledger.responses handled).trans ?_
    show begun.responses ++ [reject] = _
    rw [begunResponses, List.append_assoc]
    rfl
  · obtain ⟨swept, sweeps, handled⟩ := handleModifyOrderRequest_amends env header listed selected inv refuses
    let replaced := (env.slot begun.responses.length).writeModify
      ((begun.heap ref).replace msg.newPrice msg.newQty) msg.newPrice msg.newQty header.timeStamp
    have amended : (exchange.amendedLedger env header msg ref).responses =
        exchange.matching.responses ++ [pending, replaced] := by
      show begun.responses ++ [replaced] = _
      rw [begunResponses, List.append_assoc]
      rfl
    have sweptPath : Micros env ((Terms.newOnly 0).permit env) _ _ := sweeps.sweeps.micros
    obtain ⟨fills, sweptResponses, unrejected⟩ := sweptPath.addsNoReject (fun _ _ forbidden => forbidden)
    obtain ⟨closing, settled, closingFine⟩ : ∃ closing,
        (swept.settleAmend env ref header.timeStamp (exchange.amendCloses msg ref swept)
          ((exchange.matching.order ref).requeues msg.newPrice msg.newQty)).responses = swept.responses ++ closing ∧
        ∀ report ∈ closing, report.execType ≠ .rejected := by
      rw [Ledger.settleAmend_responses]
      split
      · refine ⟨_, rfl, ?_⟩
        intro report member
        rw [List.mem_singleton.mp member]
        nofun
      · exact ⟨[], (List.append_nil _).symm, by rintro _ ⟨⟩⟩
    refine ⟨pending, replaced :: (fills ++ closing), ?_, reports, fun refused => absurd refused refuses, ?_⟩
    · refine (congrArg Ledger.responses handled).trans ?_
      rw [settled, show swept.responses = _ from sweptResponses, amended]
      simp
    · intro _
      refine ⟨⟨replaced, List.mem_cons_self, rfl⟩, ?_⟩
      intro report member
      rcases List.mem_cons.mp member with rfl | member
      · nofun
      · rcases List.mem_append.mp member with fill | close
        · exact unrejected report fill
        · exact closingFine report close

variable (env) in
theorem cancel_published_unknown (msg : CancelOrderMessage)
    (unknown : header.symbol ≠ config.symbol ∨ selectOrder exchange.book msg.clientOrderId msg.orderId = none) :
    ∃ reject, (exchange.handleCancelOrderRequest env config header msg).matching.responses =
        exchange.matching.responses ++ [reject] ∧ Rejects header msg.userId reject := by
  obtain ⟨reason, isReason, rejected⟩ := @handleCancelOrderRequest_unknown _ _ exchange env config header msg unknown
  rw [rejected]
  exact ⟨_, rfl, rfl, rfl, rfl, rfl, isReason⟩

variable (env) in
/-- A cancel of an order that is there is reported as pending and then as made. -/
theorem cancel_published (msg : CancelOrderMessage) {ref : Nat} (inv : exchange.ledger.Represents .none)
    (listed : header.symbol = config.symbol)
    (selected : selectOrder exchange.book msg.clientOrderId msg.orderId = some ref) :
    ∃ pending canceled, (exchange.handleCancelOrderRequest env config header msg).matching.responses =
        exchange.matching.responses ++ [pending, canceled] ∧
      Reports header (exchange.matching.order ref) pending ∧
      Reports header (exchange.matching.order ref) canceled ∧
      canceled.execType = .canceled ∧ canceled.orderId = (exchange.matching.order ref).orderId := by
  obtain ⟨handled, -⟩ := @handleCancelOrderRequest_cancels _ _ exchange env config Permit.all header ref msg listed
    selected inv trivial
  let marked := exchange.ledger.updateOrder ref (beginCancel header.requestTag)
  have self : marked.heap ref = beginCancel header.requestTag (exchange.matching.order ref) :=
    Function.update_self ..
  let begun := marked.publish env fun slot => slot.writeCancelPending (marked.heap ref) header.timeStamp
  let touched := begun.touchOrder env ref
  let removed := (touched.placeEntry (touched.heap ref).id none (touched.heap ref).lastUpdateTime).updateOrder ref
    Order.withoutLeaves
  have touchedSelf : touched.heap ref =
      { marked.heap ref with lastUpdateTime := env.clock begun.globals.clockReads } := Function.update_self ..
  have removedSelf : removed.heap ref = (touched.heap ref).withoutLeaves := Function.update_self ..
  let pending := (env.slot exchange.matching.responses.length).writeCancelPending (marked.heap ref) header.timeStamp
  let canceled := (env.slot begun.responses.length).writeCancel (removed.heap ref) header.timeStamp
  refine ⟨pending, canceled, ?_, ⟨?_, rfl, nofun, nofun⟩, ⟨?_, rfl, nofun, nofun⟩, rfl, ?_⟩
  · refine (congrArg Ledger.responses handled).trans ?_
    show (exchange.matching.responses ++ [pending]) ++ [canceled] = _
    rw [List.append_assoc]
    rfl
  · show (marked.heap ref).userId = _
    rw [self]
    rfl
  · show (removed.heap ref).userId = _
    rw [removedSelf, touchedSelf, self]
    rfl
  · show (removed.heap ref).orderId = _
    rw [removedSelf, touchedSelf, self]
    rfl

end Exchange

/-! ## Verdicts -/

namespace CoinbaseRestOrderGateway

variable {β : Type} [OrderBookL3 β] (gateway : CoinbaseRestOrderGateway) (exchange : Exchange β)
  (env : Environment) (config : SymbolConfig)

/-- The responses a handler reads: all since its cursor, and what comes later. -/
def readStream (after : Exchange β) (cursor : Nat) (later : List OrderResponse) : List OrderResponse :=
  after.matching.responses.drop cursor ++ later

omit [OrderBookL3 β] in
theorem readStream_eq {exchange : Exchange β} {after : Exchange β} {cursor : Nat} {reports : List OrderResponse}
    (taken : cursor ≤ exchange.matching.responses.length)
    (responses : after.matching.responses = exchange.matching.responses ++ reports)
    (later : List OrderResponse) :
    readStream after cursor later = exchange.matching.responses.drop cursor ++ (reports ++ later) := by
  unfold readStream
  rw [responses, List.drop_append_of_le_length taken, List.append_assoc]

theorem handleCreateOrder_success {order : CreateOrder} {stream : List OrderResponse} :
    (∃ orderId, (gateway.handleCreateOrder order stream).1 = .success orderId) ↔
      ∃ response, stream.find? (answersCreate order) = some response ∧ response.orderStatus ≠ .rejected := by
  unfold handleCreateOrder
  cases stream.find? (answersCreate order) with
  | none => simp
  | some response =>
      by_cases rejected : response.orderStatus = .rejected
      · simp [rejected]
      · simp [rejected]

/-- A new order is reported as a success only if the exchange did not reject it. -/
def CreateAgrees (order : CreateOrder) (timeStamp requestTag cursor : Nat) (later : List OrderResponse) : Prop :=
  let after := exchange.handleNewOrderRequest env config (requestHeader timeStamp requestTag order.productId)
    order.message
  (∃ orderId, (gateway.handleCreateOrder order (readStream after cursor later)).1 = .success orderId) →
    ¬ ∃ report ∈ exchange.published after, report.execType = .rejected

/-- The request is turned away before anything is published for it. -/
def TurnedAway (header : RequestHeader) (msg : AddOrderMessage) : Prop :=
  header.symbol ≠ config.symbol ∨ exchange.ClientIdTaken msg.clientOrderId

/-- What the gateway takes for the answer to a new order is one. -/
def CreateClear (order : CreateOrder) (timeStamp requestTag cursor : Nat) : Prop :=
  let header := requestHeader timeStamp requestTag order.productId
  match (exchange.matching.responses.drop cursor).find? (answersCreate order) with
  | some response => response.orderStatus = .rejected ∨
      ¬ (TurnedAway exchange config header order.message ∨ exchange.RefusesNew env config header order.message)
  | none => ¬ ((Name.Holds order.userId ∧ Name.Holds order.clientOrderId) ∧
      ¬ TurnedAway exchange config header order.message ∧ exchange.RefusesNew env config header order.message)

variable {exchange env config}

theorem createAgrees_iff (inv : exchange.ledger.Represents .none) (order : CreateOrder) (timeStamp requestTag : Nat)
    (admitted : exchange.Admits env (.newOrder (requestHeader timeStamp requestTag order.productId) order.message))
    {cursor : Nat} (taken : cursor ≤ exchange.matching.responses.length) (later : List OrderResponse) :
    CreateAgrees gateway exchange env config order timeStamp requestTag cursor later ↔
      CreateClear exchange env config order timeStamp requestTag cursor := by
  obtain ⟨first, rest, published, responses, user, client, firstRejects, rejects⟩ :=
    Exchange.newOrder_published config inv admitted
  unfold CreateAgrees CreateClear
  dsimp only
  rw [handleCreateOrder_success, readStream_eq taken responses, List.find?_append, published, rejects]
  cases (exchange.matching.responses.drop cursor).find? (answersCreate order) with
  | some response =>
      simp only [Option.some_or, Option.some.injEq, exists_eq_left', ne_eq]
      exact (imp_iff_not_or).trans (or_congr_left not_not)
  | none =>
      by_cases holds : Name.Holds order.userId ∧ Name.Holds order.clientOrderId
      · have isAnswer : answersCreate order first = true := by
          have userIs : first.userId.bytes = order.userId := (congrArg FixedString.bytes user).trans holds.1
          have clientIs : first.clientOrderId.bytes = order.clientOrderId :=
            (congrArg FixedString.bytes client).trans holds.2
          unfold answersCreate
          rw [userIs, clientIs, decide_eq_true rfl, decide_eq_true rfl]
          rfl
        rw [Option.none_or, List.cons_append, List.find?_cons_of_pos isAnswer]
        simp only [Option.some.injEq, exists_eq_left', ne_eq, firstRejects]
        unfold TurnedAway
        tauto
      · have unanswered : (first :: rest ++ later).find? (answersCreate order) = none := by
          rw [List.find?_eq_none]
          intro response _ answers
          exact holds (answersCreate_holds answers)
        rw [Option.none_or, unanswered]
        refine iff_of_true ?_ (fun ⟨bothHold, _⟩ => holds bothHold)
        rintro ⟨response, ⟨⟩, -⟩

/-! ### Edits -/

theorem verdictOf_success {reason : OrdRejectReason} : verdictOf reason = .success ↔ reason = .none := by
  unfold verdictOf
  split <;> simp [*]

theorem handleEditOrder_success {edit : EditOrder} {timeStamp : Nat} {stream : List OrderResponse}
    {symbol : List UInt8} (known : gateway.orderIdToSymbol edit.orderId = some symbol) :
    gateway.handleEditOrder edit timeStamp stream = .success ↔
      ∃ response, stream.find? (answersRequest edit.userId timeStamp) = some response ∧ reasonOf response = .none := by
  unfold handleEditOrder
  rw [known]
  cases stream.find? (answersRequest edit.userId timeStamp) with
  | none => simp [verdictOf]
  | some response => simp [verdictOf_success]

theorem cancelVerdict_success {entry : CancelEntry} {timeStamp : Nat} {stream : List OrderResponse}
    {symbol : List UInt8} (known : gateway.orderIdToSymbol entry.orderId = some symbol) :
    gateway.cancelVerdict entry timeStamp stream = .success ↔
      ∀ response ∈ stream.find? (answersRequest entry.userId timeStamp), reasonOf response = .none := by
  unfold cancelVerdict
  rw [known]
  cases stream.find? (answersRequest entry.userId timeStamp) with
  | none => simp [verdictOf]
  | some response => simp [verdictOf_success]

variable (exchange env config)

def afterEdit (edit : EditOrder) (timeStamp requestTag : Nat) : Exchange β :=
  match gateway.orderIdToSymbol edit.orderId with
  | none => exchange
  | some symbol =>
      exchange.handleModifyOrderRequest env config (requestHeader timeStamp requestTag symbol) edit.message

/-- An edit is reported as a success exactly if it was made and not rejected. -/
def EditAgrees (edit : EditOrder) (timeStamp requestTag cursor : Nat) (later : List OrderResponse) : Prop :=
  let after := afterEdit gateway exchange env config edit timeStamp requestTag
  let published := exchange.published after
  gateway.handleEditOrder edit timeStamp (readStream after cursor later) = .success ↔
    (∃ report ∈ published, report.execType = .replaced) ∧ ∀ report ∈ published, report.execType ≠ .rejected

/-- The order a request of the gateway is about. -/
def requestTarget (header : RequestHeader) (orderId : Name) : Option Nat :=
  if header.symbol = config.symbol then Exchange.selectOrder exchange.book default orderId else none

/-- What the gateway takes for the answer to an edit is one. -/
def EditClear (edit : EditOrder) (timeStamp requestTag cursor : Nat) : Prop :=
  ∀ symbol ∈ gateway.orderIdToSymbol edit.orderId,
    let target := requestTarget exchange config (requestHeader timeStamp requestTag symbol) edit.message.orderId
    match (exchange.matching.responses.drop cursor).find? (answersRequest edit.userId timeStamp) with
    | some response => reasonOf response = .none ↔
        ∃ ref ∈ target, ¬ exchange.RefusesAmend config ref edit.newPrice edit.newQty
    | none => ∀ ref ∈ target, (exchange.matching.order ref).userId.bytes = edit.userId ↔
        ¬ exchange.RefusesAmend config ref edit.newPrice edit.newQty

variable {exchange env config}

theorem reasonOf_rejects {header : RequestHeader} {userId : Name} {response : OrderResponse}
    (rejects : Exchange.Rejects header userId response) : reasonOf response ≠ .none := by
  unfold reasonOf
  rw [if_pos rejects.status]
  exact rejects.reason

theorem reasonOf_reports {header : RequestHeader} {order : Order} {response : OrderResponse}
    (reports : Exchange.Reports header order response) : reasonOf response = .none :=
  if_neg reports.status

theorem answersRequest_iff (userId : List UInt8) {timeStamp : Nat} {response : OrderResponse} {user : Name}
    (isUser : response.userId = user) (isStamp : response.requestTime = timeStamp) :
    answersRequest userId timeStamp response = true ↔ user.bytes = userId := by
  unfold answersRequest
  rw [isUser, isStamp, decide_eq_true rfl, Bool.and_true, decide_eq_true_iff]

/-- A string no wire field holds is never answered. -/
theorem find_answersRequest_of_not_holds {userId : List UInt8} (tooLong : ¬ Name.Holds userId) (timeStamp : Nat)
    (stream : List OrderResponse) : stream.find? (answersRequest userId timeStamp) = none := by
  rw [List.find?_eq_none]
  intro response _ answers
  exact tooLong (answersRequest_holds answers)

/-- A reject that names the user is found first, unless no field holds the user's name. -/
theorem find_rejects {userId : List UInt8} {timeStamp : Nat} {header : RequestHeader} {reject : OrderResponse}
    (isStamp : header.timeStamp = timeStamp)
    (rejects : Exchange.Rejects header (Name.copyWireField userId) reject) (later : List OrderResponse) :
    ¬ ∃ response, (reject :: later).find? (answersRequest userId timeStamp) = some response ∧
      reasonOf response = .none := by
  rintro ⟨response, found, isNone⟩
  by_cases holds : Name.Holds userId
  · rw [List.find?_cons_of_pos ((answersRequest_iff userId rejects.user (rejects.stamp.trans isStamp)).mpr holds)] at found
    cases found
    exact reasonOf_rejects rejects isNone
  · rw [find_answersRequest_of_not_holds holds] at found
    cases found

omit [OrderBookL3 β] in
theorem unknown_of_requestTarget {header : RequestHeader} {orderId : Name}
    (absent : requestTarget exchange config header orderId = none) :
    header.symbol ≠ config.symbol ∨ Exchange.selectOrder exchange.book default orderId = none := by
  unfold requestTarget at absent
  split at absent
  case isTrue => exact .inr absent
  case isFalse unlisted => exact .inl unlisted

omit [OrderBookL3 β] in
theorem listed_of_requestTarget {header : RequestHeader} {orderId : Name} {ref : Nat}
    (found : requestTarget exchange config header orderId = some ref) :
    header.symbol = config.symbol ∧ Exchange.selectOrder exchange.book default orderId = some ref := by
  unfold requestTarget at found
  split at found
  case isTrue listed => exact ⟨listed, found⟩
  case isFalse => cases found

/-- What the exchange publishes for an edit, and what the gateway makes of it when it has
heard nothing before. -/
theorem edit_heard (inv : exchange.ledger.Represents .none) (edit : EditOrder) (header : RequestHeader) :
    ∃ reports, (exchange.handleModifyOrderRequest env config header edit.message).matching.responses =
        exchange.matching.responses ++ reports ∧
      (((∃ report ∈ reports, report.execType = .replaced) ∧ ∀ report ∈ reports, report.execType ≠ .rejected) ↔
        ∃ ref ∈ requestTarget exchange config header edit.message.orderId,
          ¬ exchange.RefusesAmend config ref edit.newPrice edit.newQty) ∧
      ∀ later, (∀ ref ∈ requestTarget exchange config header edit.message.orderId,
          (exchange.matching.order ref).userId.bytes = edit.userId ∨
            exchange.RefusesAmend config ref edit.newPrice edit.newQty) →
        ((∃ response, (reports ++ later).find? (answersRequest edit.userId header.timeStamp) = some response ∧
            reasonOf response = .none) ↔
          ∃ ref ∈ requestTarget exchange config header edit.message.orderId,
            (exchange.matching.order ref).userId.bytes = edit.userId) := by
  cases target : requestTarget exchange config header edit.message.orderId with
  | none =>
      obtain ⟨reject, responses, rejects⟩ := Exchange.amend_published_unknown env edit.message
        (unknown_of_requestTarget target)
      refine ⟨[reject], responses, ?_, ?_⟩
      · refine iff_of_false ?_ ?_
        · rintro ⟨-, fine⟩
          exact fine reject (List.mem_singleton_self _) rejects.kind
        · rintro ⟨ref, ⟨⟩, -⟩
      · intro later _
        refine iff_of_false (find_rejects rfl rejects later) ?_
        rintro ⟨ref, ⟨⟩, -⟩
  | some ref =>
      obtain ⟨listed, selected⟩ := listed_of_requestTarget target
      obtain ⟨pending, rest, responses, reports, refused, amended⟩ :=
        Exchange.amend_published env edit.message inv listed selected
      have heard := answersRequest_iff edit.userId reports.user reports.stamp
      refine ⟨pending :: rest, responses, ?_, ?_⟩
      · by_cases refuses : exchange.RefusesAmend config ref edit.newPrice edit.newQty
        · obtain ⟨reject, rfl, rejects⟩ := refused refuses
          refine iff_of_false ?_ ?_
          · rintro ⟨-, fine⟩
            exact fine reject (by simp) rejects.kind
          · rintro ⟨_, ⟨⟩, willing⟩
            exact willing refuses
        · obtain ⟨⟨report, member, isReplaced⟩, fine⟩ := amended refuses
          refine iff_of_true ⟨⟨report, List.mem_cons_of_mem _ member, isReplaced⟩, ?_⟩ ⟨ref, rfl, refuses⟩
          intro other otherMember
          rcases List.mem_cons.mp otherMember with rfl | otherMember
          · exact reports.kind
          · exact fine other otherMember
      · intro later own
        by_cases isOwn : (exchange.matching.order ref).userId.bytes = edit.userId
        · refine iff_of_true ⟨pending, ?_, reasonOf_reports reports⟩ ⟨ref, rfl, isOwn⟩
          exact List.find?_cons_of_pos (heard.mpr isOwn)
        · obtain ⟨reject, rfl, rejects⟩ := refused ((own ref rfl).resolve_left isOwn)
          refine iff_of_false ?_ ?_
          · rw [List.cons_append, List.find?_cons_of_neg (fun answers => isOwn (heard.mp answers))]
            exact find_rejects rfl rejects later
          · rintro ⟨_, ⟨⟩, same⟩
            exact isOwn same

/-- A handler that has heard something takes it for the answer. -/
theorem find_of_earlier {earlier reports : List OrderResponse} {answers : OrderResponse → Bool}
    {response : OrderResponse} (heard : earlier.find? answers = some response) :
    (earlier ++ reports).find? answers = some response := by
  rw [List.find?_append, heard, Option.some_or]

theorem find_of_silent {earlier reports : List OrderResponse} {answers : OrderResponse → Bool}
    (silent : earlier.find? answers = none) : (earlier ++ reports).find? answers = reports.find? answers := by
  rw [List.find?_append, silent, Option.none_or]

theorem editAgrees_unknown {edit : EditOrder} (unknown : gateway.orderIdToSymbol edit.orderId = none)
    (timeStamp requestTag cursor : Nat) (later : List OrderResponse) :
    EditAgrees gateway exchange env config edit timeStamp requestTag cursor later := by
  unfold EditAgrees afterEdit handleEditOrder
  rw [unknown]
  refine iff_of_false nofun ?_
  rintro ⟨⟨report, member, -⟩, -⟩
  rw [Exchange.published_eq (List.append_nil _).symm] at member
  cases member

/-- The verdict on an edit agrees with the exchange when what the gateway takes for the
answer is one, and for orders of the user's own only then. -/
theorem editAgrees_iff (inv : exchange.ledger.Represents .none) (edit : EditOrder) (timeStamp requestTag : Nat)
    {cursor : Nat} (taken : cursor ≤ exchange.matching.responses.length) (later : List OrderResponse) :
    (EditClear gateway exchange config edit timeStamp requestTag cursor →
      EditAgrees gateway exchange env config edit timeStamp requestTag cursor later) ∧
    ((∀ symbol ∈ gateway.orderIdToSymbol edit.orderId,
        ∀ ref ∈ requestTarget exchange config (requestHeader timeStamp requestTag symbol) edit.message.orderId,
          (exchange.matching.order ref).userId.bytes = edit.userId) →
      EditAgrees gateway exchange env config edit timeStamp requestTag cursor later →
      EditClear gateway exchange config edit timeStamp requestTag cursor) := by
  cases known : gateway.orderIdToSymbol edit.orderId with
  | none =>
      refine ⟨fun _ => editAgrees_unknown gateway known .., ?_⟩
      intro _ _ symbol isSymbol
      rw [known] at isSymbol
      cases isSymbol
  | some symbol =>
      let header := requestHeader timeStamp requestTag symbol
      obtain ⟨reports, responses, applied, heard⟩ := @edit_heard _ _ exchange env config inv edit header
      have agrees : EditAgrees gateway exchange env config edit timeStamp requestTag cursor later ↔
          ((∃ response, (exchange.matching.responses.drop cursor ++ (reports ++ later)).find?
              (answersRequest edit.userId timeStamp) = some response ∧ reasonOf response = .none) ↔
            ∃ ref ∈ requestTarget exchange config header edit.message.orderId,
              ¬ exchange.RefusesAmend config ref edit.newPrice edit.newQty) := by
        unfold EditAgrees afterEdit
        rw [known]
        dsimp only
        rw [handleEditOrder_success gateway known, readStream_eq taken responses, Exchange.published_eq responses,
          applied]
      rw [agrees]
      unfold EditClear
      rw [known]
      simp only [Option.mem_def, Option.some.injEq, forall_eq']
      cases earlier : (exchange.matching.responses.drop cursor).find? (answersRequest edit.userId timeStamp) with
      | some response =>
          rw [find_of_earlier earlier]
          simp only [Option.some.injEq, exists_eq_left']
          exact ⟨id, fun _ => id⟩
      | none =>
          rw [find_of_silent earlier]
          constructor
          · intro clear
            refine (heard later ?_).trans ?_
            · intro ref isTarget
              by_cases refuses : exchange.RefusesAmend config ref edit.newPrice edit.newQty
              · exact .inr refuses
              · exact .inl ((clear ref isTarget).mpr refuses)
            · exact exists_congr fun ref => and_congr_right fun isTarget => clear ref isTarget
          · intro own agreed ref isTarget
            have isHeard := (heard later fun other isOther => .inl (own other isOther)).mpr
              ⟨ref, isTarget, own ref isTarget⟩
            obtain ⟨other, isOther, willing⟩ := agreed.mp isHeard
            rw [isTarget] at isOther
            cases isOther
            exact iff_of_true (own ref isTarget) willing

/-! ### Cancels -/

variable (exchange env config)

def afterCancel (entry : CancelEntry) (timeStamp requestTag : Nat) : Exchange β :=
  match gateway.orderIdToSymbol entry.orderId with
  | none => exchange
  | some symbol =>
      exchange.handleCancelOrderRequest env config (requestHeader timeStamp requestTag symbol) entry.message

/-- A cancel is reported as a success exactly if it cancelled the order. -/
def CancelAgrees (entry : CancelEntry) (timeStamp requestTag cursor : Nat) (later : List OrderResponse) : Prop :=
  let after := afterCancel gateway exchange env config entry timeStamp requestTag
  gateway.cancelVerdict entry timeStamp (readStream after cursor later) = .success ↔
    ∃ report ∈ exchange.published after, report.execType = .canceled ∧ report.orderId = entry.message.orderId

/-- What the gateway takes for the answer to a cancel is one. -/
def CancelClear (entry : CancelEntry) (timeStamp requestTag cursor : Nat) (later : List OrderResponse) : Prop :=
  ∀ symbol ∈ gateway.orderIdToSymbol entry.orderId,
    let target := requestTarget exchange config (requestHeader timeStamp requestTag symbol) entry.message.orderId
    match (exchange.matching.responses.drop cursor).find? (answersRequest entry.userId timeStamp) with
    | some response => reasonOf response = .none ↔ target.isSome = true
    | none =>
        match target with
        | none => Name.Holds entry.userId
        | some ref => (exchange.matching.order ref).userId.bytes = entry.userId ∨
            ∀ response ∈ later.find? (answersRequest entry.userId timeStamp), reasonOf response = .none

variable {exchange env config}

/-- What the exchange publishes for a cancel, and what the gateway makes of it when it has
heard nothing before. -/
theorem cancel_heard (inv : exchange.ledger.Represents .none) (entry : CancelEntry) (header : RequestHeader) :
    ∃ reports, (exchange.handleCancelOrderRequest env config header entry.message).matching.responses =
        exchange.matching.responses ++ reports ∧
      ((∃ report ∈ reports, report.execType = .canceled ∧ report.orderId = entry.message.orderId) ↔
        (requestTarget exchange config header entry.message.orderId).isSome = true) ∧
      ∀ later, (∀ response ∈ (reports ++ later).find? (answersRequest entry.userId header.timeStamp),
          reasonOf response = .none) ↔
        match requestTarget exchange config header entry.message.orderId with
        | none => ¬ Name.Holds entry.userId
        | some ref => (exchange.matching.order ref).userId.bytes = entry.userId ∨
            ∀ response ∈ later.find? (answersRequest entry.userId header.timeStamp), reasonOf response = .none := by
  cases target : requestTarget exchange config header entry.message.orderId with
  | none =>
      obtain ⟨reject, responses, rejects⟩ := Exchange.cancel_published_unknown env entry.message
        (unknown_of_requestTarget target)
      refine ⟨[reject], responses, ?_, ?_⟩
      · refine iff_of_false ?_ nofun
        rintro ⟨report, member, isCanceled, -⟩
        rw [List.mem_singleton.mp member, rejects.kind] at isCanceled
        cases isCanceled
      · intro later
        have heard := answersRequest_iff entry.userId rejects.user rejects.stamp
        by_cases holds : Name.Holds entry.userId
        · refine iff_of_false ?_ (not_not_intro holds)
          intro fine
          exact reasonOf_rejects rejects (fine reject (List.find?_cons_of_pos (heard.mpr holds)))
        · refine iff_of_true ?_ holds
          rw [find_answersRequest_of_not_holds holds]
          rintro _ ⟨⟩
  | some ref =>
      obtain ⟨listed, selected⟩ := listed_of_requestTarget target
      obtain ⟨pending, canceled, responses, pendingReports, canceledReports, isCanceled, isOrder⟩ :=
        Exchange.cancel_published env entry.message inv listed selected
      have named : (exchange.matching.order ref).orderId = entry.message.orderId :=
        (inv.indexed.byOrder_iff.mp (show exchange.ledger.byOrder entry.message.orderId = some ref from selected)).2.2
      refine ⟨[pending, canceled], responses, iff_of_true ⟨canceled, by simp, isCanceled, isOrder.trans named⟩ rfl, ?_⟩
      intro later
      have heard := answersRequest_iff entry.userId pendingReports.user pendingReports.stamp
      have heardAgain := answersRequest_iff entry.userId canceledReports.user canceledReports.stamp
      by_cases isOwn : (exchange.matching.order ref).userId.bytes = entry.userId
      · refine iff_of_true ?_ (.inl isOwn)
        rw [List.cons_append, List.find?_cons_of_pos (heard.mpr isOwn)]
        rintro _ ⟨⟩
        exact reasonOf_reports pendingReports
      · rw [List.cons_append, List.find?_cons_of_neg (fun answers => isOwn (heard.mp answers)), List.cons_append,
          List.find?_cons_of_neg (fun answers => isOwn (heardAgain.mp answers))]
        exact (or_iff_right isOwn).symm

/-- The verdict on a cancel agrees with the exchange exactly when what the gateway takes for
the answer is one. -/
theorem cancelAgrees_iff (inv : exchange.ledger.Represents .none) (entry : CancelEntry) (timeStamp requestTag : Nat)
    {cursor : Nat} (taken : cursor ≤ exchange.matching.responses.length) (later : List OrderResponse) :
    CancelAgrees gateway exchange env config entry timeStamp requestTag cursor later ↔
      CancelClear gateway exchange config entry timeStamp requestTag cursor later := by
  cases known : gateway.orderIdToSymbol entry.orderId with
  | none =>
      refine iff_of_true ?_ ?_
      · unfold CancelAgrees afterCancel cancelVerdict
        rw [known]
        refine iff_of_false nofun ?_
        rintro ⟨report, member, -⟩
        rw [Exchange.published_eq (List.append_nil _).symm] at member
        cases member
      · intro symbol isSymbol
        rw [known] at isSymbol
        cases isSymbol
  | some symbol =>
      let header := requestHeader timeStamp requestTag symbol
      obtain ⟨reports, responses, canceled, heard⟩ := @cancel_heard _ _ exchange env config inv entry header
      unfold CancelAgrees afterCancel CancelClear
      rw [known]
      simp only [Option.mem_def, Option.some.injEq, forall_eq']
      rw [cancelVerdict_success gateway known, readStream_eq taken responses, Exchange.published_eq responses,
        canceled]
      cases earlier : (exchange.matching.responses.drop cursor).find? (answersRequest entry.userId timeStamp) with
      | some response =>
          rw [find_of_earlier earlier]
          simp only [Option.mem_def, Option.some.injEq, forall_eq']
          rfl
      | none =>
          have heardNow : (∀ response ∈ (reports ++ later).find? (answersRequest entry.userId timeStamp),
              reasonOf response = .none) ↔ _ := heard later
          rw [find_of_silent earlier, heardNow]
          show _ ↔ match requestTarget exchange config header entry.message.orderId with | none => _ | some _ => _
          cases requestTarget exchange config header entry.message.orderId with
          | none => simp
          | some ref => simp [header, requestHeader]

/-! ### Batches -/

/-- One cancel of a batch, with the exchange its request finds. -/
structure CancelAttempt (β : Type) where
  orderId : List UInt8
  timeStamp : Nat
  requestTag : Nat
  exchange : Exchange β
  cursor : Nat
  later : List OrderResponse

namespace CancelAttempt

variable (env config) (userId : List UInt8) (attempt : CancelAttempt β)

def entry : CancelEntry :=
  ⟨userId, attempt.orderId⟩

def after : Exchange β :=
  afterCancel gateway attempt.exchange env config (attempt.entry userId) attempt.timeStamp attempt.requestTag

/-- What the loop of `handle_batch_cancel` has of the attempt. -/
def heard : List UInt8 × Nat × List OrderResponse :=
  (attempt.orderId, attempt.timeStamp, readStream (attempt.after gateway env config userId) attempt.cursor attempt.later)

def Cancels : Prop :=
  ∃ report ∈ attempt.exchange.published (attempt.after gateway env config userId),
    report.execType = .canceled ∧ report.orderId = (attempt.entry userId).message.orderId

/-- The response stream is read from before the request, and what is taken for its answer is one. -/
structure Clear : Prop where
  taken : attempt.cursor ≤ attempt.exchange.matching.responses.length
  clear : CancelClear gateway attempt.exchange config (attempt.entry userId) attempt.timeStamp attempt.requestTag
    attempt.cursor attempt.later

end CancelAttempt

variable (env) in
/-- A batch reports as successes the orders its requests cancel, and forgets these and no others. -/
theorem batchCancel_agrees {allowed : Exchange β → Input → Prop} (userId : List UInt8)
    {attempts : List (CancelAttempt β)}
    (reachable : ∀ attempt ∈ attempts, Exchange.Reachable env config allowed attempt.exchange)
    (clear : ∀ attempt ∈ attempts, attempt.Clear gateway config userId) :
    let batch := gateway.handleBatchCancel userId (attempts.map (·.heard gateway env config userId))
    List.Forall₂ (fun attempt result => result.1 = attempt.orderId ∧
        (result.2 = .success ↔ attempt.Cancels gateway env config userId)) attempts batch.1 ∧
      ∀ orderId,
        let cancelled := ∃ attempt ∈ attempts, attempt.orderId = orderId ∧ attempt.Cancels gateway env config userId
        (cancelled → batch.2.orderIdToSymbol orderId = none) ∧
          (¬ cancelled → batch.2.orderIdToSymbol orderId = gateway.orderIdToSymbol orderId) := by
  have agrees : ∀ attempt ∈ attempts, (gateway.cancelVerdict (attempt.entry userId) attempt.timeStamp
      (attempt.heard gateway env config userId).2.2 = .success ↔ attempt.Cancels gateway env config userId) := by
    intro attempt member
    exact (cancelAgrees_iff gateway (reachable attempt member).represents.1 (attempt.entry userId) attempt.timeStamp
      attempt.requestTag (clear attempt member).taken attempt.later).mpr (clear attempt member).clear
  intro batch
  have results : batch.1 = attempts.map fun attempt => (attempt.orderId,
      gateway.cancelVerdict (attempt.entry userId) attempt.timeStamp (attempt.heard gateway env config userId).2.2) :=
    List.map_map
  have forgotten : ∀ orderId, batch.2.orderIdToSymbol orderId =
      if orderId ∈ (batch.1.filter fun result => decide (result.2 = .success)).map Prod.fst then none
      else gateway.orderIdToSymbol orderId := fun _ => rfl
  have cancelled : ∀ orderId, orderId ∈ (batch.1.filter fun result => decide (result.2 = .success)).map Prod.fst ↔
      ∃ attempt ∈ attempts, attempt.orderId = orderId ∧ attempt.Cancels gateway env config userId := by
    intro orderId
    rw [results]
    constructor
    · intro member
      obtain ⟨result, isResult, rfl⟩ := List.mem_map.mp member
      obtain ⟨inside, success⟩ := List.mem_filter.mp isResult
      obtain ⟨attempt, isAttempt, rfl⟩ := List.mem_map.mp inside
      exact ⟨attempt, isAttempt, rfl, (agrees attempt isAttempt).mp (of_decide_eq_true success)⟩
    · rintro ⟨attempt, isAttempt, rfl, cancels⟩
      refine List.mem_map.mpr ⟨_, List.mem_filter.mpr ⟨List.mem_map_of_mem isAttempt, ?_⟩, rfl⟩
      exact decide_eq_true ((agrees attempt isAttempt).mpr cancels)
  refine ⟨?_, fun orderId => ?_⟩
  · rw [results, List.forall₂_map_right_iff, List.forall₂_same]
    exact fun attempt member => ⟨rfl, agrees attempt member⟩
  · intro isCancelled
    rw [forgotten]
    refine ⟨fun cancels => if_pos ((cancelled orderId).mpr cancels), fun kept => if_neg ?_⟩
    exact fun member => kept ((cancelled orderId).mp member)

/-- Whatever the exchange has been through and whatever else it publishes, the verdicts
agree with it when what the gateway takes for the answer is one. For new orders, for
cancels and for edits of the user's own orders they agree only then. -/
theorem verdicts_agree_iff {allowed : Exchange β → Input → Prop}
    (reachable : Exchange.Reachable env config allowed exchange) {cursor : Nat}
    (taken : cursor ≤ exchange.matching.responses.length) (later : List OrderResponse) :
    (∀ (order : CreateOrder) (timeStamp requestTag : Nat),
      exchange.Admits env (.newOrder (requestHeader timeStamp requestTag order.productId) order.message) →
      (CreateAgrees gateway exchange env config order timeStamp requestTag cursor later ↔
        CreateClear exchange env config order timeStamp requestTag cursor)) ∧
    (∀ (edit : EditOrder) (timeStamp requestTag : Nat),
      (EditClear gateway exchange config edit timeStamp requestTag cursor →
        EditAgrees gateway exchange env config edit timeStamp requestTag cursor later) ∧
      ((∀ symbol ∈ gateway.orderIdToSymbol edit.orderId,
          ∀ ref ∈ requestTarget exchange config (requestHeader timeStamp requestTag symbol) edit.message.orderId,
            (exchange.matching.order ref).userId.bytes = edit.userId) →
        EditAgrees gateway exchange env config edit timeStamp requestTag cursor later →
        EditClear gateway exchange config edit timeStamp requestTag cursor)) ∧
    (∀ (entry : CancelEntry) (timeStamp requestTag : Nat),
      CancelAgrees gateway exchange env config entry timeStamp requestTag cursor later ↔
        CancelClear gateway exchange config entry timeStamp requestTag cursor later) := by
  have inv := reachable.represents.1
  refine ⟨?_, ?_, ?_⟩
  · intro order timeStamp requestTag admitted
    exact createAgrees_iff gateway inv order timeStamp requestTag admitted taken later
  · intro edit timeStamp requestTag
    exact editAgrees_iff gateway inv edit timeStamp requestTag taken later
  · intro entry timeStamp requestTag
    exact cancelAgrees_iff gateway inv entry timeStamp requestTag taken later

private def placed (side : Side) (clientOrderId : UInt8) : CreateOrder :=
  { userId := [97], productId := [], clientOrderId := [clientOrderId], side, type := .limit
    timeInForce := .goodTillCancel, price := 100, qty := 5 }

private def gatewayEnv : Environment := .counted fun _ => default

private def newGateway : CoinbaseRestOrderGateway := ⟨fun _ => none⟩

private def newExchange : Exchange ReferenceBook := .new (fun _ => default) true

private theorem newExchange_reachable (smpMode : SelfMatchPreventionMode) :
    Exchange.Reachable gatewayEnv (.reference smpMode) (fun (_ : Exchange ReferenceBook) _ => True) newExchange :=
  .new _ _

/-- An order that meets nothing is reported as it is. -/
theorem verdict_agrees_emptyBook :
    CreateAgrees newGateway newExchange gatewayEnv (.reference .cancelNewest) (placed .sell 49) 1 0 0 [] := by
  refine ((verdicts_agree_iff newGateway (newExchange_reachable .cancelNewest) (Nat.zero_le _) []).1
    (placed .sell 49) 1 0 (by decide +kernel)).mpr ?_
  rintro ⟨-, -, -, -, would⟩
  revert would
  decide +kernel

/-- The exchange once a client has an order to sell. -/
private def offered : Exchange ReferenceBook :=
  newExchange.handleNewOrderRequest gatewayEnv (.reference .cancelNewest) (requestHeader 1 0 []) (placed .sell 49).message

/-- The client's own order to buy is turned away, and reported as a success. -/
theorem verdict_disagrees_selfMatch :
    let after := offered.handleNewOrderRequest gatewayEnv (.reference .cancelNewest) (requestHeader 2 0 [])
      (placed .buy 50).message
    (offered.published after).map OrderResponse.orderStatus = [.pendingNew, .rejected] ∧
      ¬ CreateAgrees newGateway offered gatewayEnv (.reference .cancelNewest) (placed .buy 50) 2 0
        offered.matching.responses.length [] := by
  intro after
  have statuses : (offered.published after).map OrderResponse.orderStatus = [.pendingNew, .rejected] := by
    decide +kernel
  have kinds : (offered.published after).map OrderResponse.execType = [.new, .rejected] := by decide +kernel
  have success : (newGateway.handleCreateOrder (placed .buy 50)
      (readStream after offered.matching.responses.length [])).1 = .success (Environment.countedName 1) := by
    decide +kernel
  refine ⟨statuses, ?_⟩
  intro agrees
  refine agrees ⟨_, success⟩ ?_
  have member : ExecType.rejected ∈ (offered.published after).map OrderResponse.execType := by
    rw [kinds]
    decide
  exact List.mem_map.mp member

end CoinbaseRestOrderGateway

end SlickSim
