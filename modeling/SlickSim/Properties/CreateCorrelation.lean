import SlickSim.Properties.RestVerdict

/-!
# Which response a new order waits for

The handler of a new order compares the wire fields of a response with the strings of
the HTTP request. A string that its field does not hold in full is never found again,
so the client of an accepted order is told of a timeout.
-/

set_option autoImplicit false

namespace SlickSim

open CoinbaseRestOrderGateway

/-- What an identity field of the wire holds in full: 36 bytes before the terminator. -/
def Name.Fits (value : List UInt8) : Prop :=
  value.length ≤ 36 ∧ 0 ∉ value

theorem Name.holds_iff (value : List UInt8) : Name.Holds value ↔ Name.Fits value := by
  constructor
  · intro holds
    have name := Name.copyWireField value
    have fits := (Name.copyWireField value).fits
    have terminated := (Name.copyWireField value).terminated
    rw [holds] at fits terminated
    exact ⟨Nat.le_of_lt_succ fits, terminated⟩
  · rintro ⟨short, terminated⟩
    exact Name.holds_bytes ⟨value, Nat.lt_succ_of_le short, terminated⟩

namespace CoinbaseRestOrderGateway

variable {β : Type} [OrderBookL3 β] {exchange : Exchange β} {env : Environment} {config : SymbolConfig}

/-- A response that carries an order's wire fields answers its handler when both strings fit. -/
theorem answersCreate_iff {order : CreateOrder} {response : OrderResponse}
    (user : response.userId = order.message.userId) (client : response.clientOrderId = order.message.clientOrderId) :
    answersCreate order response = true ↔ Name.Fits order.userId ∧ Name.Fits order.clientOrderId := by
  rw [← Name.holds_iff, ← Name.holds_iff]
  constructor
  · exact answersCreate_holds
  · rintro ⟨userHolds, clientHolds⟩
    have userIs := (congrArg FixedString.bytes user).trans userHolds
    have clientIs := (congrArg FixedString.bytes client).trans clientHolds
    rw [answersCreate, userIs, clientIs, decide_eq_true rfl, decide_eq_true rfl]
    rfl

/-- A response with another pair of names on the wire answers no handler but its own. -/
theorem answersCreate_apart {order : CreateOrder} {response : OrderResponse}
    (apart : (response.userId, response.clientOrderId) ≠ (order.message.userId, order.message.clientOrderId)) :
    answersCreate order response = false := by
  refine Bool.eq_false_iff.mpr fun answers => apart ?_
  obtain ⟨userHolds, clientHolds⟩ := answersCreate_holds answers
  obtain ⟨user, client⟩ := Bool.and_eq_true_iff.mp answers
  have userIs : response.userId = order.message.userId :=
    FixedString.ext_bytes ((of_decide_eq_true user).trans userHolds.symm)
  have clientIs : response.clientOrderId = order.message.clientOrderId :=
    FixedString.ext_bytes ((of_decide_eq_true client).trans clientHolds.symm)
  rw [userIs, clientIs]

theorem handleCreateOrder_timeout (gateway : CoinbaseRestOrderGateway) {order : CreateOrder}
    {stream : List OrderResponse} : (gateway.handleCreateOrder order stream).1 ≠ .timeout ↔
      ∃ response ∈ stream, answersCreate order response = true := by
  rw [handleCreateOrder, ← List.find?_isSome, Option.isSome_iff_exists]
  cases stream.find? (answersCreate order) with
  | none =>
      refine iff_of_false (not_not.mpr rfl) ?_
      rintro ⟨response, ⟨⟩⟩
  | some response =>
      refine iff_of_true ?_ ⟨response, rfl⟩
      by_cases rejected : response.orderStatus = .rejected
      · simp only [rejected, if_true]
        rintro ⟨⟩
      · simp only [rejected, if_false]
        rintro ⟨⟩

/-- The first response to a new order is the one its handler waits for, and the handler does not
time out, exactly when the user id and the client order id fit their wire fields. No handler
whose fields differ takes it. -/
theorem createOrder_correlates_iff (gateway : CoinbaseRestOrderGateway) {allowed : Exchange β → Input → Prop}
    (reachable : Exchange.Reachable env config allowed exchange) (order : CreateOrder) (timeStamp requestTag : Nat)
    (admitted : exchange.Admits env (.newOrder (requestHeader timeStamp requestTag order.productId) order.message)) :
    let after := exchange.handleNewOrderRequest env config (requestHeader timeStamp requestTag order.productId)
      order.message
    ∃ first rest, exchange.published after = first :: rest ∧
      (answersCreate order first = true ↔ Name.Fits order.userId ∧ Name.Fits order.clientOrderId) ∧
      (∀ cursor ≤ exchange.matching.responses.length, ∀ later,
        (gateway.handleCreateOrder order (readStream after cursor later)).1 ≠ .timeout ↔
          Name.Fits order.userId ∧ Name.Fits order.clientOrderId) ∧
      ∀ other : CreateOrder,
        (order.message.userId, order.message.clientOrderId) ≠ (other.message.userId, other.message.clientOrderId) →
          answersCreate other first = false := by
  intro after
  obtain ⟨first, rest, published, responses, user, client, -⟩ :=
    Exchange.newOrder_published config reachable.represents.1 admitted
  have answers := answersCreate_iff user client
  refine ⟨first, rest, published, answers, ?_, ?_⟩
  · intro cursor taken later
    rw [handleCreateOrder_timeout, readStream_eq taken responses]
    constructor
    · rintro ⟨response, -, isAnswer⟩
      rw [← Name.holds_iff, ← Name.holds_iff]
      exact answersCreate_holds isAnswer
    · intro fit
      refine ⟨first, List.mem_append_right _ (List.mem_append_left _ List.mem_cons_self), answers.mpr fit⟩
  · intro other apart
    refine answersCreate_apart ?_
    rw [user, client]
    exact apart

private def sellOrder (clientOrderId : List UInt8) : CreateOrder :=
  { userId := [97], productId := [], clientOrderId, side := .sell, type := .limit
    timeInForce := .goodTillCancel, price := 100, qty := 5 }

private def openExchange : Exchange ReferenceBook := .new (fun _ => default) true

private def slots : Environment := .counted fun _ => default

/-- A client order id of 36 bytes. -/
theorem createOrder_correlates_iff_full :
    let order := sellOrder (List.replicate 36 49)
    let after := openExchange.handleNewOrderRequest slots (.reference .none)
      (requestHeader 1 0 order.productId) order.message
    ∃ first rest, openExchange.published after = first :: rest ∧
      (answersCreate order first = true ↔ Name.Fits order.userId ∧ Name.Fits order.clientOrderId) ∧
      (∀ cursor ≤ openExchange.matching.responses.length, ∀ later,
        ((⟨fun _ => none⟩ : CoinbaseRestOrderGateway).handleCreateOrder order (readStream after cursor later)).1 ≠
            .timeout ↔
          Name.Fits order.userId ∧ Name.Fits order.clientOrderId) ∧
      ∀ other : CreateOrder,
        (order.message.userId, order.message.clientOrderId) ≠ (other.message.userId, other.message.clientOrderId) →
          answersCreate other first = false :=
  @createOrder_correlates_iff _ _ openExchange slots (.reference .none) ⟨fun _ => none⟩ (fun _ _ => True) (.new _ _)
    (sellOrder (List.replicate 36 49)) 1 0 (by decide +kernel)

/-- The exchange accepts an order whose client order id has 37 bytes, and the client is told of a timeout. -/
theorem not_createOrder_answered :
    ¬ ∀ order : CreateOrder,
      let after := openExchange.handleNewOrderRequest slots (.reference .none)
        (requestHeader 1 0 order.productId) order.message
      (openExchange.published after).map OrderResponse.orderStatus = [.pendingNew, .new] →
        ((⟨fun _ => none⟩ : CoinbaseRestOrderGateway).handleCreateOrder order (readStream after 0 [])).1 ≠ .timeout := by
  intro every
  have answered := every (sellOrder (List.replicate 37 49)) (by decide +kernel)
  rw [handleCreateOrder_timeout] at answered
  obtain ⟨response, -, answers⟩ := answered
  have fits := (Name.holds_iff _).mp (answersCreate_holds answers).2
  exact absurd fits.1 (by decide)

end CoinbaseRestOrderGateway

end SlickSim
