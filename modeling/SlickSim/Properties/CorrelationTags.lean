import SlickSim.OrderBook.Reference
import SlickSim.Exchange.RequestReports
import SlickSim.Ledger.Reachable

/-!
# Correlation tags

What a request reports on the order it names carries the tag of the request. Every other
report carries the tag of the last request its order accepted.
-/

set_option autoImplicit false

namespace SlickSim

def Input.requestTag : Input → Option Nat
  | .newOrder header _ | .amend header _ | .cancel header _ => some header.requestTag
  | _ => none

namespace Exchange

variable {β : Type} [OrderBookL3 β] {env : Environment} {config : SymbolConfig} {exchange : Exchange β}
  {input : Input}

open MatchState (Rejects Handled)

/-- The number of the order an amendment or a cancel finds. -/
def foundOrder (exchange : Exchange β) (config : SymbolConfig) (header : RequestHeader)
    (clientOrderId orderId : Name) : Option Nat :=
  if header.symbol ≠ config.symbol then none
  else (selectOrder exchange.book clientOrderId orderId).map fun ref => (exchange.matching.order ref).id

/-- The number of the order a request creates or finds. -/
def namedOrder (exchange : Exchange β) (config : SymbolConfig) : Input → Option Nat
  | .newOrder header msg =>
      if header.symbol ≠ config.symbol ∨ exchange.ClientIdTaken msg.clientOrderId then none
      else some exchange.book.globals.nextOrderId
  | .amend header msg => exchange.foundOrder config header msg.clientOrderId msg.orderId
  | .cancel header msg => exchange.foundOrder config header msg.clientOrderId msg.orderId
  | _ => none

/-- The tag each order accepted last, by order number. A request that is turned away is
not accepted. -/
def acceptTag (exchange : Exchange β) (env : Environment) (config : SymbolConfig) (input : Input)
    (tags : Nat → Option Nat) : Nat → Option Nat :=
  match exchange.namedOrder config input with
  | none => tags
  | some id =>
      if Rejects (exchange.reportsOf env config input) then tags
      else Function.update tags id input.requestTag

def acceptTags (env : Environment) (config : SymbolConfig) :
    Exchange β → (Nat → Option Nat) → List Input → Nat → Option Nat
  | _, tags, [] => tags
  | exchange, tags, input :: rest =>
      acceptTags env config (exchange.step env config input) (exchange.acceptTag env config input tags) rest

/-- The tag a report under an order number carries. A reject goes under no number. -/
def tagFor (exchange : Exchange β) (config : SymbolConfig) (input : Input) (tags : Nat → Option Nat)
    (orderNum : Nat) : Option Nat :=
  if orderNum = 0 ∨ exchange.namedOrder config input = some orderNum then input.requestTag
  else tags orderNum

/-- Every order in the maps has the tag it accepted last. -/
def Tagged (exchange : Exchange β) (tags : Nat → Option Nat) : Prop :=
  ∀ id ref, exchange.book.findOrder id = some ref → tags id = some (exchange.matching.order ref).requestTag

section Step

variable (inv : exchange.ledger.Represents .none) {tags : Nat → Option Nat} (tagged : exchange.Tagged tags)

include inv tagged in
/-- A report on an order of the maps that the input does not name. -/
theorem tagFor_held {ref : Nat} (held : exchange.book.Holds ref)
    (apart : exchange.namedOrder config input ≠ some (exchange.matching.order ref).id)
    {response : OrderResponse} (on : response.IsOn (exchange.matching.order ref).identity) :
    some response.requestTag = exchange.tagFor config input tags response.orderNum := by
  obtain ⟨found, numbered, -⟩ := holds_number inv held
  have sameId : response.orderNum = (exchange.matching.order ref).id := on.orderNum
  unfold tagFor
  rw [sameId, if_neg (by rintro (zero | named); exacts [numbered zero, apart named]),
    tagged _ _ found, on.requestTag]
  rfl

variable {ref : Nat} {identity : OrderIdentity} {told : List OrderResponse}

include inv tagged in
/-- The reports of a request for one order. -/
theorem handled_tagFor
    (handled : Handled ref identity told exchange.matching (exchange.step env config input).matching)
    (named : exchange.namedOrder config input = some identity.id)
    (tag : input.requestTag = some identity.requestTag)
    (apart : ∀ other, other ≠ ref → exchange.book.Holds other →
      (exchange.matching.order other).id ≠ identity.id) :
    ∀ response ∈ exchange.reportsOf env config input,
      some response.requestTag = exchange.tagFor config input tags response.orderNum := by
  rw [reportsOf_eq handled.responses]
  have unnamed : ∀ other, other ≠ ref → exchange.book.Holds other →
      exchange.namedOrder config input ≠ some (exchange.matching.order other).id := by
    intro other different held same
    rw [named] at same
    exact apart other different held (Option.some.inj same).symm
  intro response member
  cases handled.answers response member with
  | own on =>
      unfold tagFor
      rw [if_pos (.inr (named.trans (congrArg some on.orderNum.symm))), tag, on.requestTag]
  | reject noNumber _ sameTag =>
      unfold tagFor
      rw [if_pos (.inl noNumber), tag, sameTag]
  | fill different held on _ => exact tagFor_held inv tagged held (unnamed _ different held) on
  | selfMatch different held on _ _ => exact tagFor_held inv tagged held (unnamed _ different held) on

include inv tagged in
/-- The tags after a request for one order. -/
theorem handled_tagged (after : (exchange.step env config input).ledger.Represents .none)
    (handled : Handled ref identity told exchange.matching (exchange.step env config input).matching)
    (named : exchange.namedOrder config input = some identity.id)
    (apart : ∀ other, other ≠ ref → exchange.book.Holds other →
      (exchange.matching.order other).id ≠ identity.id)
    (sameId : ((exchange.step env config input).matching.order ref).id = identity.id)
    (kept : (exchange.step env config input).book.Holds ref →
      exchange.acceptTag env config input tags identity.id =
        some ((exchange.step env config input).matching.order ref).requestTag) :
    (exchange.step env config input).Tagged (exchange.acceptTag env config input tags) := by
  intro id other found
  have isId : ((exchange.step env config input).matching.order other).id = id :=
    after.indexed.owner_id (show (exchange.step env config input).ledger.owner id = some other from found)
  by_cases same : other = ref
  · subst same
    rw [← isId, sameId]
    exact kept ⟨id, found⟩
  · have held := (handled.holds ⟨id, found⟩).resolve_right same
    have sameIdentity := handled.others other same
    have isOld : (exchange.matching.order other).id = id :=
      (congrArg OrderIdentity.id sameIdentity).symm.trans isId
    have sameTag : ((exchange.step env config input).matching.order other).requestTag =
        (exchange.matching.order other).requestTag := congrArg OrderIdentity.requestTag sameIdentity
    have different : id ≠ identity.id := isOld ▸ apart other same held
    have old := tagged _ _ (holds_number inv held).1
    rw [isOld] at old
    unfold acceptTag
    rw [named, sameTag]
    dsimp only
    split
    · exact old
    · rw [Function.update_of_ne different]
      exact old

end Step

/-! ## Requests -/

section Requests

variable (inv : exchange.ledger.Represents .none) {tags : Nat → Option Nat} (tagged : exchange.Tagged tags)
  {header : RequestHeader}

omit [OrderBookL3 β] in
theorem foundOrder_none {clientOrderId orderId : Name}
    (unknown : header.symbol ≠ config.symbol ∨ selectOrder exchange.book clientOrderId orderId = none) :
    exchange.foundOrder config header clientOrderId orderId = none := by
  unfold foundOrder
  split
  · rfl
  · rename_i listed
    rw [unknown.resolve_left listed]
    rfl

omit [OrderBookL3 β] in
theorem foundOrder_some {clientOrderId orderId : Name} {ref : Nat} (listed : header.symbol = config.symbol)
    (selected : selectOrder exchange.book clientOrderId orderId = some ref) :
    exchange.foundOrder config header clientOrderId orderId = some (exchange.matching.order ref).id := by
  unfold foundOrder
  rw [if_neg (fun unlisted => unlisted listed), selected]
  rfl

/-- What one input owes its reports and leaves to the later ones. -/
def Correlates (exchange : Exchange β) (env : Environment) (config : SymbolConfig) (input : Input)
    (tags : Nat → Option Nat) : Prop :=
  (∀ response ∈ exchange.reportsOf env config input,
      some response.requestTag = exchange.tagFor config input tags response.orderNum) ∧
    (exchange.step env config input).Tagged (exchange.acceptTag env config input tags)

include tagged in
/-- A request that is turned away at once. -/
theorem rejected_correlates {write : OrderResponse → Nat → OrderResponse}
    (isStep : exchange.step env config input = exchange.onMatching fun state => state.publishReject env write)
    (unnamed : exchange.namedOrder config input = none) (tag : input.requestTag = some header.requestTag)
    (noNumber : ∀ slot now, (write slot now).orderNum = 0)
    (sameTag : ∀ slot now, (write slot now).requestTag = header.requestTag) :
    exchange.Correlates env config input tags := by
  constructor
  · rw [@reportsOf_eq β _ env config exchange input [write (env.slot exchange.matching.responses.length)
      (exchange.book.currentTime env)] (by rw [isStep]; rfl)]
    intro response member
    rw [List.mem_singleton.mp member, sameTag]
    unfold tagFor
    rw [if_pos (.inl (noNumber ..)), tag]
  · unfold acceptTag
    rw [unnamed, isStep]
    exact tagged

variable (after : (exchange.step env config input).ledger.Represents .none)

include inv tagged after in
/-- A request for an order of the maps. Turned away, it leaves the order its tag. -/
theorem found_correlates {ref : Nat} {told : List OrderResponse} (held : exchange.book.Holds ref)
    (handled : Handled ref (exchange.identityUnder ref header) told exchange.matching
      (exchange.step env config input).matching)
    (self : ((exchange.step env config input).matching.order ref).identity =
      if Rejects told then (exchange.matching.order ref).identity else exchange.identityUnder ref header)
    (named : exchange.namedOrder config input = some (exchange.matching.order ref).id)
    (tag : input.requestTag = some header.requestTag) : exchange.Correlates env config input tags := by
  have apart : ∀ other, other ≠ ref → exchange.book.Holds other →
      (exchange.matching.order other).id ≠ (exchange.identityUnder ref header).id :=
    fun other different otherHeld => holds_apart inv held different otherHeld
  refine ⟨handled_tagFor inv tagged handled named tag apart,
    handled_tagged inv tagged after handled named apart ?_ fun _ => ?_⟩
  · have sameId := congrArg OrderIdentity.id self
    split at sameId
    · exact sameId
    · exact sameId
  · have sameTag := congrArg OrderIdentity.requestTag self
    unfold acceptTag
    rw [named, reportsOf_eq handled.responses]
    dsimp only
    split at sameTag <;> rename_i rejected
    · rw [if_pos rejected]
      exact (tagged _ _ (holds_number inv held).1).trans (congrArg some sameTag.symm)
    · rw [if_neg rejected, show (exchange.identityUnder ref header).id = (exchange.matching.order ref).id from
        rfl, Function.update_self, tag]
      exact congrArg some sameTag.symm

end Requests

section Inputs

variable (inv : exchange.ledger.Represents .none) {tags : Nat → Option Nat} (tagged : exchange.Tagged tags)

include inv tagged

/-- Nobody is named, so every report is on an order of the maps. -/
theorem feed_correlates (after : (exchange.step env config input).ledger.Represents .none)
    (feed : input.isRequest = false) : exchange.Correlates env config input tags := by
  have served := exchange.step_serves env config feed
  have unnamed : exchange.namedOrder config input = none := by
    cases input <;> first | rfl | cases feed
  obtain ⟨told, isTold, reports⟩ := served.matching.reports
  refine ⟨?_, ?_⟩
  · rw [reportsOf_eq isTold]
    intro response member
    cases reports response member with
    | own acts => cases acts
    | fill held on _ =>
        refine tagFor_held inv tagged held ?_ on
        rw [unnamed]
        rintro ⟨⟩
    | selfMatch acts => cases acts
  · unfold acceptTag
    rw [unnamed]
    intro id ref found
    have held := (served.matching.knows ⟨id, found⟩).resolve_right (by rintro ⟨⟩)
    have sameIdentity := served.matching.identity ref
    have isId : ((exchange.step env config input).matching.order ref).id = id :=
      after.indexed.owner_id (show (exchange.step env config input).ledger.owner id = some ref from found)
    have old := tagged _ _ (holds_number inv held).1
    rw [show (exchange.matching.order ref).id = id from
      (congrArg OrderIdentity.id sameIdentity).symm.trans isId] at old
    exact old.trans (congrArg some (congrArg OrderIdentity.requestTag sameIdentity).symm)

theorem newOrder_correlates {header : RequestHeader} {msg : AddOrderMessage}
    (admitted : exchange.Admits env (.newOrder header msg))
    (after : (exchange.step env config (.newOrder header msg)).ledger.Represents .none) :
    exchange.Correlates env config (.newOrder header msg) tags := by
  by_cases wrong : header.symbol ≠ config.symbol ∨ exchange.ClientIdTaken msg.clientOrderId
  · obtain ⟨reason, rejected⟩ := @handleNewOrderRequest_rejects β _ exchange env config header msg wrong
    exact rejected_correlates tagged rejected (if_pos wrong) rfl (fun _ _ => rfl) (fun _ _ => rfl)
  · have listed : header.symbol = config.symbol := by
      by_contra unlisted
      exact wrong (.inl unlisted)
    obtain ⟨told, handled, self, gone, -⟩ := @handleNewOrderRequest_handled β _ env config exchange header msg
      inv admitted listed (fun taken => wrong (.inr taken))
    have isId : (exchange.newOrder env config header msg).identity.id = exchange.book.globals.nextOrderId :=
      newOrder_id exchange env config header msg
    have named : exchange.namedOrder config (.newOrder header msg) =
        some (exchange.newOrder env config header msg).identity.id := by
      rw [isId]
      exact if_neg wrong
    have apart : ∀ other, other ≠ env.pool exchange.book.live → exchange.book.Holds other →
        (exchange.matching.order other).id ≠ (exchange.newOrder env config header msg).identity.id := by
      intro other _ held
      rw [isId]
      exact Nat.ne_of_lt (holds_number inv held).2.2
    refine ⟨handled_tagFor inv tagged handled named rfl apart,
      handled_tagged inv tagged after handled named apart (congrArg OrderIdentity.id self) ?_⟩
    intro held
    have accepted : ¬ Rejects told := fun rejected => gone rejected held
    unfold acceptTag
    rw [named, @reportsOf_eq β _ env config exchange (.newOrder header msg) _ handled.responses]
    dsimp only
    rw [if_neg accepted, Function.update_self]
    exact congrArg some (congrArg OrderIdentity.requestTag self).symm

theorem amend_correlates {header : RequestHeader} {msg : ModifyOrderMessage}
    (after : (exchange.step env config (.amend header msg)).ledger.Represents .none) :
    exchange.Correlates env config (.amend header msg) tags := by
  by_cases unknown : header.symbol ≠ config.symbol ∨
      selectOrder exchange.book msg.clientOrderId msg.orderId = none
  · obtain ⟨reason, -, rejected⟩ := @handleModifyOrderRequest_unknown β _ exchange env config header msg unknown
    exact rejected_correlates tagged rejected (foundOrder_none unknown) rfl (fun _ _ => rfl) (fun _ _ => rfl)
  · push Not at unknown
    obtain ⟨listed, found⟩ := unknown
    obtain ⟨ref, selected⟩ := Option.ne_none_iff_exists'.mp found
    obtain ⟨told, handled, self⟩ := @handleModifyOrderRequest_handled β _ env config exchange header ref msg
      listed selected
    exact found_correlates inv tagged after (selectOrder_holds inv selected) handled self
      (foundOrder_some listed selected) rfl

theorem cancel_correlates {header : RequestHeader} {msg : CancelOrderMessage}
    (after : (exchange.step env config (.cancel header msg)).ledger.Represents .none) :
    exchange.Correlates env config (.cancel header msg) tags := by
  by_cases unknown : header.symbol ≠ config.symbol ∨
      selectOrder exchange.book msg.clientOrderId msg.orderId = none
  · obtain ⟨reason, -, rejected⟩ := @handleCancelOrderRequest_unknown β _ exchange env config header msg unknown
    exact rejected_correlates tagged rejected (foundOrder_none unknown) rfl (fun _ _ => rfl) (fun _ _ => rfl)
  · push Not at unknown
    obtain ⟨listed, found⟩ := unknown
    obtain ⟨ref, selected⟩ := Option.ne_none_iff_exists'.mp found
    obtain ⟨told, handled, accepted, self⟩ := @handleCancelOrderRequest_handled β _ env config exchange header
      ref msg listed selected
    refine found_correlates inv tagged after (selectOrder_holds inv selected) handled ?_
      (foundOrder_some listed selected) rfl
    rw [if_neg accepted]
    exact self

end Inputs

theorem step_correlates (inv : exchange.ledger.Represents .none) (totalled : exchange.ledger.Totalled)
    (admitted : exchange.Admits env input) {tags : Nat → Option Nat} (tagged : exchange.Tagged tags) :
    exchange.Correlates env config input tags := by
  have after := @step_represents β _ env config exchange input inv totalled admitted
  cases input with
  | newOrder header msg => exact newOrder_correlates inv tagged admitted after
  | amend header msg => exact amend_correlates inv tagged after
  | cancel header msg => exact cancel_correlates inv tagged after
  | level2Snapshot | coinbaseEvent | l2Snapshot | l2Diff | trades | marketOrder | marketTrade
  | flushMarketEvents | subscribe | subscribeServed | elsewhere => exact feed_correlates inv tagged after rfl

/-! ## Runs -/

private theorem run_correlates {tags : Nat → Option Nat} (reachable : Reachable env config Anything exchange)
    (tagged : exchange.Tagged tags) {inputs : List Input} (input : Input)
    (takes : exchange.Takes env config Anything (inputs ++ [input])) :
    (exchange.run env config inputs).Correlates env config input (acceptTags env config exchange tags inputs) := by
  induction inputs generalizing exchange tags with
  | nil =>
      obtain ⟨inv, totalled⟩ := reachable.represents
      exact step_correlates inv totalled takes.1 tagged
  | cons first rest ih =>
      obtain ⟨inv, totalled⟩ := reachable.represents
      obtain ⟨admitted, permitted, takes⟩ := takes
      exact ih (reachable.step first admitted permitted)
        (step_correlates inv totalled admitted tagged).2 takes

/-- Whatever an exchange has been through, every report the next input causes carries the
tag of the request when it is about the order the request names, and else the tag its
order accepted last. -/
theorem reports_correlated (env : Environment) (config : SymbolConfig) (pool : Nat → Order)
    (publishOrderUpdates : Bool) (inputs : List Input) (input : Input)
    (takes : (Exchange.new pool publishOrderUpdates : Exchange β).Takes env config Anything
      (inputs ++ [input])) :
    let new : Exchange β := Exchange.new pool publishOrderUpdates
    let exchange := new.run env config inputs
    let tags := acceptTags env config new (fun _ => none) inputs
    ∀ response ∈ exchange.reportsOf env config input,
      some response.requestTag = exchange.tagFor config input tags response.orderNum := by
  have tagged : (Exchange.new pool publishOrderUpdates : Exchange β).Tagged fun _ => none := by
    intro id ref found
    cases found
  exact (run_correlates (.new pool publishOrderUpdates) tagged input takes).1

/-- A bid is entered under tag 7 and amended under tag 8; an offer under tag 9 fills it. -/
theorem reports_correlated_passive :
    let env : Environment := .counted fun _ => { (default : OrderResponse) with requestTag := 5 }
    let new : Exchange ReferenceBook := Exchange.new (fun _ => { (default : Order) with requestTag := 6 }) true
    let limit (tag : Nat) (side : Side) : Input := .newOrder { Input.header with requestTag := tag }
      { userId := default, clientOrderId := Environment.countedName tag, side, type := .limit
        timeInForce := .goodTillCancel, price := 100, qty := 4 }
    let inputs : List Input := [limit 7 .buy, .amend { Input.header with requestTag := 8 }
      { userId := default, orderId := default, clientOrderId := Environment.countedName 7, newPrice := 100
        newQty := 3 }]
    let exchange := new.run env (.reference .none) inputs
    let tags := acceptTags env (.reference .none) new (fun _ => none) inputs
    new.Takes env (.reference .none) Anything (inputs ++ [limit 9 .sell]) ∧
      (exchange.reportsOf env (.reference .none) (limit 9 .sell)).map
        (fun response => (response.orderNum, response.requestTag)) = [(2, 9), (2, 9), (2, 9), (1, 8)] ∧
      ∀ response ∈ exchange.reportsOf env (.reference .none) (limit 9 .sell), some response.requestTag =
        exchange.tagFor (.reference .none) (limit 9 .sell) tags response.orderNum := by
  intro env new limit inputs exchange tags
  have takes : new.Takes env (.reference .none) Anything (inputs ++ [limit 9 .sell]) := by decide +kernel
  exact ⟨takes, by decide +kernel, reports_correlated env (.reference .none) _ true inputs _ takes⟩

end Exchange

end SlickSim
