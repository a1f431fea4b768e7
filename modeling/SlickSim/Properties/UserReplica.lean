import SlickSim.Lib.Along
import SlickSim.Properties.OrderHistory
import SlickSim.Properties.UserStreams

/-!
# What a subscriber of the user channel knows

A client takes the snapshot it is answered with and overwrites its picture of an order with
every update on it. As long as its socket is the one that serves its user, the picture tells
what the gateway's own entry says, as far as a snapshot or an update can: neither tells the
quantity of every order, and their words for a status differ.
-/

set_option autoImplicit false

namespace SlickSim

/-! ## The client -/

/-- What both a snapshot and an update tell of an order. -/
structure OrderTerms where
  buys : Bool
  type : OrderType
  amending : Bool
  leaves : Int
  filled : Int
  averagePrice : Int
  /-- A snapshot tells the price of the orders that have a configuration with one. -/
  limitPrice : Option Int
deriving DecidableEq

def OrderConfiguration.limitPrice : OrderConfiguration → Option Int
  | .absent | .marketMarketIoc _ => none
  | .marketMarketFok _ limitPrice => limitPrice
  | .limitLimitGtc _ limitPrice _ | .sorLimitIoc _ limitPrice => some limitPrice

def OrderJson.terms (order : OrderJson) : OrderTerms where
  buys := decide (order.side = .buy)
  type := order.orderType
  amending := decide (order.status = .pendingReplace)
  leaves := order.workableSize
  filled := order.filledSize
  averagePrice := order.averageFilledPrice
  limitPrice := order.orderConfiguration.limitPrice

def UserUpdate.terms (update : UserUpdate) : OrderTerms where
  buys := update.buys
  type := update.orderType
  amending := decide (update.status = .editQueued)
  leaves := update.leavesQuantity
  filled := update.cumulativeQuantity
  averagePrice := update.avgPrice
  limitPrice := some update.limitPrice

/-- What a client makes of the snapshot and the updates since. -/
def clientView (snapshot : List OrderJson) (updates : List UserUpdate) (orderId : Name) : Option OrderTerms :=
  match (updates.filter fun update => decide (update.orderId = orderId)).getLast? with
  | some last => some last.terms
  | none => (snapshot.find? fun order => decide (order.orderId = orderId)).map OrderJson.terms

/-- The terms are those of an order. A good-till-cancelled limit order has its price. -/
structure OrderTerms.Tells (terms : OrderTerms) (order : Order) : Prop where
  buys : terms.buys = decide (order.side = .buy)
  type : terms.type = order.type
  amending : terms.amending = decide (order.status = .pendingReplace)
  leaves : terms.leaves = order.leavesQuantity
  filled : terms.filled = order.cumQuantity
  averagePrice : terms.averagePrice = order.avgFillPrice
  limitPrice : ∀ price ∈ terms.limitPrice, price = order.price
  priced : order.type = .limit → order.timeInForce = .goodTillCancel → terms.limitPrice.isSome

theorem Order.toJson_tells (order : Order) : order.toJson.terms.Tells order where
  buys := rfl
  type := rfl
  amending := rfl
  leaves := rfl
  filled := rfl
  averagePrice := rfl
  limitPrice := by
    intro price isPrice
    change price ∈ order.configuration.limitPrice at isPrice
    unfold Order.configuration at isPrice
    split at isPrice
    case h_3 | h_4 | h_5 => exact (Option.some.inj isPrice).symm
    case h_1 | h_2 | h_6 => cases isPrice
  priced := by
    intro isLimit rests
    change order.configuration.limitPrice.isSome
    unfold Order.configuration
    rw [isLimit, rests]
    rfl

theorem OrderStatus.toCoinbase_editQueued (status : OrderStatus) :
    status.toCoinbase = .editQueued ↔ status = .pendingReplace := by
  cases status <;> decide

theorem Order.Restates.update_tells {entry : Order} {response : OrderResponse} (restates : entry.Restates response) :
    response.update.terms.Tells entry where
  buys := by
    rw [restates.side]
    rfl
  type := restates.type.symm
  amending := by
    rw [restates.status]
    exact decide_eq_decide.mpr response.orderStatus.toCoinbase_editQueued
  leaves := restates.leaves.symm
  filled := restates.filled.symm
  averagePrice := restates.average.symm
  limitPrice := by
    intro price isPrice
    rw [restates.price]
    exact (Option.some.inj isPrice).symm
  priced := fun _ _ => rfl

/-! ## The store -/

theorem responsesUnder_append (first later : List OrderResponse) (orderId : Name) :
    responsesUnder (first ++ later) orderId = responsesUnder first orderId ++ responsesUnder later orderId :=
  List.filter_append ..

/-- The snapshot of a user has the entry of an order, if the order is the user's alone. -/
theorem snapshot_find {responses : List OrderResponse} {orderId : Name} {user : UserId}
    (named : orderId.isEmpty = false)
    (own : ∀ response ∈ responsesUnder responses orderId, response.userId.bytes = user) :
    (((OrderStore.replay responses).ordersOfUser user).find? fun order => decide (order.orderId = orderId)) =
      (OrderStore.replay responses).find orderId := by
  rw [OrderStore.replay_ordersOfUser]
  unfold ordersOfUser
  cases found : (List.find? _ _ : Option Order) with
  | none =>
      have unmentioned : responsesUnder responses orderId = [] := by
        by_contra mentioned
        obtain ⟨first, isFirst, same⟩ := List.mem_map.mp (mem_firstMentions.mpr ⟨named, mentioned⟩)
        have told : first ∈ responses := (firstMentions_sublist responses).subset isFirst
        have mine : first.userId.bytes = user := own first (List.mem_filter.mpr ⟨told, decide_eq_true same⟩)
        refine List.find?_eq_none.mp found (OrderStore.reported responses first) ?_ ?_
        · exact List.mem_map_of_mem (List.mem_reverse.mpr (List.mem_filter.mpr ⟨isFirst, decide_eq_true mine⟩))
        · exact decide_eq_true ((OrderStore.reported_orderId responses first).trans same)
      rw [OrderStore.replay_find_none unmentioned]
  | some order =>
      obtain ⟨first, member, rfl⟩ := List.mem_map.mp (List.mem_of_find?_eq_some found)
      have isFirst := List.mem_of_mem_filter (List.mem_reverse.mp member)
      have isNamed := List.find?_some found
      have same : first.orderId = orderId :=
        (OrderStore.reported_orderId responses first).symm.trans (of_decide_eq_true isNamed)
      rw [← same, OrderStore.replay_find_first isFirst]

/-- Responses on other orders leave an entry alone. -/
theorem OrderStore.replay_find_append {before since : List OrderResponse} {orderId : Name}
    (none : responsesUnder since orderId = []) :
    (replay (before ++ since)).find orderId = (replay before).find orderId := by
  unfold replay
  rw [List.foldl_append]
  generalize before.foldl apply new = store
  induction since generalizing store with
  | nil => rfl
  | cons response since ih =>
      have other : response.orderId ≠ orderId := by
        intro same
        rw [responsesUnder, List.filter_cons_of_pos (by simp [same])] at none
        cases none
      rw [responsesUnder, List.filter_cons_of_neg (by simp [other])] at none
      exact (ih none _).trans (store.apply_find_other response other)

/-! ## Updates -/

def heard (delivered : List (Nat × UserUpdate)) (ws : Nat) (orderId : Name) : List UserUpdate :=
  ((delivered.filter fun sent => decide (sent.1 = ws)).map Prod.snd).filter fun update =>
    decide (update.orderId = orderId)

theorem heard_append (first later : List (Nat × UserUpdate)) (ws : Nat) (orderId : Name) :
    heard (first ++ later) ws orderId = heard first ws orderId ++ heard later ws orderId := by
  unfold heard
  rw [List.filter_append, List.map_append, List.filter_append]

/-- Pending orders are not told of. -/
def Settled (response : OrderResponse) : Bool :=
  decide (response.orderStatus ≠ .pendingNew)

/-- The updates on an order among some responses. -/
def updatesUnder (responses : List OrderResponse) (orderId : Name) : List UserUpdate :=
  ((responsesUnder responses orderId).filter Settled).map OrderResponse.update

theorem updatesUnder_append (first later : List OrderResponse) (orderId : Name) :
    updatesUnder (first ++ later) orderId = updatesUnder first orderId ++ updatesUnder later orderId := by
  unfold updatesUnder
  rw [responsesUnder_append, List.filter_append, List.map_append]

namespace CoinbaseWsOrderGateway

/-- The user is filed under the socket, and it is open. -/
structure Serving (ws : Nat) (user : UserId) (gateway : CoinbaseWsOrderGateway) : Prop where
  filed : gateway.clients.lookup user = some ws
  isOpen : ws ∈ gateway.sockets

instance (ws : Nat) (user : UserId) (gateway : CoinbaseWsOrderGateway) : Decidable (Serving ws user gateway) :=
  decidable_of_iff (gateway.clients.lookup user = some ws ∧ ws ∈ gateway.sockets)
    ⟨fun both => ⟨both.1, both.2⟩, fun serving => ⟨serving.filed, serving.isOpen⟩⟩

variable {gateway : CoinbaseWsOrderGateway} {ws pongTimeout : Nat} {user : UserId} {orderId : Name}

theorem handleOrderResponse_opened (response : OrderResponse) {socket : Nat} (isOpen : ws ∈ gateway.sockets) :
    ws ∈ (gateway.handleOrderResponse response socket).sockets := by
  unfold handleOrderResponse sendNumbered
  split
  · exact isOpen
  · split
    · split
      · exact isOpen
      · exact (AList.mem_insert _).mpr (.inr isOpen)
    · exact isOpen

theorem processResponse_opened (response : OrderResponse) (isOpen : ws ∈ gateway.sockets) :
    ws ∈ (gateway.processResponse response).sockets := by
  unfold processResponse
  dsimp only
  split
  · exact isOpen
  · split
    · exact isOpen
    · exact @handleOrderResponse_opened { gateway with orders := gateway.orders.apply response } _ response _ isOpen

/-- Where a response on an order of the user's goes. -/
theorem Serving.routes_eq (serving : Serving ws user gateway) (present : user ≠ []) {response : OrderResponse}
    (own : response.userId.bytes = user) :
    gateway.routes response = if Settled response then some (ws, response.update) else none := by
  have named : response.userId.isEmpty = false := by
    rw [← own] at present
    exact List.isEmpty_eq_false_iff.mpr present
  unfold routes Settled
  rw [own, serving.filed, named]
  by_cases pending : response.orderStatus = .pendingNew <;> simp [pending]

/-- A response on an order of the user's is told on the user's socket, unless the order is pending. -/
theorem processResponse_heard (serving : Serving ws user gateway) (present : user ≠ []) {response : OrderResponse}
    {unread : List OrderResponse} (isNext : gateway.unread = response :: unread)
    (own : response.orderId = orderId → response.userId.bytes = user) :
    let processed := { gateway with unread }.processResponse response
    processed.terminated = false →
      ∃ delivered, Serves [] [response] delivered gateway processed ∧ Serving ws user processed ∧
        heard delivered ws orderId = updatesUnder [response] orderId := by
  intro processed running
  obtain ⟨delivered, serves, clients, -, routed⟩ := processResponse_serves isNext
  refine ⟨delivered, serves, ⟨?_, ?_⟩, ?_⟩
  · exact (congrArg (AList.lookup user) clients).trans serving.filed
  · exact @processResponse_opened { gateway with unread } ws response serving.isOpen
  have delivers : delivered = (gateway.routes response).toList ∨ delivered = [] ∧
      ∃ target ∈ gateway.routes response, target.1 ∉ gateway.sockets := by
    refine routed.imp_right fun ⟨nothing, target, isTarget, reason⟩ => ⟨nothing, target, isTarget, ?_⟩
    rcases reason with ⟨-, closed⟩ | down
    · exact closed
    · exact absurd (running.symm.trans down) (by decide)
  unfold updatesUnder
  by_cases same : response.orderId = orderId
  · rw [show responsesUnder [response] orderId = [response] from List.filter_cons_of_pos (by simp [same])]
    have target := serving.routes_eq present (own same)
    rw [target] at delivers
    cases settled : Settled response with
    | false =>
        rw [settled] at delivers
        rw [List.filter_cons_of_neg (by rw [settled]; rintro ⟨⟩)]
        obtain rfl | ⟨rfl, -⟩ := delivers
        · rfl
        · rfl
    | true =>
        rw [settled] at delivers
        rw [List.filter_cons_of_pos settled]
        obtain rfl | ⟨-, _, isTarget, closed⟩ := delivers
        · have sameId : response.update.orderId = orderId := same
          simp [heard, sameId]
        · obtain rfl := Option.some.inj isTarget
          exact absurd serving.isOpen closed
  · rw [show responsesUnder [response] orderId = [] from List.filter_cons_of_neg (by simp [same])]
    obtain rfl | ⟨rfl, -⟩ := delivers
    · cases isRouted : gateway.routes response with
      | none => rfl
      | some target =>
          obtain ⟨socket, update⟩ := target
          obtain rfl : update = response.update := (routes_told isRouted).1
          have otherId : response.update.orderId ≠ orderId := same
          by_cases mine : socket = ws <;> simp [heard, mine, otherId]
    · rfl

theorem processResponses_heard (serving : Serving ws user gateway) (present : user ≠ []) (batch : Nat)
    (own : ∀ response ∈ gateway.unread, response.orderId = orderId → response.userId.bytes = user) :
    (gateway.processResponses batch).terminated = false →
      ∃ read delivered, Serves [] read delivered gateway (gateway.processResponses batch) ∧
        heard delivered ws orderId = updatesUnder read orderId := by
  induction batch generalizing gateway with
  | zero => exact fun _ => ⟨[], [], .refl gateway, rfl⟩
  | succ batch ih =>
      unfold processResponses
      split
      · exact fun _ => ⟨[], [], .refl gateway, rfl⟩
      · rename_i response unread isNext
        rw [isNext] at own
        obtain ⟨mine, later⟩ := List.forall_mem_cons.mp own
        dsimp only
        split <;> rename_i ended
        · intro running
          rw [running] at ended
          cases ended
        · intro running
          obtain ⟨first, serves, serving, isHeard⟩ :=
            processResponse_heard serving present isNext mine (Bool.eq_false_iff.mpr ended)
          have left : ({ gateway with unread }.processResponse response).unread = unread := by
            have split := serves.split
            rw [isNext, List.append_nil] at split
            exact (List.cons.inj split).2.symm
          obtain ⟨read, more, next, alsoHeard⟩ := ih serving (by rw [left]; exact later) running
          refine ⟨response :: read, first ++ more, serves.trans next, ?_⟩
          rw [heard_append, isHeard, alsoHeard, ← updatesUnder_append]
          rfl

/-! ## Runs -/

theorem step_terminated (event : GatewayEvent) (down : gateway.terminated = true) :
    (gateway.step pongTimeout event).terminated = true := by
  have ended : ∀ handler, (gateway.whileRunning handler).terminated = true := fun handler => by
    unfold whileRunning
    rw [if_pos down]
    exact down
  cases event with
  | respond response => exact down
  | connect | message | pong | close | processAllResponses | checkHeartbeats => exact ended _

theorem run_terminated {events : List GatewayEvent} (running : (gateway.run pongTimeout events).terminated = false) :
    gateway.terminated = false := by
  refine Bool.eq_false_iff.mpr fun down => ?_
  have ended : (gateway.run pongTimeout events).terminated = true := by
    clear running
    induction events generalizing gateway with
    | nil => exact down
    | cons event rest ih => exact ih (step_terminated event down)
  rw [running] at ended
  cases ended

theorem step_hears (serving : Serving ws user gateway) (present : user ≠ []) (event : GatewayEvent)
    (own : ∀ response ∈ gateway.unread, response.orderId = orderId → response.userId.bytes = user)
    (running : (gateway.step pongTimeout event).terminated = false) :
    ∃ read delivered, Serves (published [event]) read delivered gateway (gateway.step pongTimeout event) ∧
      heard delivered ws orderId = updatesUnder read orderId := by
  by_cases reads : event = .processAllResponses
  · subst reads
    have wasRunning : gateway.terminated = false := @run_terminated gateway pongTimeout [.processAllResponses] running
    have drains : gateway.step pongTimeout .processAllResponses = gateway.processResponses maxBatch :=
      whileRunning_eq wasRunning _
    rw [drains] at running ⊢
    exact processResponses_heard serving present maxBatch own running
  · exact ⟨[], [], step_serves pongTimeout reads, rfl⟩

/-- While a socket serves a user, what it hears of an order of the user's are the responses read. -/
theorem run_hears (present : user ≠ []) (events : List GatewayEvent)
    (serving : Along (step pongTimeout) (fun gateway _ => Serving ws user gateway) gateway events)
    (own : ∀ response ∈ gateway.unread ++ published events, response.orderId = orderId →
      response.userId.bytes = user)
    (running : (gateway.run pongTimeout events).terminated = false) :
    ∃ read delivered, Serves (published events) read delivered gateway (gateway.run pongTimeout events) ∧
      heard delivered ws orderId = updatesUnder read orderId := by
  induction events generalizing gateway with
  | nil => exact ⟨[], [], .refl gateway, rfl⟩
  | cons event rest ih =>
      obtain ⟨serves, serving⟩ := serving
      rw [published_cons] at own ⊢
      obtain ⟨read, delivered, first, isHeard⟩ := step_hears serves present event
        (fun response member => own response (List.mem_append_left _ member))
        (@run_terminated _ pongTimeout rest running)
      obtain ⟨read', more, next, alsoHeard⟩ := ih serving (fun response member => own response <| by
        rw [← List.append_assoc, first.split, List.append_assoc]
        exact List.mem_append_right _ member) running
      refine ⟨_, _, first.trans next, ?_⟩
      rw [heard_append, isHeard, alsoHeard, ← updatesUnder_append]

/-! ## The snapshot -/

/-- Every frame that is sent meanwhile is one of a kind. -/
def Sends (kind : UserChannelFrame → Prop) (before after : CoinbaseWsOrderGateway) : Prop :=
  ∃ frames, after.sent = before.sent ++ frames ∧ ∀ sent ∈ frames, kind sent.2

namespace Sends

variable {kind : UserChannelFrame → Prop} {before between after : CoinbaseWsOrderGateway}

theorem of_same (sent : after.sent = before.sent) : Sends kind before after :=
  ⟨[], sent.trans (List.append_nil _).symm, by rintro _ ⟨⟩⟩

theorem trans (first : Sends kind before between) (next : Sends kind between after) : Sends kind before after := by
  obtain ⟨frames, sent, all⟩ := first
  obtain ⟨more, alsoSent, others⟩ := next
  refine ⟨frames ++ more, by rw [alsoSent, sent, List.append_assoc], fun sent member => ?_⟩
  exact (List.mem_append.mp member).elim (all sent) (others sent)

theorem send {frame : UserChannelFrame} (isKind : kind frame) : Sends kind gateway (gateway.send ws frame) := by
  unfold CoinbaseWsOrderGateway.send
  split
  · exact .of_same rfl
  · exact ⟨[(ws, frame)], rfl, List.forall_mem_singleton.mpr isKind⟩

theorem sendNumbered {frame : Nat → UserChannelFrame} (isKind : ∀ seqNum, kind (frame seqNum)) :
    Sends kind gateway (gateway.sendNumbered ws frame) := by
  unfold CoinbaseWsOrderGateway.sendNumbered
  split
  · exact .of_same rfl
  · exact ⟨[(ws, _)], rfl, List.forall_mem_singleton.mpr (isKind _)⟩

theorem abort (isKind : kind .error) : Sends kind gateway (gateway.abort ws) := by
  have sends : Sends kind gateway (gateway.send ws .error) := .send isKind
  refine sends.trans (.of_same ?_)
  unfold CoinbaseWsOrderGateway.abort handleClose
  split <;> rfl

end Sends

/-- If the frame is of orders, they are these. -/
def Shows (snapshot : List OrderJson) (frame : UserChannelFrame) : Prop :=
  ∀ seqNum orders, frame = .orders seqNum orders → orders = snapshot

/-- The orders a subscriber is sent are the snapshot of its user. -/
theorem subscribe_sends (sub : List UInt8) :
    Sends (Shows (gateway.snapshot (userOfSubject sub))) gateway
      (gateway.handleMessage ws (.subscribe (some sub) (some .user))) := by
  have registered : (gateway.register ws sub).sent = gateway.sent := by
    unfold register
    split
    · rfl
    · dsimp only
      split <;> rfl
  have sameOrders : (gateway.register ws sub).snapshot (userOfSubject sub) = gateway.snapshot (userOfSubject sub) := by
    unfold snapshot
    rw [register_orders]
  refine (Sends.of_same registered).trans ?_
  unfold handleMessage answer
  dsimp only
  split
  · have told : Sends (Shows (gateway.snapshot (userOfSubject sub))) (gateway.register ws sub)
        ((gateway.register ws sub).sendNumbered ws fun seqNum =>
          .orders seqNum ((gateway.register ws sub).snapshot (userOfSubject sub))) := by
      refine .sendNumbered fun _ => ?_
      rintro _ _ ⟨⟩
      exact sameOrders
    refine told.trans ?_
    split
    · exact .sendNumbered (by rintro _ _ _ ⟨⟩)
    · exact .abort (by rintro _ _ ⟨⟩)
  · exact .abort (by rintro _ _ ⟨⟩)

theorem subscribe_serves (pongTimeout : Nat) (sub : List UInt8) :
    Quiet gateway (gateway.step pongTimeout (.message ws (.subscribe (some sub) (some .user)))) :=
  whileRunning_serves fun _ => handleMessage_serves _

/-! ## The picture -/

/-- A picture that starts from a snapshot and takes every settled response since tells what the
entry says, unless the last response is on a pending order. -/
theorem clientView_tells {before since : List OrderResponse} {updates : List UserUpdate}
    (named : orderId.isEmpty = false)
    (own : ∀ response ∈ responsesUnder before orderId, response.userId.bytes = user)
    (isHeard : (updates.filter fun update => decide (update.orderId = orderId)) = updatesUnder since orderId)
    (settled : ∀ last ∈ (responsesUnder (before ++ since) orderId).getLast?, last.orderStatus ≠ .pendingNew) :
    let view := clientView (((OrderStore.replay before).ordersOfUser user).map Order.toJson) updates orderId
    match (OrderStore.replay (before ++ since)).find orderId with
    | none => view = none
    | some entry => ∃ terms, view = some terms ∧ terms.Tells entry := by
  intro view
  unfold view clientView
  rw [isHeard]
  unfold updatesUnder
  cases isLast : (responsesUnder since orderId).getLast? with
  | none =>
      have nothing := List.getLast?_eq_none_iff.mp isLast
      have entries : ((((OrderStore.replay before).ordersOfUser user).map Order.toJson).find? fun order =>
          decide (order.orderId = orderId)) = ((OrderStore.replay before).find orderId).map Order.toJson := by
        rw [← snapshot_find named own, List.find?_map]
        rfl
      rw [OrderStore.replay_find_append nothing, nothing]
      dsimp only [List.filter_nil, List.map_nil, List.getLast?_nil]
      rw [entries]
      cases (OrderStore.replay before).find orderId with
      | none => rfl
      | some entry => exact ⟨_, rfl, entry.toJson_tells⟩
  | some last =>
      obtain ⟨earlier, split⟩ := List.getLast?_eq_some_iff.mp isLast
      have latest : last ∈ (responsesUnder (before ++ since) orderId).getLast? := by
        rw [responsesUnder_append, split, ← List.append_assoc]
        exact List.getLast?_concat ..
      have told : Settled last = true := decide_eq_true (settled last latest)
      obtain ⟨entry, found, restates⟩ := OrderStore.replay_restates named latest
      rw [found, split, List.filter_append, List.filter_cons_of_pos told, List.filter_nil, List.map_append,
        List.map_singleton, List.getLast?_concat]
      exact ⟨_, rfl, restates.update_tells⟩

theorem run_reads (pongTimeout : Nat) (events : List GatewayEvent) :
    ∃ read, published events = read ++ (new.run pongTimeout events).unread ∧
      (new.run pongTimeout events).orders = OrderStore.replay read := by
  obtain ⟨read, _, serves, -⟩ := @run_streams new pongTimeout events
  exact ⟨read, serves.split, serves.orders⟩

theorem published_append (past later : List GatewayEvent) :
    published (past ++ later) = published past ++ published later :=
  List.filterMap_append ..

/-- While a socket serves its user, a client's picture of an order of the user's tells what the
responses read make of it. -/
theorem clientView_run (pongTimeout : Nat) (past later : List GatewayEvent) (ws : Nat) (sub : List UInt8)
    (present : userOfSubject sub ≠ []) :
    let gateway := new.run pongTimeout past
    let subscribed := gateway.step pongTimeout (.message ws (.subscribe (some sub) (some .user)))
    let now := subscribed.run pongTimeout later
    let updates := ((now.updates.drop subscribed.updates.length).filter fun sent => decide (sent.1 = ws)).map Prod.snd
    ∀ (seqNum : Nat) (orders : List OrderJson) (read : List OrderResponse) (orderId : Name),
      (ws, .orders seqNum orders) ∈ subscribed.sent.drop gateway.sent.length →
      Along (step pongTimeout) (fun gateway _ => Serving ws (userOfSubject sub) gateway) subscribed later →
      now.terminated = false → published (past ++ later) = read ++ now.unread → orderId.isEmpty = false →
      (∀ response ∈ published (past ++ later), response.orderId = orderId →
        response.userId.bytes = userOfSubject sub) →
      (∀ last ∈ (responsesUnder read orderId).getLast?, last.orderStatus ≠ .pendingNew) →
        match (OrderStore.replay read).find orderId with
        | none => clientView orders updates orderId = none
        | some entry => ∃ terms, clientView orders updates orderId = some terms ∧ terms.Tells entry := by
  intro gateway subscribed now updates seqNum orders read orderId isSent serving running split named own settled
  obtain ⟨before, splitBefore, folded⟩ := run_reads pongTimeout past
  have answers : Quiet gateway subscribed := subscribe_serves pongTimeout sub
  have unread : subscribed.unread = gateway.unread := (List.append_nil _).symm.trans answers.split |>.symm
  have arrived : published (past ++ later) = before ++ (subscribed.unread ++ published later) := by
    rw [published_append, splitBefore, unread, List.append_assoc]
  rw [arrived] at own
  obtain ⟨since, delivered, hears, isHeard⟩ := run_hears present later serving
    (fun response member => own response (List.mem_append_right _ member)) running
  obtain rfl : read = before ++ since := by
    rw [arrived, hears.split, ← List.append_assoc] at split
    exact (List.append_cancel_right split).symm
  have isSnapshot : orders = ((OrderStore.replay before).ordersOfUser (userOfSubject sub)).map Order.toJson := by
    have kind : Sends (Shows (gateway.snapshot (userOfSubject sub))) gateway subscribed := by
      unfold subscribed step whileRunning
      dsimp only
      split
      · exact .of_same rfl
      · exact subscribe_sends sub
    obtain ⟨frames, sent, all⟩ := kind
    rw [sent, List.drop_left] at isSent
    refine (all _ isSent seqNum orders rfl).trans ?_
    unfold snapshot
    rw [show gateway.orders = OrderStore.replay before from folded]
  have newer : now.updates.drop subscribed.updates.length = delivered := by
    rw [show now.updates = _ from hears.updates, List.drop_left]
  rw [isSnapshot]
  refine clientView_tells named (fun response member => ?_) ?_ settled
  · obtain ⟨told, same⟩ := List.mem_filter.mp member
    exact own response (List.mem_append_left _ told) (of_decide_eq_true same)
  · unfold updates
    rw [newer]
    exact isHeard

/-- As long as a socket serves its user, the snapshot of its subscription with the updates sent on it
since tells of each order of the user's, settled and nobody else's, what the gateway's entry says. -/
theorem client_follows (pongTimeout : Nat) (past later : List GatewayEvent) (ws : Nat) (sub : List UInt8)
    (present : userOfSubject sub ≠ []) :
    let gateway := new.run pongTimeout past
    let subscribed := gateway.step pongTimeout (.message ws (.subscribe (some sub) (some .user)))
    let now := subscribed.run pongTimeout later
    let updates := ((now.updates.drop subscribed.updates.length).filter fun sent => decide (sent.1 = ws)).map Prod.snd
    ∀ (seqNum : Nat) (orders : List OrderJson), (ws, .orders seqNum orders) ∈ subscribed.sent.drop gateway.sent.length →
      Along (step pongTimeout) (fun gateway _ => Serving ws (userOfSubject sub) gateway) subscribed later →
      now.terminated = false →
      ∃ read, published (past ++ later) = read ++ now.unread ∧ now.orders = OrderStore.replay read ∧
        ∀ orderId : Name, orderId.isEmpty = false →
          (∀ response ∈ published (past ++ later), response.orderId = orderId →
            response.userId.bytes = userOfSubject sub) →
          (∀ last ∈ (responsesUnder read orderId).getLast?, last.orderStatus ≠ .pendingNew) →
            match now.orders.find orderId with
            | none => clientView orders updates orderId = none
            | some entry => ∃ terms, clientView orders updates orderId = some terms ∧ terms.Tells entry := by
  intro gateway subscribed now updates seqNum orders isSent serving running
  obtain ⟨before, splitBefore, folded⟩ := run_reads pongTimeout past
  have answers : Quiet gateway subscribed := subscribe_serves pongTimeout sub
  obtain ⟨since, _, serves, -⟩ := @run_streams subscribed pongTimeout later
  have split : published (past ++ later) = (before ++ since) ++ now.unread := by
    rw [published_append, splitBefore, List.append_assoc, List.append_assoc, ← serves.split,
      show (new.run pongTimeout past).unread = subscribed.unread from
        (List.append_nil _).symm.trans answers.split]
  have all : now.orders = OrderStore.replay (before ++ since) := by
    refine serves.orders.trans ?_
    rw [answers.orders, List.foldl_nil, show gateway.orders = OrderStore.replay before from folded]
    exact (List.foldl_append ..).symm
  refine ⟨before ++ since, split, all, fun orderId named own settled => ?_⟩
  rw [all]
  exact clientView_run pongTimeout past later ws sub present seqNum orders _ orderId isSent serving running split
    named own settled

/-- An order that rested before the subscription and is filled after it. -/
theorem client_follows_fill :
    let orderId := Environment.countedName 1
    let on : OrderStatus → Int → GatewayEvent := fun status leaves =>
      .respond { (default : OrderResponse) with
        userId := Name.copyWireField [65], orderId, orderStatus := status, leavesQty := leaves }
    let past : List GatewayEvent := [.connect 0 0, on .pendingNew 5, on .new 5, .processAllResponses]
    let later : List GatewayEvent := [on .partiallyFilled 2, .processAllResponses]
    let gateway := new.run 30 past
    let subscribed := gateway.step 30 (.message 0 (.subscribe (some [65]) (some .user)))
    let now := subscribed.run 30 later
    let updates := ((now.updates.drop subscribed.updates.length).filter fun sent => decide (sent.1 = 0)).map Prod.snd
    let snapshot := gateway.snapshot [65]
    snapshot.map OrderJson.workableSize = [5] ∧
      ∃ terms entry, clientView snapshot updates orderId = some terms ∧ now.orders.find orderId = some entry ∧
        terms.Tells entry ∧ entry.leavesQuantity = 2 := by
  intro orderId on past later gateway subscribed now updates snapshot
  have isSent : (0, .orders 0 snapshot) ∈ subscribed.sent.drop gateway.sent.length := by decide +kernel
  have five : snapshot.map OrderJson.workableSize = [5] := by decide +kernel
  have serving : Along (step 30) (fun gateway _ => Serving 0 [65] gateway) subscribed later := by decide +kernel
  have caughtUp : now.terminated = false ∧ now.unread = [] := by decide +kernel
  have named : orderId.isEmpty = false := by decide +kernel
  have own : ∀ response ∈ published (past ++ later), response.orderId = orderId →
      response.userId.bytes = userOfSubject [65] := by decide +kernel
  have settled : ∀ last ∈ (responsesUnder (published (past ++ later)) orderId).getLast?,
      last.orderStatus ≠ .pendingNew := by decide +kernel
  have isEntry : ∃ entry, now.orders.find orderId = some entry ∧ entry.leavesQuantity = 2 :=
    ⟨(now.orders.find orderId).getD default, by decide +kernel, by decide +kernel⟩
  obtain ⟨entry, found, leaves⟩ := isEntry
  clear_value past later orderId
  obtain ⟨read, split, -, follows⟩ := client_follows 30 past later 0 [65] (by decide) 0 snapshot isSent serving caughtUp.1
  rw [show CoinbaseWsOrderGateway.unread _ = [] from caughtUp.2, List.append_nil] at split
  have knows := follows orderId named own (split ▸ settled)
  rw [show OrderStore.find _ orderId = some entry from found] at knows
  obtain ⟨terms, isView, tells⟩ := knows
  exact ⟨five, terms, entry, isView, found, tells, leaves⟩

end CoinbaseWsOrderGateway

end SlickSim
