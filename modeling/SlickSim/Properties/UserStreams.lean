import SlickSim.Properties.UserRouting
import SlickSim.Venues.CoinbaseRestGateway

/-!
# What the user channel sends

Updates leave in the order the exchange reported, none twice. The frames of a socket are
numbered by ones, from zero each time the socket is filed under a user. A response that cannot
be written ends the process, with the rest of its batch unread.
-/

set_option autoImplicit false

namespace SlickSim

namespace UserChannelFrame

/-- The sequence number a frame carries. -/
def number : UserChannelFrame → Option Nat
  | .error | .ping => none
  | .orders seqNum _ | .subscriptions seqNum | .balances seqNum | .heartbeat seqNum _ | .update seqNum _ => some seqNum

def told : UserChannelFrame → Option UserUpdate
  | .update _ order => some order
  | .error | .ping | .orders .. | .subscriptions _ | .balances _ | .heartbeat .. => none

end UserChannelFrame

/-- Numbers that go up by one or start again at zero. -/
inductive Gapless : List Nat → Prop
  | nil : Gapless []
  | restart {numbers : List Nat} (earlier : Gapless numbers) : Gapless (numbers ++ [0])
  | next {numbers : List Nat} {last : Nat} (earlier : Gapless (numbers ++ [last])) :
      Gapless (numbers ++ [last] ++ [last + 1])

/-- The number that may follow. -/
def Continues (numbers : List Nat) (next : Nat) : Prop :=
  next = 0 ∨ ∃ earlier last, numbers = earlier ++ [last] ∧ next = last + 1

theorem Gapless.snoc {numbers : List Nat} {next : Nat} (gapless : Gapless numbers)
    (continues : Continues numbers next) : Gapless (numbers ++ [next]) := by
  obtain rfl | ⟨earlier, last, rfl, rfl⟩ := continues
  · exact .restart gapless
  · exact .next gapless

namespace CoinbaseWsOrderGateway

def numbersOn (gateway : CoinbaseWsOrderGateway) (ws : Nat) : List Nat :=
  gateway.sent.filterMap fun sent => if sent.1 = ws then sent.2.number else none

def updates (gateway : CoinbaseWsOrderGateway) : List (Nat × UserUpdate) :=
  gateway.sent.filterMap fun sent => sent.2.told.map fun update => (sent.1, update)

/-- Where a response has to go. -/
def routes (gateway : CoinbaseWsOrderGateway) (response : OrderResponse) : Option (Nat × UserUpdate) :=
  if response.userId.isEmpty = true ∨ response.orderStatus = .pendingNew then none
  else (gateway.clients.lookup response.userId.bytes).map fun ws => (ws, response.update)

structure Counted (gateway : CoinbaseWsOrderGateway) : Prop where
  gapless : ∀ ws, Gapless (gateway.numbersOn ws)
  next : ∀ ws data, gateway.sockets.lookup ws = some data → Continues (gateway.numbersOn ws) data.seqNum

/-- What an operation reads of the responses, folds and delivers. -/
structure Serves (arrived read : List OrderResponse) (delivered : List (Nat × UserUpdate))
    (before after : CoinbaseWsOrderGateway) : Prop where
  split : before.unread ++ arrived = read ++ after.unread
  orders : after.orders = read.foldl OrderStore.apply before.orders
  updates : after.updates = before.updates ++ delivered
  counted : before.Counted → after.Counted

/-- Nothing is read or told. -/
abbrev Quiet (before after : CoinbaseWsOrderGateway) : Prop :=
  Serves [] [] [] before after

variable {gateway before after later : CoinbaseWsOrderGateway} {ws : Nat}
  {arrived arrived' read read' : List OrderResponse} {delivered more : List (Nat × UserUpdate)}

namespace Serves

theorem refl (gateway : CoinbaseWsOrderGateway) : Quiet gateway gateway :=
  ⟨List.append_nil _, rfl, (List.append_nil _).symm, id⟩

theorem trans (first : Serves arrived read delivered before after) (next : Serves arrived' read' more after later) :
    Serves (arrived ++ arrived') (read ++ read') (delivered ++ more) before later where
  split := by rw [← List.append_assoc, first.split, List.append_assoc, next.split, List.append_assoc]
  orders := by rw [List.foldl_append, ← first.orders, next.orders]
  updates := by rw [next.updates, first.updates, List.append_assoc]
  counted := next.counted ∘ first.counted

theorem quiet (first : Quiet before after) (next : Quiet after later) : Quiet before later :=
  first.trans next

theorem of_sockets (unread : after.unread = before.unread) (orders : after.orders = before.orders)
    (sent : after.sent = before.sent)
    (sockets : ∀ ws data, after.sockets.lookup ws = some data →
      data.seqNum = 0 ∨ ∃ earlier, before.sockets.lookup ws = some earlier ∧ data.seqNum = earlier.seqNum) :
    Quiet before after where
  split := by rw [unread, List.append_nil, List.nil_append]
  orders := orders
  updates := by
    unfold CoinbaseWsOrderGateway.updates
    rw [sent, List.append_nil]
  counted := by
    intro counted
    have numbers : ∀ ws, after.numbersOn ws = before.numbersOn ws := by
      intro ws
      unfold numbersOn
      rw [sent]
    refine ⟨fun ws => numbers ws ▸ counted.gapless ws, fun ws data isOpen => ?_⟩
    rw [numbers]
    obtain fresh | ⟨earlier, wasOpen, same⟩ := sockets ws data isOpen
    · exact .inl fresh
    · rw [same]
      exact counted.next ws earlier wasOpen

theorem of_same (unread : after.unread = before.unread) (orders : after.orders = before.orders)
    (sent : after.sent = before.sent) (sockets : after.sockets = before.sockets) : Quiet before after :=
  .of_sockets unread orders sent fun _ data isOpen => .inr ⟨data, sockets ▸ isOpen, rfl⟩

theorem touchStale : Quiet gateway gateway.touchStale :=
  of_same rfl rfl rfl rfl

theorem insert {data next : PerSocketData} {clients : AList (fun _ : UserId => Nat)}
    (isOpen : gateway.sockets.lookup ws = some data) (number : next.seqNum = 0 ∨ next.seqNum = data.seqNum) :
    Quiet gateway { gateway with sockets := gateway.sockets.insert ws next, clients } := by
  refine of_sockets rfl rfl rfl fun other data' found => ?_
  by_cases same : other = ws
  · subst same
    rw [show (gateway.sockets.insert other next).lookup other = some next from AList.lookup_insert _] at found
    obtain rfl := Option.some.inj found
    exact number.imp_right fun same => ⟨data, isOpen, same⟩
  · exact .inr ⟨data', (AList.lookup_insert_ne same).symm.trans found, rfl⟩

theorem send {frame : UserChannelFrame} (silent : frame.number = none) (untold : frame.told = none) :
    Quiet gateway (gateway.send ws frame) := by
  unfold CoinbaseWsOrderGateway.send
  split
  · exact touchStale
  · have numbers : ∀ other, numbersOn { gateway with sent := gateway.sent ++ [(ws, frame)] } other =
        gateway.numbersOn other := by
      intro other
      unfold numbersOn
      rw [List.filterMap_append]
      simp [silent]
    refine ⟨List.append_nil _, rfl, ?_, fun counted =>
      ⟨fun other => numbers other ▸ counted.gapless other, fun other data isOpen => ?_⟩⟩
    · unfold CoinbaseWsOrderGateway.updates
      rw [List.filterMap_append]
      simp [untold]
    · rw [numbers]
      exact counted.next other data isOpen

end Serves

/-- A frame with a number takes the next one of its socket. -/
theorem sendNumbered_serves {data : PerSocketData} (isOpen : gateway.sockets.lookup ws = some data)
    {frame : Nat → UserChannelFrame} (numbered : ∀ seqNum, (frame seqNum).number = some seqNum) :
    Serves [] [] ((frame data.seqNum).told.map fun update => (ws, update)).toList gateway
      (gateway.sendNumbered ws frame) := by
  unfold sendNumbered
  rw [isOpen]
  dsimp only
  have numbers : ∀ other, numbersOn { gateway with
      sockets := gateway.sockets.insert ws { data with seqNum := data.seqNum + 1 }
      sent := gateway.sent ++ [(ws, frame data.seqNum)] } other =
        if ws = other then gateway.numbersOn other ++ [data.seqNum] else gateway.numbersOn other := by
    intro other
    unfold numbersOn
    rw [List.filterMap_append]
    split <;> rename_i same
    · simp [same, numbered]
    · simp [same]
  refine ⟨List.append_nil _, rfl, ?_, fun counted => ⟨fun other => ?_, fun other data' found => ?_⟩⟩
  · unfold CoinbaseWsOrderGateway.updates
    rw [List.filterMap_append]
    cases isTold : (frame data.seqNum).told <;> simp [isTold]
  · rw [numbers]
    split <;> rename_i same
    · subst same
      exact (counted.gapless ws).snoc (counted.next ws data isOpen)
    · exact counted.gapless other
  · rw [numbers]
    split <;> rename_i same
    · subst same
      rw [show (gateway.sockets.insert ws _).lookup ws = some _ from AList.lookup_insert _] at found
      obtain rfl := Option.some.inj found
      exact .inr ⟨_, _, rfl, rfl⟩
    · exact counted.next other data' ((AList.lookup_insert_ne (Ne.symm same)).symm.trans found)

theorem sendNumbered_untold {frame : Nat → UserChannelFrame}
    (numbered : ∀ seqNum, (frame seqNum).number = some seqNum)
    (untold : ∀ seqNum, (frame seqNum).told = none) : Quiet gateway (gateway.sendNumbered ws frame) := by
  cases isOpen : gateway.sockets.lookup ws with
  | none =>
      unfold sendNumbered
      rw [isOpen]
      exact .touchStale
  | some data =>
      have serves := sendNumbered_serves isOpen numbered
      rw [untold] at serves
      exact serves

/-! ## Everything but responses -/

theorem handleClose_serves : Quiet gateway (gateway.handleClose ws) := by
  unfold handleClose
  split
  · exact .touchStale
  · refine .of_sockets rfl rfl rfl fun other data found => .inr ⟨data, ?_, rfl⟩
    have different : other ≠ ws := by
      rintro rfl
      rw [show (gateway.sockets.erase other).lookup other = none from AList.lookup_erase ..] at found
      cases found
    exact (AList.lookup_erase_ne different).symm.trans found

theorem register_serves (sub : List UInt8) : Quiet gateway (gateway.register ws sub) := by
  unfold register
  split
  · exact .touchStale
  · rename_i data isOpen
    dsimp only
    split
    · exact .insert isOpen (.inr rfl)
    · exact .insert isOpen (.inl rfl)

theorem subscribeHeartbeat_serves : Quiet gateway (gateway.subscribeHeartbeat ws) := by
  unfold subscribeHeartbeat
  split
  · exact .touchStale
  · rename_i data isOpen
    exact .insert isOpen (.inr rfl)

theorem connect_serves {now : Nat} : Quiet gateway (gateway.connect ws now) := by
  refine .of_sockets rfl rfl rfl fun other data found => ?_
  by_cases same : other = ws
  · subst same
    rw [show (gateway.connect other now).sockets.lookup other = some _ from AList.lookup_insert _] at found
    exact .inl (congrArg PerSocketData.seqNum (Option.some.inj found)).symm
  · exact .inr ⟨data, (AList.lookup_insert_ne same).symm.trans found, rfl⟩

theorem handlePong_serves {now : Nat} : Quiet gateway (gateway.handlePong ws now) := by
  unfold handlePong
  split
  · exact .touchStale
  · rename_i data isOpen
    exact .insert isOpen (.inr rfl)

theorem abort_serves : Quiet gateway (gateway.abort ws) :=
  (Serves.send rfl rfl).quiet handleClose_serves

theorem answer_serves (user : UserId) (channel : UserChannel) : Quiet gateway (gateway.answer ws user channel) := by
  cases channel with
  | user =>
      unfold answer
      dsimp only
      split
      · have first : Quiet gateway (gateway.sendNumbered ws fun seqNum => .orders seqNum (gateway.snapshot user)) :=
          sendNumbered_untold (fun _ => rfl) fun _ => rfl
        split
        · exact first.quiet (sendNumbered_untold (fun _ => rfl) fun _ => rfl)
        · exact first.quiet abort_serves
      · exact abort_serves
  | heartbeats => exact subscribeHeartbeat_serves.quiet (sendNumbered_untold (fun _ => rfl) fun _ => rfl)
  | futuresBalanceSummary => exact sendNumbered_untold (fun _ => rfl) fun _ => rfl
  | unsupported => exact .send rfl rfl

theorem handleMessage_serves (message : UserChannelMessage) : Quiet gateway (gateway.handleMessage ws message) := by
  cases message with
  | unsupported => exact .send rfl rfl
  | withoutToken => exact .send rfl rfl
  | malformed => exact .of_same rfl rfl rfl rfl
  | subscribe subject channel =>
      cases subject with
      | none => exact abort_serves
      | some sub =>
          cases channel with
          | none => exact (register_serves sub).quiet abort_serves
          | some channel => exact (register_serves sub).quiet (answer_serves _ channel)

theorem checkClient_serves (pongTimeout now : Nat) (user : UserId) :
    Quiet gateway (gateway.checkClient pongTimeout now user) := by
  unfold checkClient
  cases gateway.clients.lookup user with
  | none => exact .refl gateway
  | some ws =>
      dsimp only
      cases gateway.sockets.lookup ws with
      | none => exact .touchStale
      | some data =>
          dsimp only
          split
          · have erased : Quiet gateway { gateway with clients := gateway.clients.erase user } := .of_same rfl rfl rfl rfl
            exact erased.quiet handleClose_serves
          · refine Serves.quiet ?_ (.send rfl rfl)
            split
            · have beat : Quiet gateway
                  (gateway.sendNumbered ws fun seqNum => .heartbeat seqNum gateway.heartbeatCount) :=
                sendNumbered_untold (fun _ => rfl) fun _ => rfl
              exact beat.quiet (@Serves.of_same _ (gateway.sendHeartbeat ws) rfl rfl rfl rfl)
            · exact .refl gateway

theorem checkHeartbeats_serves (pongTimeout now : Nat) (visits : List UserId) :
    Quiet gateway (gateway.checkHeartbeats pongTimeout now visits) := by
  induction visits generalizing gateway with
  | nil => exact .refl gateway
  | cons user visits ih =>
      refine Serves.quiet ((checkClient_serves pongTimeout now user).quiet ?_) ih
      split
      · exact .touchStale
      · exact .refl _

/-! ## Responses -/

/-- An update is sent at most once, to the socket the response is routed to, unless that is
closed or the response cannot be written. -/
theorem processResponse_serves {response : OrderResponse} {unread : List OrderResponse}
    (isNext : gateway.unread = response :: unread) :
    let processed := { gateway with unread }.processResponse response
    ∃ delivered, Serves [] [response] delivered gateway processed ∧
      processed.clients = gateway.clients ∧ processed.unread = unread ∧
      (delivered = (gateway.routes response).toList ∨
        delivered = [] ∧ ∃ target ∈ gateway.routes response,
          processed.touchedStale = true ∧ target.1 ∉ gateway.sockets ∨ processed.terminated = true) := by
  have folds : Serves [] [response] [] gateway
      { gateway with unread, orders := gateway.orders.apply response } :=
    ⟨by rw [isNext]; exact List.append_nil _, rfl, (List.append_nil _).symm, fun counted => ⟨counted.gapless, counted.next⟩⟩
  intro processed
  unfold processed processResponse routes
  dsimp only
  by_cases anonymous : response.userId.isEmpty = true
  · rw [if_pos anonymous, if_pos (.inl anonymous)]
    exact ⟨[], folds, rfl, rfl, .inl rfl⟩
  rw [if_neg anonymous]
  cases isFiled : gateway.clients.lookup response.userId.bytes with
  | none =>
      refine ⟨[], folds, rfl, rfl, .inl ?_⟩
      split <;> rfl
  | some ws =>
      unfold handleOrderResponse
      by_cases pending : response.orderStatus = .pendingNew
      · dsimp only
        rw [if_pos pending, if_pos (.inr pending)]
        exact ⟨[], folds, rfl, rfl, .inl rfl⟩
      · dsimp only
        rw [if_neg pending, if_neg (not_or.mpr ⟨anonymous, pending⟩)]
        split
        · cases isOpen : gateway.sockets.lookup ws with
          | none =>
              unfold sendNumbered
              rw [isOpen]
              refine ⟨[], folds.trans .touchStale, rfl, rfl, .inr ⟨rfl, (ws, response.update), ?_⟩⟩
              refine ⟨rfl, .inl ⟨rfl, ?_⟩⟩
              rw [← AList.lookup_isSome, isOpen]
              rintro ⟨⟩
          | some data =>
              have sends := @sendNumbered_serves
                { gateway with unread, orders := gateway.orders.apply response } ws data isOpen
                (fun seqNum => .update seqNum response.update) fun _ => rfl
              refine ⟨[(ws, response.update)], folds.trans sends, ?_, ?_, .inl rfl⟩
              · unfold sendNumbered
                rw [isOpen]
              · unfold sendNumbered
                rw [isOpen]
        · refine ⟨[], folds.trans (.of_same rfl rfl rfl rfl), rfl, rfl, .inr ⟨rfl, (ws, response.update), ?_⟩⟩
          exact ⟨rfl, .inr rfl⟩

/-- What is told of a response at all. -/
def Told (response : OrderResponse) : Bool :=
  decide (response.userId.isEmpty = false ∧ response.orderStatus ≠ .pendingNew)

theorem routes_told {response : OrderResponse} {target : Nat × UserUpdate}
    (routed : gateway.routes response = some target) : target.2 = response.update ∧ Told response = true := by
  unfold routes at routed
  split at routed
  · cases routed
  · rename_i tellable
    obtain ⟨ws, -, rfl⟩ := Option.map_eq_some_iff.mp routed
    rw [not_or, Bool.not_eq_true] at tellable
    exact ⟨rfl, decide_eq_true tellable⟩

theorem handleOrderResponse_untouched (response : OrderResponse)
    (live : (gateway.handleOrderResponse response ws).touchedStale = false) : gateway.touchedStale = false := by
  unfold handleOrderResponse sendNumbered at live
  split at live
  · exact live
  · split at live
    · split at live
      · cases live
      · exact live
    · exact live

theorem processResponse_untouched (response : OrderResponse)
    (live : (gateway.processResponse response).touchedStale = false) : gateway.touchedStale = false := by
  unfold processResponse at live
  dsimp only at live
  split at live
  · exact live
  · split at live
    · exact live
    · exact @handleOrderResponse_untouched { gateway with orders := gateway.orders.apply response } _ response live

theorem processResponses_serves (batch : Nat) :
    ∃ read delivered, Serves [] read delivered gateway (gateway.processResponses batch) ∧
      (delivered.map Prod.snd).Sublist ((read.filter Told).map OrderResponse.update) ∧
      ((gateway.processResponses batch).touchedStale = false → (gateway.processResponses batch).terminated = false →
        gateway.touchedStale = false ∧ read = gateway.unread.take batch ∧
          delivered = read.filterMap gateway.routes) := by
  induction batch generalizing gateway with
  | zero => exact ⟨[], [], .refl gateway, .slnil, fun live _ => ⟨live, rfl, rfl⟩⟩
  | succ batch ih =>
      unfold processResponses
      split
      · rename_i isEmpty
        refine ⟨[], [], .refl gateway, .slnil, fun live _ => ⟨live, ?_, rfl⟩⟩
        rw [isEmpty]
        rfl
      · rename_i response unread isNext
        obtain ⟨first, serves, clients, left, routed⟩ := processResponse_serves isNext
        have newer : (first.map Prod.snd).Sublist (([response].filter Told).map OrderResponse.update) := by
          obtain rfl | ⟨rfl, -⟩ := routed
          · cases isRouted : gateway.routes response with
            | none => exact List.nil_sublist _
            | some target =>
                obtain ⟨same, isTold⟩ := routes_told isRouted
                rw [List.filter_cons_of_pos isTold]
                show [target.2].Sublist [response.update]
                rw [same]
          · exact List.nil_sublist _
        dsimp only
        split <;> rename_i ended
        · refine ⟨[response], first, serves, newer, fun _ running => ?_⟩
          rw [running] at ended
          cases ended
        · obtain ⟨read, more, next, told, exactly⟩ := @ih ({ gateway with unread }.processResponse response)
          refine ⟨response :: read, first ++ more, serves.trans next, ?_, fun live running => ?_⟩
          · rw [List.map_append, ← List.singleton_append, List.filter_append, List.map_append]
            exact newer.append told
          · obtain ⟨alive, rfl, rfl⟩ := exactly live running
            refine ⟨@processResponse_untouched { gateway with unread } response alive, ?_, ?_⟩
            · rw [left, isNext]
              rfl
            · have sameRoutes : ({ gateway with unread }.processResponse response).routes = gateway.routes := by
                funext other
                unfold routes
                rw [clients]
              rw [sameRoutes, List.filterMap_cons]
              obtain rfl | ⟨-, -, -, ⟨stale, -⟩ | down⟩ := routed
              · cases gateway.routes response <;> rfl
              · rw [alive] at stale
                cases stale
              · exact absurd down ended

/-! ## Runs -/

def published (events : List GatewayEvent) : List OrderResponse :=
  events.filterMap fun event =>
    match event with
    | .respond response => some response
    | .connect .. | .message .. | .pong .. | .close _ | .processAllResponses | .checkHeartbeats .. => none

theorem published_cons (event : GatewayEvent) (events : List GatewayEvent) :
    published (event :: events) = published [event] ++ published events := by
  unfold published
  rw [← List.filterMap_append, List.singleton_append]

theorem whileRunning_serves {handler : CoinbaseWsOrderGateway → CoinbaseWsOrderGateway}
    (quiet : ∀ gateway, Quiet gateway (handler gateway)) : Quiet gateway (gateway.whileRunning handler) := by
  unfold whileRunning
  split
  · exact .refl gateway
  · exact quiet gateway

theorem step_serves (pongTimeout : Nat) {event : GatewayEvent} (other : event ≠ .processAllResponses) :
    Serves (published [event]) [] [] gateway (gateway.step pongTimeout event) := by
  cases event with
  | connect ws now => exact whileRunning_serves fun _ => connect_serves
  | message ws message => exact whileRunning_serves fun gateway => handleMessage_serves message
  | pong ws now => exact whileRunning_serves fun _ => handlePong_serves
  | close ws => exact whileRunning_serves fun gateway => handleClose_serves
  | respond response => exact ⟨rfl, rfl, (List.append_nil _).symm, fun counted => ⟨counted.gapless, counted.next⟩⟩
  | checkHeartbeats now visits => exact whileRunning_serves fun gateway => checkHeartbeats_serves pongTimeout now visits
  | processAllResponses => exact absurd rfl other

theorem step_streams (pongTimeout : Nat) (event : GatewayEvent) :
    ∃ read delivered, Serves (published [event]) read delivered gateway (gateway.step pongTimeout event) ∧
      (delivered.map Prod.snd).Sublist ((read.filter Told).map OrderResponse.update) := by
  by_cases reads : event = .processAllResponses
  · subst reads
    unfold step whileRunning
    dsimp only
    split
    · exact ⟨[], [], .refl gateway, .slnil⟩
    · obtain ⟨read, delivered, serves, told, -⟩ := @processResponses_serves gateway maxBatch
      exact ⟨read, delivered, serves, told⟩
  · exact ⟨[], [], step_serves pongTimeout reads, .slnil⟩

theorem run_streams (pongTimeout : Nat) (events : List GatewayEvent) :
    ∃ read delivered, Serves (published events) read delivered gateway (gateway.run pongTimeout events) ∧
      (delivered.map Prod.snd).Sublist ((read.filter Told).map OrderResponse.update) := by
  induction events generalizing gateway with
  | nil => exact ⟨[], [], .refl gateway, .slnil⟩
  | cons event rest ih =>
      obtain ⟨read, delivered, serves, told⟩ := @step_streams gateway pongTimeout event
      obtain ⟨read', more, next, alsoTold⟩ := @ih (gateway.step pongTimeout event)
      rw [published_cons]
      refine ⟨_, _, serves.trans next, ?_⟩
      rw [List.map_append, List.filter_append, List.map_append]
      exact told.append alsoTold

end CoinbaseWsOrderGateway

end SlickSim
