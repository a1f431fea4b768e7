import SlickSim.Properties.SubscriptionBookkeeping

/-!
# What a socket of a publisher is sent

The sockets of a publisher share its containers and take their turns in one event loop. A
reference follows one socket alone: what is kept with it, and how often each container leads to
it. It never looks at another socket. Messages stand for the frames they
are made from: what the l2 channel of Hyperliquid writes of one also depends on a baseline that
all its sockets share.
-/

set_option autoImplicit false

namespace SlickSim.MdPublisher

variable {γ σ : Type} [DecidableEq γ] [DecidableEq σ]

/-- Whether an event comes from a socket or is for all of them. -/
def PublisherEvent.concerns (ws : σ) : PublisherEvent γ σ → Bool
  | .connect socket | .subscribe socket _ _ | .other socket | .unsupported socket | .close socket => decide (socket = ws)
  | .publish .. | .reject .. | .respond .. => true

/-! ## The reference -/

/-- What a publisher keeps about one socket. -/
@[ext] structure SocketView (γ : Type) where
  subscriber : Option (Subscriber γ)
  /-- How often `subscription_info_` holds the socket. -/
  informed : γ → Product → Nat
  /-- How often `symbol_channel_client_` does. -/
  indexed : γ → Product → Nat

namespace SocketView

def start : SocketView γ := ⟨none, fun _ _ => 0, fun _ _ => 0⟩

def setCount (counts : γ → Product → Nat) (channel : γ) (product : Product) (count : Nat) :
    γ → Product → Nat :=
  Function.update counts channel (Function.update (counts channel) product count)

theorem setCount_apply (counts : γ → Product → Nat) (channel channel' : γ) (product product' : Product)
    (count : Nat) : setCount counts channel product count channel' product' =
      if (channel', product') = (channel, product) then count else counts channel' product' := by
  unfold setCount
  by_cases sameChannel : channel' = channel
  · subst sameChannel
    by_cases sameProduct : product' = product
    · subst sameProduct
      simp
    · simp [sameProduct]
  · simp [sameChannel]

def onSubscriber (view : SocketView γ) (change : Subscriber γ → Subscriber γ) : SocketView γ :=
  { view with subscriber := view.subscriber.map change }

def subscribe (kind : PublisherKind γ) (view : SocketView γ) (channel : γ) (product : Product) : SocketView γ :=
  if kind.accepts channel then
    { subscriber := view.subscriber.map (·.subscribe channel product)
      informed := setCount view.informed channel product (max (view.informed channel product) 1)
      indexed := setCount view.indexed channel product (view.indexed channel product + 1) }
  else view.onSubscriber (·.send .error)

def withdraw (channel : γ) (view : SocketView γ) (product : Product) : SocketView γ :=
  { view with
    informed := setCount view.informed channel product (view.informed channel product - 1)
    indexed := setCount view.indexed channel product (view.indexed channel product - 1) }

def leaveChannel (subscriber : Subscriber γ) (view : SocketView γ) (channel : γ) : SocketView γ :=
  ((subscriber.active channel).foldl (withdraw channel) view).onSubscriber (·.clear channel)

/-- A socket that has subscribed twice stays in the multimap of the product. -/
def close (kind : PublisherKind γ) (view : SocketView γ) : SocketView γ :=
  match view.subscriber with
  | none => view
  | some subscriber => { kind.channels.foldl (leaveChannel subscriber) view with subscriber := none }

/-- How often a frame on a channel of a symbol reaches the socket. -/
def reached (kind : PublisherKind γ) (view : SocketView γ) (channel : γ) (symbol : SymbolName) : Nat :=
  if kind.indexed then view.indexed channel symbol.bytes else view.informed channel symbol.bytes

def publish (kind : PublisherKind γ) (view : SocketView γ) (symbol : SymbolName) (frame : MDFrame) : SocketView γ :=
  (kind.fanOut frame).foldl (fun view channel =>
    view.onSubscriber (·.sendNumbered kind (.frame channel symbol frame))^[view.reached kind channel symbol]) view

def step (kind : PublisherKind γ) (ws : σ) (view : SocketView γ) : PublisherEvent γ σ → SocketView γ
  | .connect socket => if socket = ws then { view with subscriber := some .fresh } else view
  | .subscribe socket channel product => if socket = ws then view.subscribe kind channel product else view
  | .other socket => if socket = ws then view.onSubscriber (·.sendNumbered kind .reply) else view
  | .unsupported socket => if socket = ws then view.onSubscriber (·.send .error) else view
  | .close socket => if socket = ws then view.close kind else view
  | .publish symbol frame => view.publish kind symbol frame
  | .reject symbol channel => view.onSubscriber (·.send .error)^[view.informed channel symbol.bytes]
  | .respond symbol channel newer =>
      if kind.accepts channel then
        view.onSubscriber (Subscriber.respond kind channel symbol newer)^[view.informed channel symbol.bytes]
      else view

/-- The reference skips what other sockets do. -/
theorem step_of_not_concerns {kind : PublisherKind γ} {ws : σ} {event : PublisherEvent γ σ} (view : SocketView γ)
    (foreign : event.concerns ws = false) : view.step kind ws event = view := by
  cases event with
  | connect socket => exact if_neg (of_decide_eq_false foreign)
  | subscribe socket channel product => exact if_neg (of_decide_eq_false foreign)
  | other socket => exact if_neg (of_decide_eq_false foreign)
  | unsupported socket => exact if_neg (of_decide_eq_false foreign)
  | close socket => exact if_neg (of_decide_eq_false foreign)
  | publish | reject | respond => cases foreign

end SocketView

/-! ## The publisher follows it -/

namespace SubscriptionBook

variable {kind : PublisherKind γ} {ws : σ} {book : SubscriptionBook γ σ}

def view (book : SubscriptionBook γ σ) (ws : σ) : SocketView γ where
  subscriber := book.sockets ws
  informed := fun channel product => (book.subscriptionInfo channel product).count ws
  indexed := fun channel product => (book.symbolChannelClient product).count (channel, ws)

theorem view_of_containers {after : SubscriptionBook γ σ} (same : after.containers = book.containers) :
    after.view ws = { book.view ws with subscriber := after.sockets ws } := by
  have info : after.subscriptionInfo = book.subscriptionInfo := congrArg (fun parts => parts.2.1) same
  have index : after.symbolChannelClient = book.symbolChannelClient := congrArg (fun parts => parts.2.2.1) same
  unfold view
  rw [info, index]

theorem view_onEach (targets : List σ) (change : Subscriber γ → Subscriber γ) :
    (book.onEach targets change).view ws = (book.view ws).onSubscriber change^[targets.count ws] := by
  rw [view_of_containers (onEach_containers ..), onEach_sockets]
  rfl

theorem view_onSocket (socket : σ) (change : Subscriber γ → Subscriber γ) :
    (book.onSocket socket change).view ws =
      if socket = ws then (book.view ws).onSubscriber change else book.view ws := by
  rw [view_of_containers (onSocket_containers ..), onSocket_sockets]
  by_cases same : ws = socket
  · rw [if_pos same, if_pos same.symm]
    rfl
  · rw [if_neg same, if_neg (Ne.symm same)]
    rfl

theorem view_subscribeProduct (socket : σ) (channel : γ) (product : Product) :
    (book.subscribeProduct socket channel product).view ws =
      if socket = ws then
        { subscriber := (book.sockets ws).map (·.subscribe channel product)
          informed := SocketView.setCount (book.view ws).informed channel product
            (max ((book.view ws).informed channel product) 1)
          indexed := SocketView.setCount (book.view ws).indexed channel product
            ((book.view ws).indexed channel product + 1) }
      else book.view ws := by
  have sockets := @subscribeProduct_sockets _ _ _ _ book socket channel product ws
  have informed : ∀ channel' product',
      ((book.subscribeProduct socket channel product).view ws).informed channel' product' =
      if (channel', product') = (channel, product) ∧ socket = ws then
        max ((book.view ws).informed channel product) 1
      else (book.view ws).informed channel' product' := by
    intro channel' product'
    have lists := congrArg (fun parts => (parts.2.1 channel' product').count ws)
      (@subscribeProduct_containers _ _ _ _ book socket channel product)
    refine lists.trans ?_
    by_cases sameChannel : channel' = channel
    · subst sameChannel
      by_cases sameProduct : product' = product
      · subst sameProduct
        by_cases same : socket = ws <;> simp [view, List.count_insert, same]
      · simp [view, sameProduct]
    · simp [view, sameChannel]
  have indexed := @subscribeProduct_index _ _ _ _ book socket channel product ws
  by_cases same : socket = ws
  · subst same
    rw [if_pos rfl] at sockets ⊢
    ext1
    · exact sockets
    · funext channel' product'
      refine (informed channel' product').trans (Eq.trans ?_ (SocketView.setCount_apply ..).symm)
      simp
    · funext channel' product'
      refine (indexed channel' product').trans (Eq.trans ?_ (SocketView.setCount_apply ..).symm)
      by_cases here : (channel', product') = (channel, product)
      · cases here
        simp [view]
      · simp [view, here]
  · rw [if_neg (Ne.symm same)] at sockets
    rw [if_neg same]
    ext1
    · exact sockets
    · funext channel' product'
      rw [informed, if_neg fun both => same both.2]
    · funext channel' product'
      refine (indexed channel' product').trans ?_
      rw [if_neg fun entry => same (congrArg Prod.fst entry).symm]
      rfl

theorem view_subscribe (socket : σ) (channel : γ) (product : Product) :
    (book.subscribe kind socket channel product).view ws =
      if socket = ws then (book.view ws).subscribe kind channel product else book.view ws := by
  unfold subscribe SocketView.subscribe
  split
  · exact view_subscribeProduct ..
  · exact view_onSocket ..

/-! ## Closing -/

theorem view_unsubscribeProduct (socket : σ) (channel : γ) (product : Product) :
    (unsubscribeProduct socket channel book product).view ws =
      if socket = ws then (book.view ws).withdraw channel product else book.view ws := by
  have withdrawn := Withdraws.one socket channel book product
  by_cases same : socket = ws
  · subst same
    rw [if_pos rfl]
    ext1
    · rfl
    · funext channel' product'
      refine (withdrawn.info channel' product' socket).trans ?_
      refine Eq.trans ?_ (SocketView.setCount_apply ..).symm
      by_cases here : (channel', product') = (channel, product)
      · cases here
        simp [view]
      · simp [view, here]
    · funext channel' product'
      refine (withdrawn.index channel' product' socket).trans ?_
      refine Eq.trans ?_ (SocketView.setCount_apply ..).symm
      by_cases here : (channel', product') = (channel, product)
      · cases here
        simp [view]
      · simp [view, here]
  · rw [if_neg same]
    ext1
    · rfl
    · funext channel' product'
      refine (withdrawn.info channel' product' ws).trans ?_
      rw [if_neg fun both => same both.1.symm]
      rfl
    · funext channel' product'
      refine (withdrawn.index channel' product' ws).trans ?_
      rw [if_neg fun both => same both.1.symm]
      rfl

theorem view_unsubscribeChannel (socket : σ) (subscriber : Subscriber γ) (channel : γ) :
    (unsubscribeChannel socket subscriber book channel).view ws =
      if socket = ws then (book.view ws).leaveChannel subscriber channel else book.view ws := by
  have products : ∀ (products : List Product) (book : SubscriptionBook γ σ),
      (products.foldl (unsubscribeProduct socket channel) book).view ws =
        if socket = ws then products.foldl (SocketView.withdraw channel) (book.view ws) else book.view ws := by
    intro products
    induction products with
    | nil =>
        intro book
        exact (ite_self _).symm
    | cons product products ih =>
        intro book
        rw [List.foldl_cons, ih, view_unsubscribeProduct]
        by_cases same : socket = ws
        · rw [if_pos same, if_pos same, if_pos same]
          rfl
        · rw [if_neg same, if_neg same, if_neg same]
  unfold unsubscribeChannel SocketView.leaveChannel
  rw [view_onSocket, products]
  by_cases same : socket = ws
  · rw [if_pos same, if_pos same, if_pos same]
  · rw [if_neg same, if_neg same, if_neg same]

theorem view_handleClose (socket : σ) :
    (book.handleClose kind socket).view ws = if socket = ws then (book.view ws).close kind else book.view ws := by
  have channels : ∀ (subscriber : Subscriber γ) (channels : List γ) (book : SubscriptionBook γ σ),
      (channels.foldl (unsubscribeChannel socket subscriber) book).view ws =
        if socket = ws then channels.foldl (SocketView.leaveChannel subscriber) (book.view ws) else book.view ws := by
    intro subscriber channels
    induction channels with
    | nil =>
        intro book
        exact (ite_self _).symm
    | cons channel channels ih =>
        intro book
        rw [List.foldl_cons, ih, view_unsubscribeChannel]
        by_cases same : socket = ws
        · rw [if_pos same, if_pos same, if_pos same]
          rfl
        · rw [if_neg same, if_neg same, if_neg same]
  have gone : (book.handleClose kind socket).view ws =
      { (book.unsubscribeMd kind socket).view ws with
        subscriber := Function.update (book.unsubscribeMd kind socket).sockets socket none ws } := rfl
  rw [gone]
  unfold unsubscribeMd
  cases found : book.sockets socket with
  | none =>
      dsimp only
      by_cases same : socket = ws
      · subst same
        rw [if_pos rfl, Function.update_self]
        have closed : (book.view socket).close kind = book.view socket := by
          unfold SocketView.close
          rw [show (book.view socket).subscriber = none from found]
        rw [closed]
        ext1
        · exact found.symm
        · rfl
        · rfl
      · rw [if_neg same, Function.update_of_ne (Ne.symm same)]
        rfl
  | some subscriber =>
      dsimp only
      rw [channels]
      by_cases same : socket = ws
      · subst same
        rw [if_pos rfl, if_pos rfl, Function.update_self]
        unfold SocketView.close
        rw [show (book.view socket).subscriber = some subscriber from found]
      · rw [if_neg same, if_neg same, Function.update_of_ne (Ne.symm same)]
        have kept := channels subscriber kind.channels book
        rw [if_neg same] at kept
        exact congrArg (fun view : SocketView γ => { book.view ws with subscriber := view.subscriber }) kept

/-! ## Publishing -/

theorem view_publish (symbol : SymbolName) (frame : MDFrame) :
    (book.publish kind symbol frame).view ws = (book.view ws).publish kind symbol frame := by
  unfold publish SocketView.publish
  induction kind.fanOut frame generalizing book with
  | nil => rfl
  | cons channel channels ih =>
      rw [List.foldl_cons, List.foldl_cons, ih, view_onEach]
      have reached : (book.targets kind channel symbol).count ws = (book.view ws).reached kind channel symbol := by
        unfold targets SocketView.reached
        split
        · exact count_index ..
        · rfl
      rw [reached]

theorem view_step (event : PublisherEvent γ σ) :
    (book.step kind event).view ws = (book.view ws).step kind ws event := by
  cases event with
  | connect socket =>
      show (book.connect socket).view ws = if socket = ws then _ else _
      unfold connect
      split <;> rename_i same
      · subst same
        exact SocketView.ext (Function.update_self ..) rfl rfl
      · exact SocketView.ext (Function.update_of_ne (Ne.symm same) ..) rfl rfl
  | subscribe socket channel product => exact view_subscribe socket channel product
  | other socket => exact view_onSocket socket _
  | unsupported socket => exact view_onSocket socket _
  | close socket => exact view_handleClose socket
  | publish symbol frame => exact view_publish symbol frame
  | reject symbol channel => exact view_onEach _ _
  | respond symbol channel newer =>
      show (book.respond kind symbol channel newer).view ws = if _ then _ else _
      unfold respond
      split
      · exact view_onEach _ _
      · rfl

/-- Of a run, a publisher keeps with a socket what the reference does. -/
theorem view_run (events : List (PublisherEvent γ σ)) :
    (events.foldl (step kind) book).view ws = events.foldl (SocketView.step kind ws) (book.view ws) := by
  induction events generalizing book with
  | nil => rfl
  | cons event rest ih => rw [List.foldl_cons, List.foldl_cons, ih, view_step]

end SubscriptionBook

/-! ## Sequence numbers -/

/-- The numbers of what a socket has been sent run from zero to the next one. -/
def Subscriber.Numbered (subscriber : Subscriber γ) : Prop :=
  subscriber.sent.filterMap Prod.fst = List.range subscriber.seqNum

namespace Subscriber

variable {kind : PublisherKind γ} {subscriber : Subscriber γ}

omit [DecidableEq γ] in
theorem Numbered.send (numbered : subscriber.Numbered) (message : PublisherMessage γ) :
    (subscriber.send message).Numbered := by
  show (subscriber.sent ++ [(none, message)]).filterMap Prod.fst = List.range subscriber.seqNum
  rw [List.filterMap_append, numbered]
  exact List.append_nil _

omit [DecidableEq γ] in
theorem Numbered.sendNumbered (numbered : subscriber.Numbered) (message : PublisherMessage γ) :
    (subscriber.sendNumbered kind message).Numbered := by
  unfold Subscriber.sendNumbered
  split
  · show (subscriber.sent ++ [(some subscriber.seqNum, message)]).filterMap Prod.fst =
      List.range (subscriber.seqNum + 1)
    rw [List.filterMap_append, numbered, List.range_succ]
    rfl
  · exact numbered.send message

theorem Numbered.respond (numbered : subscriber.Numbered) (channel : γ) (symbol : SymbolName) (newer : Bool) :
    (subscriber.respond kind channel symbol newer).Numbered := by
  unfold Subscriber.respond
  split
  · dsimp only
    have snapshot := @Numbered.sendNumbered _ kind
      { subscriber with
        pending := Function.update subscriber.pending channel ((subscriber.pending channel).erase symbol.bytes)
        received := Function.update subscriber.received channel (subscriber.received channel ++ [symbol.bytes]) }
      numbered (.snapshot channel symbol)
    split <;> split
    · exact (snapshot.sendNumbered _).sendNumbered _
    · exact snapshot.sendNumbered _
    · exact snapshot.sendNumbered _
    · exact snapshot
  · exact numbered

end Subscriber

namespace SocketView

variable {kind : PublisherKind γ} {view : SocketView γ}

def Numbered (view : SocketView γ) : Prop :=
  ∀ subscriber ∈ view.subscriber, subscriber.Numbered

omit [DecidableEq γ] in
theorem Numbered.onSubscriber (numbered : view.Numbered) {change : Subscriber γ → Subscriber γ}
    (keeps : ∀ subscriber : Subscriber γ, subscriber.Numbered → (change subscriber).Numbered) :
    (view.onSubscriber change).Numbered := by
  intro subscriber found
  obtain ⟨before, isBefore, rfl⟩ := Option.map_eq_some_iff.mp found
  exact keeps before (numbered before isBefore)

omit [DecidableEq γ] in
theorem Numbered.often (numbered : view.Numbered) {change : Subscriber γ → Subscriber γ}
    (keeps : ∀ subscriber : Subscriber γ, subscriber.Numbered → (change subscriber).Numbered) (times : Nat) :
    (view.onSubscriber change^[times]).Numbered := by
  refine numbered.onSubscriber ?_
  induction times with
  | zero => exact fun _ kept => kept
  | succ times ih => exact fun subscriber kept => ih _ (keeps subscriber kept)

theorem Numbered.step {ws : σ} (numbered : view.Numbered) (event : PublisherEvent γ σ) :
    (view.step kind ws event).Numbered := by
  cases event with
  | connect socket =>
      show (if socket = ws then _ else _ : SocketView γ).Numbered
      split
      · intro subscriber found
        obtain rfl := Option.some.inj found
        rfl
      · exact numbered
  | subscribe socket channel product =>
      show (if socket = ws then _ else _ : SocketView γ).Numbered
      split
      · unfold SocketView.subscribe
        split
        · exact @Numbered.onSubscriber _ view numbered (·.subscribe channel product) fun _ kept => kept
        · exact numbered.onSubscriber fun _ kept => kept.send _
      · exact numbered
  | other socket =>
      show (if socket = ws then _ else _ : SocketView γ).Numbered
      split
      · exact numbered.onSubscriber fun _ kept => kept.sendNumbered _
      · exact numbered
  | unsupported socket =>
      show (if socket = ws then _ else _ : SocketView γ).Numbered
      split
      · exact numbered.onSubscriber fun _ kept => kept.send _
      · exact numbered
  | close socket =>
      show (if socket = ws then _ else _ : SocketView γ).Numbered
      split
      · unfold SocketView.close
        split
        · exact numbered
        · intro subscriber found
          cases found
      · exact numbered
  | publish symbol frame =>
      show (view.publish kind symbol frame).Numbered
      unfold SocketView.publish
      induction kind.fanOut frame generalizing view with
      | nil => exact numbered
      | cons channel channels ih => exact ih (numbered.often (fun _ kept => kept.sendNumbered _) _)
  | reject symbol channel => exact numbered.often (fun _ kept => kept.send _) _
  | respond symbol channel newer =>
      show (if kind.accepts channel then _ else _ : SocketView γ).Numbered
      split
      · exact numbered.often (fun _ kept => kept.respond _ _ _) _
      · exact numbered

/-- The reference loses nothing when the other sockets are left out of a run. -/
theorem run_concerned (ws : σ) (events : List (PublisherEvent γ σ)) (view : SocketView γ) :
    (events.filter (·.concerns ws)).foldl (SocketView.step kind ws) view =
      events.foldl (SocketView.step kind ws) view := by
  induction events generalizing view with
  | nil => rfl
  | cons event rest ih =>
      cases concerned : event.concerns ws with
      | true => rw [List.filter_cons_of_pos concerned, List.foldl_cons, List.foldl_cons, ih]
      | false => rw [List.filter_cons_of_neg (by rw [concerned]; rintro ⟨⟩), ih, List.foldl_cons,
          step_of_not_concerns view concerned]

end SocketView

end SlickSim.MdPublisher
