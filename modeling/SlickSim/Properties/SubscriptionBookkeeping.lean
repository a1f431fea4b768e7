import SlickSim.Lib.Along
import SlickSim.Venues.MdSubscriptions

/-!
# Every frame reaches every subscriber once

The containers of a publisher against a reference that remembers who is connected and
what each socket subscribed to. Sets do not mind a subscription that is repeated, the
multimap does: it lists the socket again, and closing takes one entry away.
-/

set_option autoImplicit false

namespace SlickSim.MdPublisher

structure Bookkeeping (γ σ : Type) where
  book : SubscriptionBook γ σ
  reference : Subscriptions γ σ

namespace Bookkeeping

variable {γ σ : Type} [DecidableEq γ] [DecidableEq σ]

def start : Bookkeeping γ σ := ⟨.start, .start⟩

def step (kind : PublisherKind γ) (state : Bookkeeping γ σ) (event : PublisherEvent γ σ) : Bookkeeping γ σ :=
  ⟨state.book.step kind event, state.reference.step kind event⟩

def Admits (state : Bookkeeping γ σ) (event : PublisherEvent γ σ) : Prop :=
  state.book.Admits event

instance (state : Bookkeeping γ σ) (event : PublisherEvent γ σ) : Decidable (state.Admits event) :=
  inferInstanceAs (Decidable (state.book.Admits event))

/-- Nobody subscribes again to what it is subscribed to. -/
def Fresh (kind : PublisherKind γ) (state : Bookkeeping γ σ) : PublisherEvent γ σ → Prop
  | .subscribe ws channel product =>
      kind.accepts channel = true → (ws, channel, product) ∉ state.reference.subscribed
  | _ => True

end Bookkeeping

namespace SubscriptionBook

variable {γ σ : Type} [DecidableEq γ] [DecidableEq σ] {kind : PublisherKind γ} {book after : SubscriptionBook γ σ}
  {reference : Subscriptions γ σ} {ws other : σ} {channel : γ} {product : Product}

/-- Closed sockets are in no container, and every container lists each socket as often as
it should: once if it is connected, or subscribed, and not at all otherwise. -/
structure Listed (book : SubscriptionBook γ σ) (reference : Subscriptions γ σ) : Prop where
  clients : ∀ ws, book.clients.count ws = if ws ∈ reference.opened then 1 else 0
  info : ∀ ws channel product, (book.subscriptionInfo channel product).count ws =
    if (ws, channel, product) ∈ reference.subscribed then 1 else 0
  index : ∀ ws channel product, (book.symbolChannelClient product).count (channel, ws) =
    if (ws, channel, product) ∈ reference.subscribed then 1 else 0
  untouched : book.touchedClosed = false

/-- A frame is sent to every subscriber once on each of its channels, with one sequence number
each time where the venue numbers messages, and to nobody else. -/
def Delivers (kind : PublisherKind γ) (book : SubscriptionBook γ σ) (reference : Subscriptions γ σ) : Prop :=
  ∀ symbol frame ws, (book.publish kind symbol frame).sockets ws = (book.sockets ws).map fun subscriber =>
    ((kind.fanOut frame).filter fun channel =>
      decide ((ws, channel, symbol.bytes) ∈ reference.subscribed)).foldl
        (fun subscriber channel => subscriber.sendNumbered kind (.frame channel symbol frame)) subscriber

/-- What is asked of a state. -/
structure Kept (kind : PublisherKind γ) (book : SubscriptionBook γ σ) (reference : Subscriptions γ σ) :
    Prop where
  closed : ∀ ws, ws ∉ reference.opened → ws ∉ book.clients ∧
    ∀ channel product, ws ∉ book.subscriptionInfo channel product ∧
      (channel, ws) ∉ book.symbolChannelClient product
  listed : book.Listed reference
  delivers : book.Delivers kind reference

/-- What holds in any run: the sockets and their active products are the reference's. -/
structure Tracks (book : SubscriptionBook γ σ) (reference : Subscriptions γ σ) : Prop where
  opened : ∀ ws, (book.sockets ws).isSome = true ↔ ws ∈ reference.opened
  active : ∀ ws subscriber, book.sockets ws = some subscriber → ∀ channel product,
    product ∈ subscriber.active channel ↔ (ws, channel, product) ∈ reference.subscribed
  distinct : ∀ ws subscriber, book.sockets ws = some subscriber → ∀ channel, (subscriber.active channel).Nodup
  within : ∀ ws channel product, (ws, channel, product) ∈ reference.subscribed → ws ∈ reference.opened

/-! ## Uses of sockets -/

omit [DecidableEq γ] in
theorem onSocket_sockets (change : Subscriber γ → Subscriber γ) (other : σ) :
    (book.onSocket ws change).sockets other =
      if other = ws then (book.sockets other).map change else book.sockets other := by
  unfold onSocket
  cases found : book.sockets ws with
  | none =>
      dsimp only
      split <;> rename_i same
      · rw [same, found]
        rfl
      · rfl
  | some subscriber =>
      dsimp only
      split <;> rename_i same
      · rw [same, Function.update_self, found]
        rfl
      · rw [Function.update_of_ne same]

def containers (book : SubscriptionBook γ σ) :
    List σ × (γ → Product → List σ) × (Product → List (γ × σ)) × List (MdRequest γ σ) :=
  (book.clients, book.subscriptionInfo, book.symbolChannelClient, book.requests)

omit [DecidableEq γ] in
theorem onSocket_containers (change : Subscriber γ → Subscriber γ) :
    (book.onSocket ws change).containers = book.containers := by
  unfold onSocket
  split <;> rfl

omit [DecidableEq γ] in
theorem onSocket_untouched (change : Subscriber γ → Subscriber γ) (isOpen : (book.sockets ws).isSome = true) :
    (book.onSocket ws change).touchedClosed = book.touchedClosed := by
  obtain ⟨subscriber, found⟩ := Option.isSome_iff_exists.mp isOpen
  unfold onSocket
  rw [found]

omit [DecidableEq γ] in
theorem onEach_containers (targets : List σ) (change : Subscriber γ → Subscriber γ) :
    (book.onEach targets change).containers = book.containers := by
  unfold onEach
  induction targets generalizing book with
  | nil => rfl
  | cons ws targets ih => exact ih.trans (onSocket_containers change)

omit [DecidableEq γ] in
theorem onEach_sockets (targets : List σ) (change : Subscriber γ → Subscriber γ) (ws : σ) :
    (book.onEach targets change).sockets ws = (book.sockets ws).map change^[targets.count ws] := by
  unfold onEach
  induction targets generalizing book with
  | nil =>
      rw [List.count_nil, Function.iterate_zero, Option.map_id]
      rfl
  | cons target targets ih =>
      rw [List.foldl_cons, ih, onSocket_sockets]
      by_cases same : ws = target
      · subst same
        rw [if_pos rfl, List.count_cons_self, Function.iterate_succ, Option.map_map]
      · rw [if_neg same, List.count_cons_of_ne (Ne.symm same)]

omit [DecidableEq γ] in
theorem onEach_untouched (targets : List σ) (change : Subscriber γ → Subscriber γ)
    (allOpen : ∀ ws ∈ targets, (book.sockets ws).isSome = true) :
    (book.onEach targets change).touchedClosed = book.touchedClosed := by
  unfold onEach
  induction targets generalizing book with
  | nil => rfl
  | cons target targets ih =>
      rw [List.foldl_cons, ih, onSocket_untouched change (allOpen target List.mem_cons_self)]
      intro ws inside
      rw [onSocket_sockets]
      split
      · rw [Option.isSome_map]
        exact allOpen ws (List.mem_cons_of_mem _ inside)
      · exact allOpen ws (List.mem_cons_of_mem _ inside)

omit [DecidableEq γ] in
theorem iterate_active {change : Subscriber γ → Subscriber γ}
    (keeps : ∀ subscriber, (change subscriber).active = subscriber.active) (times : Nat)
    (subscriber : Subscriber γ) : (change^[times] subscriber).active = subscriber.active := by
  induction times generalizing subscriber with
  | zero => rfl
  | succ times ih => exact (ih _).trans (keeps subscriber)

theorem Listed.of_containers (listed : book.Listed reference) (same : after.containers = book.containers)
    (untouched : after.touchedClosed = book.touchedClosed) : after.Listed reference := by
  obtain ⟨clients, info, index, -⟩ : after.clients = book.clients ∧
      after.subscriptionInfo = book.subscriptionInfo ∧
      after.symbolChannelClient = book.symbolChannelClient ∧ after.requests = book.requests := by
    simpa [containers] using same
  exact ⟨clients ▸ listed.clients, info ▸ listed.info, index ▸ listed.index, untouched.trans listed.untouched⟩

omit [DecidableEq γ] [DecidableEq σ] in
theorem Tracks.of_sockets (tracks : book.Tracks reference)
    (same : ∀ ws, (after.sockets ws).map Subscriber.active = (book.sockets ws).map Subscriber.active) :
    after.Tracks reference := by
  have before : ∀ {ws subscriber}, after.sockets ws = some subscriber →
      ∃ earlier, book.sockets ws = some earlier ∧ earlier.active = subscriber.active := by
    intro ws subscriber found
    have here := same ws
    rw [found] at here
    obtain ⟨earlier, isEarlier, facts⟩ := Option.map_eq_some_iff.mp here.symm
    exact ⟨earlier, isEarlier, facts⟩
  refine ⟨?_, ?_, ?_, tracks.within⟩
  · intro ws
    rw [← tracks.opened, ← Option.isSome_map, same, Option.isSome_map]
  · intro ws subscriber found
    obtain ⟨earlier, isEarlier, facts⟩ := before found
    rw [← facts]
    exact tracks.active ws earlier isEarlier
  · intro ws subscriber found
    obtain ⟨earlier, isEarlier, facts⟩ := before found
    rw [← facts]
    exact tracks.distinct ws earlier isEarlier

section OnEach

variable {targets : List σ} {change : Subscriber γ → Subscriber γ}
  (keeps : ∀ subscriber, (change subscriber).active = subscriber.active)
include keeps

omit [DecidableEq γ] in
theorem Tracks.onEach (tracks : book.Tracks reference) : (book.onEach targets change).Tracks reference := by
  apply tracks.of_sockets
  intro ws
  rw [onEach_sockets, Option.map_map]
  congr 1
  funext subscriber
  exact iterate_active keeps _ subscriber

omit [DecidableEq γ] in
theorem Tracks.onSocket (tracks : book.Tracks reference) : (book.onSocket ws change).Tracks reference := by
  apply tracks.of_sockets
  intro other
  rw [onSocket_sockets]
  split
  · rw [Option.map_map]
    congr 1
    funext subscriber
    exact keeps subscriber
  · rfl

end OnEach

/-- Whoever is listed is open. -/
theorem open_of_info (tracks : book.Tracks reference) (listed : book.Listed reference)
    (inside : ws ∈ book.subscriptionInfo channel product) : (book.sockets ws).isSome = true := by
  have counted := List.count_pos_iff.mpr inside
  rw [listed.info] at counted
  split at counted <;> rename_i subscribed
  · exact (tracks.opened ws).mpr (tracks.within ws channel product subscribed)
  · exact absurd counted (Nat.lt_irrefl 0)

/-! ## Publishing -/

theorem count_index (entries : List (γ × σ)) (channel : γ) (ws : σ) :
    ((entries.filter fun entry => decide (entry.1 = channel)).map Prod.snd).count ws =
      entries.count (channel, ws) := by
  induction entries with
  | nil => rfl
  | cons entry entries ih =>
      obtain ⟨here, socket⟩ := entry
      by_cases same : here = channel
      · subst same
        rw [List.filter_cons_of_pos (by simp), List.map_cons]
        by_cases mine : socket = ws
        · subst mine
          rw [List.count_cons_self, List.count_cons_self, ih]
        · rw [List.count_cons_of_ne mine, List.count_cons_of_ne (by simp [mine]), ih]
      · rw [List.filter_cons_of_neg (by simp [same]), List.count_cons_of_ne (by simp [same]), ih]

theorem targets_count (listed : book.Listed reference) (channel : γ) (symbol : SymbolName) (ws : σ) :
    (book.targets kind channel symbol).count ws =
      if (ws, channel, symbol.bytes) ∈ reference.subscribed then 1 else 0 := by
  unfold targets
  split
  · rw [count_index, listed.index]
  · exact listed.info ..

theorem open_of_targets (tracks : book.Tracks reference) (listed : book.Listed reference) {symbol : SymbolName}
    (inside : ws ∈ book.targets kind channel symbol) : (book.sockets ws).isSome = true := by
  have counted := List.count_pos_iff.mpr inside
  rw [targets_count listed] at counted
  split at counted <;> rename_i subscribed
  · exact (tracks.opened ws).mpr (tracks.within _ _ _ subscribed)
  · exact absurd counted (Nat.lt_irrefl 0)

omit [DecidableEq γ] in
theorem sendNumbered_active (kind : PublisherKind γ) (message : PublisherMessage γ) (subscriber : Subscriber γ) :
    (subscriber.sendNumbered kind message).active = subscriber.active := by
  unfold Subscriber.sendNumbered
  split <;> rfl

theorem fanOut_spec (tracks : book.Tracks reference) (listed : book.Listed reference) (symbol : SymbolName)
    (frame : MDFrame) (channels : List γ) :
    let published := channels.foldl (fun book channel =>
      book.onEach (book.targets kind channel symbol) (·.sendNumbered kind (.frame channel symbol frame))) book
    published.Tracks reference ∧ published.Listed reference ∧
      ∀ ws, published.sockets ws = (book.sockets ws).map fun subscriber =>
        (channels.filter fun channel => decide ((ws, channel, symbol.bytes) ∈ reference.subscribed)).foldl
          (fun subscriber channel => subscriber.sendNumbered kind (.frame channel symbol frame)) subscriber := by
  induction channels generalizing book with
  | nil =>
      refine ⟨tracks, listed, fun ws => ?_⟩
      exact (Option.map_id' ..).symm
  | cons channel channels ih =>
      have kept := fun subscriber => sendNumbered_active kind (.frame channel symbol frame) subscriber
      have next := @ih (book.onEach (book.targets kind channel symbol)
        (·.sendNumbered kind (.frame channel symbol frame))) (tracks.onEach kept)
        (listed.of_containers (onEach_containers ..) (onEach_untouched _ _ fun ws => open_of_targets tracks listed))
      refine ⟨next.1, next.2.1, fun ws => (next.2.2 ws).trans ?_⟩
      rw [onEach_sockets, targets_count listed, Option.map_map]
      by_cases subscribed : (ws, channel, symbol.bytes) ∈ reference.subscribed
      · rw [if_pos subscribed, List.filter_cons_of_pos (by simpa using subscribed)]
        rfl
      · rw [if_neg subscribed, List.filter_cons_of_neg (by simpa using subscribed)]
        rfl

theorem Listed.kept (listed : book.Listed reference) (tracks : book.Tracks reference) :
    book.Kept kind reference where
  closed := by
    intro ws isClosed
    have unsubscribed : ∀ channel product, (ws, channel, product) ∉ reference.subscribed :=
      fun channel product subscribed => isClosed (tracks.within ws channel product subscribed)
    refine ⟨?_, fun channel product => ⟨?_, ?_⟩⟩
    · rw [← List.count_eq_zero, listed.clients, if_neg isClosed]
    · rw [← List.count_eq_zero, listed.info, if_neg (unsubscribed channel product)]
    · rw [← List.count_eq_zero, listed.index, if_neg (unsubscribed channel product)]
  listed := listed
  delivers := fun symbol frame ws => (fanOut_spec tracks listed symbol frame (kind.fanOut frame)).2.2 ws

/-! ## Closing -/

/-- A socket leaves a channel and product, or several. -/
structure Withdraws (ws : σ) (left : List (γ × Product)) (before after : SubscriptionBook γ σ) : Prop where
  clients : after.clients = before.clients
  sockets : ∀ other, other ≠ ws → after.sockets other = before.sockets other
  opened : (after.sockets ws).isSome = (before.sockets ws).isSome
  untouched : (before.sockets ws).isSome = true → after.touchedClosed = before.touchedClosed
  requests : after.requests = before.requests ++ left.map fun entry =>
    { subscribes := false, symbol := wireSymbol entry.2, channel := entry.1, client := ws }
  info : ∀ channel product other, (after.subscriptionInfo channel product).count other =
    (before.subscriptionInfo channel product).count other -
      if other = ws ∧ (channel, product) ∈ left then 1 else 0
  index : ∀ channel product other, (after.symbolChannelClient product).count (channel, other) =
    (before.symbolChannelClient product).count (channel, other) -
      if other = ws ∧ (channel, product) ∈ left then 1 else 0

namespace Withdraws

variable {first second third : SubscriptionBook γ σ} {left later : List (γ × Product)}

theorem refl (ws : σ) (book : SubscriptionBook γ σ) : Withdraws ws [] book book := by
  refine ⟨rfl, fun _ _ => rfl, rfl, fun _ => rfl, (List.append_nil _).symm, ?_, ?_⟩ <;> simp

theorem trans (apart : left.Disjoint later) (now : Withdraws ws left first second)
    (next : Withdraws ws later second third) : Withdraws ws (left ++ later) first third where
  clients := next.clients.trans now.clients
  sockets := fun other different => (next.sockets other different).trans (now.sockets other different)
  opened := next.opened.trans now.opened
  untouched := fun isOpen => (next.untouched (now.opened.trans isOpen)).trans (now.untouched isOpen)
  requests := by rw [next.requests, now.requests, List.map_append, List.append_assoc]
  info := by
    intro channel product other
    rw [next.info, now.info]
    by_cases here : (channel, product) ∈ left
    · have gone : (channel, product) ∉ later := fun inside => apart here inside
      simp [here, gone]
    · simp [here]
  index := by
    intro channel product other
    rw [next.index, now.index]
    by_cases here : (channel, product) ∈ left
    · have gone : (channel, product) ∉ later := fun inside => apart here inside
      simp [here, gone]
    · simp [here]

theorem one (ws : σ) (channel : γ) (book : SubscriptionBook γ σ) (product : Product) :
    Withdraws ws [(channel, product)] book (unsubscribeProduct ws channel book product) := by
  refine ⟨rfl, fun _ _ => rfl, rfl, fun _ => rfl, rfl, ?_, ?_⟩
  · intro channel' product' other
    by_cases sameChannel : channel' = channel
    · subst sameChannel
      by_cases sameProduct : product' = product
      · subst sameProduct
        by_cases mine : other = ws <;> simp [unsubscribeProduct, mine]
      · simp [unsubscribeProduct, sameProduct]
    · simp [unsubscribeProduct, sameChannel]
  · intro channel' product' other
    by_cases sameProduct : product' = product
    · subst sameProduct
      by_cases sameChannel : channel' = channel
      · subst sameChannel
        by_cases mine : other = ws <;> simp [unsubscribeProduct, mine]
      · simp [unsubscribeProduct, sameChannel]
    · simp [unsubscribeProduct, sameProduct]

theorem all (ws : σ) (channel : γ) {products : List Product} (distinct : products.Nodup)
    (book : SubscriptionBook γ σ) :
    Withdraws ws (products.map fun product => (channel, product)) book
      (products.foldl (unsubscribeProduct ws channel) book) := by
  induction products generalizing book with
  | nil => exact refl ws book
  | cons product products ih =>
      obtain ⟨absent, distinct⟩ := List.nodup_cons.mp distinct
      refine trans ?_ (Withdraws.one ws channel book product) (ih distinct _)
      simp [absent]

theorem ofChannel (ws : σ) (channel : γ) {subscriber : Subscriber γ}
    (distinct : (subscriber.active channel).Nodup) (book : SubscriptionBook γ σ) :
    Withdraws ws ((subscriber.active channel).map fun product => (channel, product)) book
      (unsubscribeChannel ws subscriber book channel) := by
  have withdrawn := all ws channel distinct book
  have same := @onSocket_containers _ _ _
    ((subscriber.active channel).foldl (unsubscribeProduct ws channel) book) ws (·.clear channel)
  obtain ⟨clients, info, index, requests⟩ : _ = _ ∧ _ = _ ∧ _ = _ ∧ _ = _ := by
    simpa only [containers, Prod.mk.injEq] using same
  refine ⟨clients.trans withdrawn.clients, ?_, ?_, ?_, requests.trans withdrawn.requests, ?_, ?_⟩
  · intro other different
    unfold unsubscribeChannel
    rw [onSocket_sockets, if_neg different]
    exact withdrawn.sockets other different
  · unfold unsubscribeChannel
    rw [onSocket_sockets, if_pos rfl, Option.isSome_map, withdrawn.opened]
  · intro isOpen
    unfold unsubscribeChannel
    rw [onSocket_untouched _ (withdrawn.opened.trans isOpen), withdrawn.untouched isOpen]
  · intro channel' product other
    rw [← withdrawn.info channel' product other]
    exact congrArg (fun lists => (lists channel' product).count other) info
  · intro channel' product other
    rw [← withdrawn.index channel' product other]
    exact congrArg (fun lists => (lists product).count (channel', other)) index

theorem ofChannels (ws : σ) {subscriber : Subscriber γ} (actives : ∀ channel, (subscriber.active channel).Nodup)
    {channels : List γ} (distinct : channels.Nodup) (book : SubscriptionBook γ σ) :
    Withdraws ws (channels.flatMap fun channel => (subscriber.active channel).map fun product => (channel, product))
      book (channels.foldl (unsubscribeChannel ws subscriber) book) := by
  induction channels generalizing book with
  | nil => exact refl ws book
  | cons channel channels ih =>
      obtain ⟨absent, distinct⟩ := List.nodup_cons.mp distinct
      rw [List.flatMap_cons, List.foldl_cons]
      refine trans ?_ (Withdraws.ofChannel ws channel (actives channel) book) (ih distinct _)
      rintro ⟨here, product⟩ first later
      obtain ⟨_, -, isHere⟩ := List.mem_map.mp first
      obtain ⟨there, inside, also⟩ := List.mem_flatMap.mp later
      obtain ⟨_, -, isThere⟩ := List.mem_map.mp also
      obtain rfl : channel = here := congrArg Prod.fst isHere
      obtain rfl : there = channel := congrArg Prod.fst isThere
      exact absent inside

end Withdraws

/-- The channels and products a socket leaves when it closes. -/
def departures (kind : PublisherKind γ) (subscriber : Subscriber γ) : List (γ × Product) :=
  kind.channels.flatMap fun channel => (subscriber.active channel).map fun product => (channel, product)

omit [DecidableEq γ] in
theorem mem_departures {subscriber : Subscriber γ} :
    (channel, product) ∈ departures kind subscriber ↔ product ∈ subscriber.active channel := by
  unfold departures
  rw [List.mem_flatMap]
  constructor
  · rintro ⟨there, -, also⟩
    obtain ⟨_, inside, same⟩ := List.mem_map.mp also
    cases same
    exact inside
  · intro inside
    exact ⟨channel, kind.complete channel, List.mem_map.mpr ⟨product, inside, rfl⟩⟩

theorem unsubscribeMd_withdraws {subscriber : Subscriber γ} (tracks : book.Tracks reference)
    (found : book.sockets ws = some subscriber) :
    Withdraws ws (departures kind subscriber) book (book.unsubscribeMd kind ws) := by
  unfold unsubscribeMd
  rw [found]
  exact Withdraws.ofChannels ws (tracks.distinct ws subscriber found) kind.distinct book

theorem handleClose_tracks (tracks : book.Tracks reference) (isOpen : (book.sockets ws).isSome = true) :
    (book.handleClose kind ws).Tracks (reference.step kind (.close ws)) := by
  obtain ⟨subscriber, found⟩ := Option.isSome_iff_exists.mp isOpen
  have withdrawn := @unsubscribeMd_withdraws _ _ _ _ kind _ _ _ _ tracks found
  have sockets : ∀ other, (book.handleClose kind ws).sockets other =
      if other = ws then none else book.sockets other := by
    intro other
    unfold handleClose
    dsimp only
    split <;> rename_i same
    · rw [same, Function.update_self]
    · rw [Function.update_of_ne same, withdrawn.sockets other same]
  refine ⟨?_, ?_, ?_, ?_⟩
  · intro other
    rw [sockets]
    show _ ↔ other ∈ reference.opened.erase ws
    rw [Finset.mem_erase]
    split <;> rename_i same
    · simp [same]
    · rw [tracks.opened]
      exact (and_iff_right same).symm
  · intro other later isLater channel product
    rw [sockets] at isLater
    split at isLater <;> rename_i same
    · cases isLater
    · rw [tracks.active other later isLater]
      show _ ↔ _ ∈ reference.subscribed.filter _
      rw [Finset.mem_filter]
      exact (and_iff_left same).symm
  · intro other later isLater
    rw [sockets] at isLater
    split at isLater
    · cases isLater
    · exact tracks.distinct other later isLater
  · intro other channel product inside
    obtain ⟨inside, different⟩ := Finset.mem_filter.mp inside
    exact Finset.mem_erase.mpr ⟨different, tracks.within other channel product inside⟩

theorem handleClose_listed (tracks : book.Tracks reference) (listed : book.Listed reference)
    (isOpen : (book.sockets ws).isSome = true) :
    (book.handleClose kind ws).Listed (reference.step kind (.close ws)) := by
  obtain ⟨subscriber, found⟩ := Option.isSome_iff_exists.mp isOpen
  have withdrawn := @unsubscribeMd_withdraws _ _ _ _ kind _ _ _ _ tracks found
  -- Where the socket was subscribed it is struck off, and only there was it listed.
  have struck : ∀ channel product other, (if (other, channel, product) ∈ reference.subscribed then 1 else 0) -
      (if other = ws ∧ (channel, product) ∈ departures kind subscriber then 1 else 0) =
        if (other, channel, product) ∈ reference.subscribed.filter fun entry => entry.1 ≠ ws then 1 else 0 := by
    intro channel product other
    have left : (channel, product) ∈ departures kind subscriber ↔ (ws, channel, product) ∈ reference.subscribed :=
      mem_departures.trans (tracks.active ws subscriber found channel product)
    by_cases same : other = ws
    · subst same
      by_cases inside : (other, channel, product) ∈ reference.subscribed <;> simp [inside, left]
    · by_cases inside : (other, channel, product) ∈ reference.subscribed <;> simp [inside, same]
  refine ⟨?_, ?_, ?_, (withdrawn.untouched isOpen).trans listed.untouched⟩
  · intro other
    show ((book.unsubscribeMd kind ws).clients.erase ws).count other =
      if other ∈ reference.opened.erase ws then 1 else 0
    rw [withdrawn.clients, List.count_erase, listed.clients]
    by_cases same : other = ws
    · subst same
      simp [(tracks.opened other).mp isOpen]
    · simp [same, Ne.symm same]
  · intro other channel product
    exact (withdrawn.info channel product other).trans (by rw [listed.info]; exact struck channel product other)
  · intro other channel product
    exact (withdrawn.index channel product other).trans (by rw [listed.index]; exact struck channel product other)

/-! ## Subscribing -/

theorem subscribeProduct_sockets (other : σ) :
    (book.subscribeProduct ws channel product).sockets other =
      if other = ws then (book.sockets other).map (·.subscribe channel product) else book.sockets other :=
  onSocket_sockets ..

theorem subscribeProduct_containers :
    (book.subscribeProduct ws channel product).containers =
      (book.clients,
        Function.update book.subscriptionInfo channel (Function.update (book.subscriptionInfo channel) product
          ((book.subscriptionInfo channel product).insert ws)),
        Function.update book.symbolChannelClient product (book.symbolChannelClient product ++ [(channel, ws)]),
        book.requests ++ [{ subscribes := true, symbol := wireSymbol product, channel, client := ws }]) :=
  onSocket_containers _

theorem subscribeProduct_tracks (tracks : book.Tracks reference) (isOpen : (book.sockets ws).isSome = true) :
    (book.subscribeProduct ws channel product).Tracks
      { reference with subscribed := insert (ws, channel, product) reference.subscribed } := by
  refine ⟨?_, ?_, ?_, ?_⟩
  · intro other
    rw [← tracks.opened, subscribeProduct_sockets]
    split
    · rw [Option.isSome_map]
    · exact Iff.rfl
  · intro other later isLater channel' product'
    rw [subscribeProduct_sockets] at isLater
    rw [Finset.mem_insert]
    split at isLater <;> rename_i same
    · subst same
      obtain ⟨subscriber, found, rfl⟩ := Option.map_eq_some_iff.mp isLater
      rw [← tracks.active other subscriber found]
      by_cases sameChannel : channel' = channel
      · subst sameChannel
        simp [Subscriber.subscribe]
      · simp [Subscriber.subscribe, sameChannel]
    · rw [tracks.active other later isLater]
      simp [same]
  · intro other later isLater channel'
    rw [subscribeProduct_sockets] at isLater
    split at isLater
    · obtain ⟨subscriber, found, rfl⟩ := Option.map_eq_some_iff.mp isLater
      by_cases sameChannel : channel' = channel
      · subst sameChannel
        simpa [Subscriber.subscribe] using (tracks.distinct other subscriber found channel').insert
      · simpa [Subscriber.subscribe, sameChannel] using tracks.distinct other subscriber found channel'
    · exact tracks.distinct other later isLater channel'
  · intro other channel' product' inside
    rcases Finset.mem_insert.mp inside with same | inside
    · cases same
      exact (tracks.opened ws).mp isOpen
    · exact tracks.within other channel' product' inside

theorem subscribeProduct_index (other : σ) (channel' : γ) (product' : Product) :
    ((book.subscribeProduct ws channel product).symbolChannelClient product').count (channel', other) =
      (book.symbolChannelClient product').count (channel', other) +
        if (other, channel', product') = (ws, channel, product) then 1 else 0 := by
  have same := congrArg (fun containers => containers.2.2.1) (@subscribeProduct_containers _ _ _ _ book ws channel product)
  rw [show (book.subscribeProduct ws channel product).symbolChannelClient = _ from same]
  by_cases here : product' = product
  · subst here
    by_cases mine : (other, channel') = (ws, channel)
    · cases mine
      simp
    · have different : ¬ (channel', other) = (channel, ws) := fun same => mine (by cases same; rfl)
      have apart : ¬ (other, channel', product') = (ws, channel, product') := fun same => mine (by cases same; rfl)
      simp [List.count_append, List.count_cons_of_ne (Ne.symm different), apart]
  · simp [here]

theorem subscribeProduct_listed (listed : book.Listed reference)
    (isOpen : (book.sockets ws).isSome = true) (fresh : (ws, channel, product) ∉ reference.subscribed) :
    (book.subscribeProduct ws channel product).Listed
      { reference with subscribed := insert (ws, channel, product) reference.subscribed } := by
  have same := @subscribeProduct_containers _ _ _ _ book ws channel product
  refine ⟨?_, ?_, ?_, ?_⟩
  · intro other
    rw [show (book.subscribeProduct ws channel product).clients = book.clients from congrArg Prod.fst same]
    exact listed.clients other
  · intro other channel' product'
    rw [show (book.subscribeProduct ws channel product).subscriptionInfo = _ from
      congrArg (fun containers => containers.2.1) same]
    have absent : ws ∉ book.subscriptionInfo channel product := by
      rw [← List.count_eq_zero, listed.info, if_neg fresh]
    by_cases here : channel' = channel ∧ product' = product
    · obtain ⟨rfl, rfl⟩ := here
      by_cases mine : other = ws
      · subst mine
        simp [List.insert_of_not_mem absent, List.count_eq_zero.mpr absent]
      · simp [List.insert_of_not_mem absent, mine, List.count_cons_of_ne (Ne.symm mine), listed.info]
    · have elsewhere : Function.update book.subscriptionInfo channel (Function.update (book.subscriptionInfo channel)
          product ((book.subscriptionInfo channel product).insert ws)) channel' product' =
            book.subscriptionInfo channel' product' := by
        by_cases sameChannel : channel' = channel
        · subst sameChannel
          rw [Function.update_self, Function.update_of_ne fun sameProduct => here ⟨rfl, sameProduct⟩]
        · rw [Function.update_of_ne sameChannel]
      dsimp only
      rw [elsewhere, listed.info]
      simp [here]
  · intro other channel' product'
    rw [subscribeProduct_index, listed.index]
    by_cases mine : (other, channel', product') = (ws, channel, product)
    · rw [if_pos mine, mine, if_neg fresh, if_pos (Finset.mem_insert_self ..)]
    · simp [Finset.mem_insert, mine]
  · show (onSocket _ ws _).touchedClosed = false
    rw [onSocket_untouched]
    · exact listed.untouched
    · exact isOpen

/-- The multimap lists a socket that subscribes again twice. -/
theorem not_listed_again {later : Subscriptions γ σ} (listed : book.Listed reference)
    (again : (ws, channel, product) ∈ reference.subscribed) :
    ¬ (book.subscribeProduct ws channel product).Listed later := by
  intro kept
  have twice := kept.index ws channel product
  rw [subscribeProduct_index, listed.index, if_pos again, if_pos rfl] at twice
  split at twice <;> cases twice

end SubscriptionBook

/-! ## Runs -/

namespace Bookkeeping

variable {γ σ : Type} [DecidableEq γ] [DecidableEq σ] {kind : PublisherKind γ} {state : Bookkeeping γ σ}

open SubscriptionBook

theorem respond_active (kind : PublisherKind γ) (channel : γ) (symbol : SymbolName) (newer : Bool)
    (subscriber : Subscriber γ) :
    (subscriber.respond kind channel symbol newer).active = subscriber.active := by
  unfold Subscriber.respond
  split
  · dsimp only
    split <;> split <;> simp [sendNumbered_active]
  · rfl

theorem publish_tracks {book : SubscriptionBook γ σ} {reference : Subscriptions γ σ} (symbol : SymbolName)
    (frame : MDFrame) (tracks : book.Tracks reference) : (book.publish kind symbol frame).Tracks reference := by
  unfold SubscriptionBook.publish
  induction kind.fanOut frame generalizing book with
  | nil => exact tracks
  | cons channel channels ih => exact ih (tracks.onEach (sendNumbered_active kind (.frame channel symbol frame)))

omit [DecidableEq γ] in
theorem connect_tracks {book : SubscriptionBook γ σ} {reference : Subscriptions γ σ} {ws : σ}
    (tracks : book.Tracks reference) (closed : book.sockets ws = none) :
    (book.connect ws).Tracks { reference with opened := insert ws reference.opened } := by
  have unsubscribed : ∀ channel product, (ws, channel, product) ∉ reference.subscribed := by
    intro channel product inside
    have isOpen := (tracks.opened ws).mpr (tracks.within ws channel product inside)
    rw [closed] at isOpen
    cases isOpen
  have sockets : ∀ other, (book.connect ws).sockets other =
      if other = ws then some .fresh else book.sockets other := by
    intro other
    show Function.update book.sockets ws (some .fresh) other = _
    rw [Function.update_apply]
  refine ⟨?_, ?_, ?_, ?_⟩
  · intro other
    rw [sockets]
    show _ ↔ other ∈ insert ws reference.opened
    rw [Finset.mem_insert, ← tracks.opened]
    split <;> rename_i same <;> simp [same]
  · intro other later isLater channel product
    rw [sockets] at isLater
    split at isLater <;> rename_i same
    · obtain rfl := Option.some.inj isLater
      exact iff_of_false List.not_mem_nil (same ▸ unsubscribed channel product)
    · exact tracks.active other later isLater channel product
  · intro other later isLater channel
    rw [sockets] at isLater
    split at isLater
    · obtain rfl := Option.some.inj isLater
      exact List.nodup_nil
    · exact tracks.distinct other later isLater channel
  · intro other channel product inside
    exact Finset.mem_insert_of_mem (tracks.within other channel product inside)

theorem connect_listed {book : SubscriptionBook γ σ} {reference : Subscriptions γ σ} {ws : σ}
    (tracks : book.Tracks reference) (listed : book.Listed reference) (closed : book.sockets ws = none) :
    (book.connect ws).Listed { reference with opened := insert ws reference.opened } := by
  have stranger : ws ∉ reference.opened := by
    rw [← tracks.opened, closed]
    exact Bool.false_ne_true
  have absent : ws ∉ book.clients := by
    rw [← List.count_eq_zero, listed.clients, if_neg stranger]
  refine ⟨?_, listed.info, listed.index, listed.untouched⟩
  intro other
  show (book.clients.insert ws).count other = if other ∈ insert ws reference.opened then 1 else 0
  rw [List.insert_of_not_mem absent]
  by_cases same : other = ws
  · subst same
    simp [List.count_eq_zero.mpr absent]
  · rw [List.count_cons_of_ne (Ne.symm same), listed.clients]
    simp [same]

theorem step_tracks (event : PublisherEvent γ σ) (admitted : state.Admits event)
    (tracks : state.book.Tracks state.reference) :
    (state.step kind event).book.Tracks (state.step kind event).reference := by
  cases event with
  | connect ws => exact connect_tracks tracks admitted
  | subscribe ws channel product =>
      show (state.book.subscribe kind ws channel product).Tracks (if kind.accepts channel then _ else _)
      unfold SubscriptionBook.subscribe
      split
      · exact subscribeProduct_tracks tracks admitted
      · exact tracks.onSocket fun _ => rfl
  | other ws => exact tracks.onSocket (sendNumbered_active kind .reply)
  | unsupported ws => exact tracks.onSocket (fun _ => rfl)
  | close ws => exact handleClose_tracks tracks admitted
  | publish symbol frame => exact publish_tracks symbol frame tracks
  | reject symbol channel => exact tracks.onEach fun _ => rfl
  | respond symbol channel newer =>
      show (state.book.respond kind symbol channel newer).Tracks state.reference
      unfold SubscriptionBook.respond
      split
      · exact tracks.onEach (respond_active kind channel symbol newer)
      · exact tracks

/-- Steps that repeat no subscription keep the containers right. -/
theorem step_listed (event : PublisherEvent γ σ) (admitted : state.Admits event)
    (tracks : state.book.Tracks state.reference) (listed : state.book.Listed state.reference)
    (fresh : state.Fresh kind event) :
    (state.step kind event).book.Listed (state.step kind event).reference := by
  cases event with
  | connect ws => exact connect_listed tracks listed admitted
  | subscribe ws channel product =>
      show (state.book.subscribe kind ws channel product).Listed (if kind.accepts channel then _ else _)
      unfold SubscriptionBook.subscribe
      split <;> rename_i accepted
      · exact subscribeProduct_listed listed admitted (fresh accepted)
      · exact listed.of_containers (onSocket_containers _) (onSocket_untouched _ admitted)
  | other ws => exact listed.of_containers (onSocket_containers _) (onSocket_untouched _ admitted)
  | unsupported ws => exact listed.of_containers (onSocket_containers _) (onSocket_untouched _ admitted)
  | close ws => exact handleClose_listed tracks listed admitted
  | publish symbol frame => exact (fanOut_spec tracks listed symbol frame (kind.fanOut frame)).2.1
  | reject symbol channel =>
      exact listed.of_containers (onEach_containers ..)
        (onEach_untouched _ _ fun ws inside => open_of_info tracks listed inside)
  | respond symbol channel newer =>
      show (state.book.respond kind symbol channel newer).Listed state.reference
      unfold SubscriptionBook.respond
      split
      · exact listed.of_containers (onEach_containers ..)
          (onEach_untouched _ _ fun ws inside => open_of_info tracks listed inside)
      · exact listed

/-- A step that repeats a subscription does not. -/
theorem fresh_of_listed (event : PublisherEvent γ σ) (listed : state.book.Listed state.reference)
    (kept : (state.step kind event).book.Listed (state.step kind event).reference) : state.Fresh kind event := by
  cases event with
  | subscribe ws channel product =>
      intro accepted again
      refine @not_listed_again _ _ _ _ _ _ _ _ _ (state.step kind (.subscribe ws channel product)).reference listed again ?_
      have same : (state.step kind (.subscribe ws channel product)).book =
          state.book.subscribeProduct ws channel product := if_pos accepted
      rw [← same]
      exact kept
  | connect | other | unsupported | close | publish | reject | respond => trivial

omit [DecidableEq γ] [DecidableEq σ] in
theorem start_tracks : (start : Bookkeeping γ σ).book.Tracks start.reference := by
  refine ⟨?_, ?_, ?_, ?_⟩
  · intro ws
    exact iff_of_false Bool.false_ne_true (Finset.notMem_empty ws)
  · intro ws subscriber found
    cases found
  · intro ws subscriber found
    cases found
  · intro ws channel product inside
    exact absurd inside (Finset.notMem_empty _)

theorem start_listed : (start : Bookkeeping γ σ).book.Listed start.reference :=
  ⟨fun _ => rfl, fun _ _ _ => rfl, fun _ _ _ => rfl, rfl⟩

/-- In every state of a run the containers are right and every frame reaches every subscriber
once, exactly when no socket of the run subscribes again to what it is subscribed to. -/
theorem run_kept_iff (venue : MdVenue) {events : List (PublisherEvent venue.Channel σ)}
    (admitted : Along (step venue.publisher) Admits start events) :
    (∀ past, past <+: events →
      (past.foldl (step venue.publisher) start).book.Kept venue.publisher
        (past.foldl (step venue.publisher) start).reference) ↔
      Along (step venue.publisher) (Fresh venue.publisher) start events := by
  refine @Along.every_iff _ _ _ _ _
    (fun state => state.book.Tracks state.reference ∧ state.book.Listed state.reference)
    (fun state => state.book.Kept venue.publisher state.reference) _ _ ?_ ?_ ?_ admitted ⟨start_tracks, start_listed⟩
  · rintro state ⟨tracks, listed⟩
    exact listed.kept tracks
  · rintro state event - ⟨-, listed⟩ kept
    exact fresh_of_listed event listed kept.listed
  · rintro state event admitted ⟨tracks, listed⟩ fresh
    exact ⟨step_tracks event admitted tracks, step_listed event admitted tracks listed fresh⟩

/-- Two sockets share a product, and one of them takes a second channel. -/
theorem run_kept_iff_shared :
    let events : List (PublisherEvent CoinbaseChannel Nat) :=
      [.connect 0, .connect 1, .subscribe 0 .level2 [66], .subscribe 1 .level2 [66], .subscribe 0 .ticker [66],
        .close 0]
    (∀ past, past <+: events →
      (past.foldl (step coinbasePublisher) start).book.Kept coinbasePublisher
        (past.foldl (step coinbasePublisher) start).reference) ↔
      Along (step coinbasePublisher) (Fresh coinbasePublisher) start events :=
  run_kept_iff .coinbase (by decide)

/-- A socket that subscribed twice stays in the multimap of either publisher after it closed. -/
theorem not_kept_repeated :
    (¬ ∀ (events : List (PublisherEvent CoinbaseChannel Nat)), Along (step coinbasePublisher) Admits start events →
      (events.foldl (step coinbasePublisher) start).book.Kept coinbasePublisher
        (events.foldl (step coinbasePublisher) start).reference) ∧
    ¬ ∀ (events : List (PublisherEvent HyperliquidChannel Nat)),
      Along (step hyperliquidPublisher) Admits start events →
        (events.foldl (step hyperliquidPublisher) start).book.Kept hyperliquidPublisher
          (events.foldl (step hyperliquidPublisher) start).reference := by
  constructor
  · intro every
    have kept := every [.connect 0, .subscribe 0 .level2 [66], .subscribe 0 .level2 [66], .close 0] (by decide)
    exact absurd ((kept.closed 0 (by decide)).2 .level2 [66]).2 (by decide)
  · intro every
    have kept := every [.connect 0, .subscribe 0 .l2Book [66], .subscribe 0 .l2Book [66], .close 0] (by decide)
    exact absurd ((kept.closed 0 (by decide)).2 .l2Book [66]).2 (by decide)

end Bookkeeping

end SlickSim.MdPublisher
