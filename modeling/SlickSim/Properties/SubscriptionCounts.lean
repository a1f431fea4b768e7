import Mathlib.Data.Finset.Card
import SlickSim.Venues.MdSubscriptionCounts
import SlickSim.Properties.SubscriptionBookkeeping

/-!
# The exchange counts what its publisher has open

A publisher asks once for every subscribe message and takes back once for every product
a socket was active on. The count of a symbol is right as long as no socket subscribes
again on a channel, the first subscription of a symbol is one the exchange counts, and
the count has room.
-/

set_option autoImplicit false

namespace SlickSim.MdPublisher

/-- A publisher, the reference, and the exchange that works off the publisher's requests. -/
structure SubscriptionSystem (venue : MdVenue) (σ : Type) where
  publisher : Bookkeeping venue.Channel σ
  exchange : MdExchange venue.Channel

/-- The sockets and channels that have a subscription to a symbol open. -/
def Subscriptions.openTo {γ σ : Type} [DecidableEq γ] [DecidableEq σ] (subscriptions : Subscriptions γ σ)
    (symbol : SymbolName) : Finset (σ × γ) :=
  (subscriptions.subscribed.filter fun entry => wireSymbol entry.2.2 = symbol).image
    fun entry => (entry.1, entry.2.1)

namespace SubscriptionSystem

variable {venue : MdVenue} {σ : Type} [DecidableEq σ]

def start (exchange : MdExchange venue.Channel) : SubscriptionSystem venue σ := ⟨.start, exchange⟩

/-- One event at the publisher, and the requests it makes. -/
def step (system : SubscriptionSystem venue σ) (event : PublisherEvent venue.Channel σ) :
    SubscriptionSystem venue σ :=
  let publisher := system.publisher.step venue.publisher event
  { publisher := { publisher with book := { publisher.book with requests := [] } }
    exchange := publisher.book.requests.foldl venue.processRequest system.exchange }

def run (system : SubscriptionSystem venue σ) (events : List (PublisherEvent venue.Channel σ)) :
    SubscriptionSystem venue σ :=
  events.foldl step system

def Admits (system : SubscriptionSystem venue σ) (event : PublisherEvent venue.Channel σ) : Prop :=
  system.publisher.Admits event

instance (system : SubscriptionSystem venue σ) (event : PublisherEvent venue.Channel σ) :
    Decidable (system.Admits event) :=
  inferInstanceAs (Decidable (system.publisher.Admits event))

/-- How many sockets and channels have a subscription to a symbol open. -/
def openCount (system : SubscriptionSystem venue σ) (symbol : SymbolName) : Nat :=
  (system.publisher.reference.openTo symbol).card

/-- The count of every symbol is right. A symbol there is none of has no subscription. -/
def Counted (system : SubscriptionSystem venue σ) : Prop :=
  ∀ symbol, (system.exchange.numSubscriptions symbol).getD 0 = system.openCount symbol

/-- A live feed is let go of exactly when the last subscription goes. -/
def TearsDown (before after : SubscriptionSystem venue σ) : Prop :=
  ∀ symbol, before.exchange.feeds symbol = true →
    (after.exchange.feeds symbol = false ↔ 0 < before.openCount symbol ∧ after.openCount symbol = 0)

/-- The subscriptions that keep the counts right. -/
def Sound (system : SubscriptionSystem venue σ) : PublisherEvent venue.Channel σ → Prop
  | .subscribe ws channel product => venue.publisher.accepts channel = true →
      (ws, channel) ∉ system.publisher.reference.openTo (wireSymbol product) ∧
        (venue.countsFirst channel = true ∨
          (system.exchange.numSubscriptions (wireSymbol product)).isSome = true) ∧
        system.openCount (wireSymbol product) + 1 < 65536
  | _ => True

end SubscriptionSystem

/-! ## The exchange -/

namespace MdExchange

variable {γ : Type} {exchange : MdExchange γ} {symbol : SymbolName}

theorem handleMdUnsubscription_known {count : Nat} (known : exchange.numSubscriptions symbol = some count) :
    (exchange.handleMdUnsubscription symbol).numSubscriptions =
        Function.update exchange.numSubscriptions symbol (some (fetchSub count)) ∧
      (exchange.handleMdUnsubscription symbol).feeds =
        if count = 1 then Function.update exchange.feeds symbol false else exchange.feeds := by
  unfold handleMdUnsubscription
  rw [known]
  dsimp only
  split <;> exact ⟨rfl, rfl⟩

theorem fetchSub_of_pos {count : Nat} (positive : 0 < count) (fits : count < 65536) :
    fetchSub count = count - 1 := by
  unfold fetchSub
  omega

theorem unsubscribe_all {symbols : List SymbolName} {count : Nat}
    (known : ∀ other ∈ symbols, ∃ count, exchange.numSubscriptions other = some count ∧
      symbols.count other ≤ count ∧ count < 65536)
    (counted : (exchange.numSubscriptions symbol).getD 0 = count) :
    let after := symbols.foldl handleMdUnsubscription exchange
    (after.numSubscriptions symbol).getD 0 = count - symbols.count symbol ∧
      (after.numSubscriptions symbol).isSome = (exchange.numSubscriptions symbol).isSome ∧
      after.feeds symbol = (exchange.feeds symbol && !decide (0 < count ∧ symbols.count symbol = count)) := by
  induction symbols generalizing exchange count with
  | nil =>
      refine ⟨counted, rfl, ?_⟩
      have calm : ¬ (0 < count ∧ 0 = count) := by omega
      simp [calm]
  | cons first symbols ih =>
      obtain ⟨number, isNumber, enough, fits⟩ := known first List.mem_cons_self
      rw [List.count_cons_self] at enough
      obtain ⟨counts, feeds⟩ := handleMdUnsubscription_known isNumber
      rw [fetchSub_of_pos (by omega) fits] at counts
      rw [List.foldl_cons]
      have next : ∀ other ∈ symbols, ∃ count,
          (exchange.handleMdUnsubscription first).numSubscriptions other = some count ∧
            symbols.count other ≤ count ∧ count < 65536 := by
        intro other inside
        rw [counts]
        by_cases same : other = first
        · subst same
          exact ⟨number - 1, Function.update_self .., by omega, by omega⟩
        · obtain ⟨count, isCount, within, fits⟩ := known other (List.mem_cons_of_mem _ inside)
          rw [List.count_cons_of_ne (Ne.symm same)] at within
          exact ⟨count, (Function.update_of_ne same ..).trans isCount, within, fits⟩
      by_cases same : symbol = first
      · subst same
        rw [isNumber, Option.getD_some] at counted
        subst counted
        have := @ih (exchange.handleMdUnsubscription symbol) (number - 1) next
          (by rw [counts, Function.update_self]; rfl)
        refine ⟨?_, ?_, ?_⟩
        · rw [this.1, List.count_cons_self]
          omega
        · rw [this.2.1, counts, Function.update_self, isNumber]
          rfl
        · rw [this.2.2, feeds, List.count_cons_self]
          by_cases last : number = 1
          · have none_left : symbols.count symbol = 0 := by omega
            simp [last, none_left]
          · rw [if_neg last]
            congr 2
            exact decide_eq_decide.mpr (by omega)
      · have := @ih (exchange.handleMdUnsubscription first) count next
          (by rw [counts, Function.update_of_ne same]; exact counted)
        refine ⟨?_, ?_, ?_⟩
        · rw [this.1, List.count_cons_of_ne (Ne.symm same)]
        · rw [this.2.1, counts, Function.update_of_ne same]
        · rw [this.2.2, List.count_cons_of_ne (Ne.symm same), feeds]
          split
          · rw [Function.update_of_ne same]
          · rfl

end MdExchange

namespace MdVenue

variable {venue : MdVenue} {exchange : MdExchange venue.Channel} {symbol other : SymbolName}
  {channel : venue.Channel}

theorem startFeed_feeds {γ : Type} (exchange : MdExchange γ) (fed : exchange.feeds other = true) :
    (exchange.startFeed symbol).feeds other = true := by
  show Function.update exchange.feeds symbol true other = true
  by_cases same : other = symbol
  · rw [same, Function.update_self]
  · rw [Function.update_of_ne same, fed]

theorem coinbase_counts {exchange : MdExchange CoinbaseChannel} {channel : CoinbaseChannel} :
    (coinbaseMdSubscription exchange symbol channel).numSubscriptions =
      Function.update exchange.numSubscriptions symbol (some
        (if coinbase.countsFirst channel = true ∨ (exchange.numSubscriptions symbol).isSome = true then
          fetchAdd ((exchange.numSubscriptions symbol).getD 0) else 0)) := by
  unfold coinbaseMdSubscription
  cases exchange.numSubscriptions symbol with
  | none =>
      cases exchange.useLiveFeed <;> cases channel <;>
        simp [MdExchange.setCount, MdExchange.pend, MdExchange.startFeed, MdExchange.respond, countsFirst]
  | some count =>
      rw [if_pos (show _ ∨ (some count).isSome = true from .inr rfl)]
      cases channel with
      | level2 | marketTrades =>
          dsimp only
          split <;> rfl
      | ticker | user | heartbeats => rfl

theorem coinbase_feeds {exchange : MdExchange CoinbaseChannel} {channel : CoinbaseChannel} (other : SymbolName)
    (fed : exchange.feeds other = true) :
    (coinbaseMdSubscription exchange symbol channel).feeds other = true := by
  unfold coinbaseMdSubscription
  cases exchange.numSubscriptions symbol with
  | none =>
      dsimp only
      split
      · cases channel with
        | level2 | marketTrades | heartbeats => exact startFeed_feeds _ fed
        | ticker | user => exact fed
      · cases channel <;> exact fed
  | some count =>
      cases channel with
      | level2 | marketTrades =>
          dsimp only
          split <;> exact fed
      | ticker | user | heartbeats => exact fed

theorem hyperliquid_counts {exchange : MdExchange HyperliquidChannel} {channel : HyperliquidChannel} :
    (hyperliquidMdSubscription exchange symbol channel).numSubscriptions =
      Function.update exchange.numSubscriptions symbol (some
        (if hyperliquid.countsFirst channel = true ∨ (exchange.numSubscriptions symbol).isSome = true then
          fetchAdd ((exchange.numSubscriptions symbol).getD 0) else 0)) := by
  rw [if_pos (.inl rfl)]
  unfold hyperliquidMdSubscription
  dsimp only
  split
  · split
    · split <;> rfl
    · split <;> rfl
  · rfl

theorem hyperliquid_feeds {exchange : MdExchange HyperliquidChannel} {channel : HyperliquidChannel}
    (other : SymbolName) (fed : exchange.feeds other = true) :
    (hyperliquidMdSubscription exchange symbol channel).feeds other = true := by
  unfold hyperliquidMdSubscription
  dsimp only
  split
  · split
    · split <;> exact startFeed_feeds _ fed
    · split <;> exact fed
  · exact fed

/-- A subscription counts its symbol, unless it is the first and on a channel that does not. -/
theorem handleMdSubscription_spec :
    (venue.handleMdSubscription exchange symbol channel).numSubscriptions =
        Function.update exchange.numSubscriptions symbol (some
          (if venue.countsFirst channel = true ∨ (exchange.numSubscriptions symbol).isSome = true then
            fetchAdd ((exchange.numSubscriptions symbol).getD 0) else 0)) ∧
      ∀ other, exchange.feeds other = true →
        (venue.handleMdSubscription exchange symbol channel).feeds other = true := by
  cases venue with
  | coinbase => exact ⟨coinbase_counts, coinbase_feeds⟩
  | hyperliquid => exact ⟨hyperliquid_counts, hyperliquid_feeds⟩

end MdVenue

/-! ## Requests and the reference -/

namespace SubscriptionBook

variable {γ σ : Type} [DecidableEq γ] [DecidableEq σ] {kind : PublisherKind γ} {book : SubscriptionBook γ σ}
  {reference : Subscriptions γ σ} {ws : σ} {subscriber : Subscriber γ} {symbol : SymbolName}

theorem publish_containers (symbol : SymbolName) (frame : MDFrame) :
    (book.publish kind symbol frame).containers = book.containers := by
  unfold publish
  induction kind.fanOut frame generalizing book with
  | nil => rfl
  | cons channel channels ih => exact ih.trans (onEach_containers ..)

theorem handleClose_requests (tracks : book.Tracks reference) (found : book.sockets ws = some subscriber) :
    (book.handleClose kind ws).requests = book.requests ++ (departures kind subscriber).map fun entry =>
      { subscribes := false, symbol := wireSymbol entry.2, channel := entry.1, client := ws } :=
  (unsubscribeMd_withdraws tracks found).requests

omit [DecidableEq γ] in
theorem departures_nodup (actives : ∀ channel, (subscriber.active channel).Nodup) :
    (departures kind subscriber).Nodup := by
  unfold departures
  rw [List.nodup_flatMap]
  refine ⟨?_, kind.distinct.imp ?_⟩
  · intro channel _
    exact (actives channel).map fun _ _ same => congrArg Prod.snd same
  · intro left right different
    rintro ⟨channel, product⟩ first second
    obtain ⟨_, -, isLeft⟩ := List.mem_map.mp first
    obtain ⟨_, -, isRight⟩ := List.mem_map.mp second
    exact different ((congrArg Prod.fst isLeft).trans (congrArg Prod.fst isRight).symm)

theorem openTo_close (tracks : book.Tracks reference) (found : book.sockets ws = some subscriber)
    (apart : ∀ ws channel first second, (ws, channel, first) ∈ reference.subscribed →
      (ws, channel, second) ∈ reference.subscribed → wireSymbol first = wireSymbol second → first = second) :
    ((reference.step kind (.close ws)).openTo symbol).card +
        ((departures kind subscriber).map fun entry => wireSymbol entry.2).count symbol =
      (reference.openTo symbol).card := by
  have stays : (reference.step kind (.close ws)).openTo symbol =
      (reference.openTo symbol).filter fun entry => ¬ entry.1 = ws := by
    ext ⟨other, channel⟩
    unfold Subscriptions.openTo
    simp only [Subscriptions.step, Finset.mem_filter, Finset.mem_image, Prod.exists, Prod.mk.injEq]
    constructor
    · rintro ⟨_, _, product, ⟨⟨inside, different⟩, same⟩, rfl, rfl⟩
      exact ⟨⟨_, _, product, ⟨inside, same⟩, rfl, rfl⟩, different⟩
    · rintro ⟨⟨_, _, product, ⟨inside, same⟩, rfl, rfl⟩, different⟩
      exact ⟨_, _, product, ⟨⟨inside, different⟩, same⟩, rfl, rfl⟩
  let leaving := (departures kind subscriber).filter fun entry => decide (wireSymbol entry.2 = symbol)
  have goes : ((reference.openTo symbol).filter fun entry => entry.1 = ws) =
      (leaving.map fun entry => (ws, entry.1)).toFinset := by
    ext ⟨other, channel⟩
    unfold Subscriptions.openTo
    simp only [Finset.mem_filter, Finset.mem_image, Prod.exists, Prod.mk.injEq, List.mem_toFinset, List.mem_map,
      leaving, List.mem_filter, decide_eq_true_eq, mem_departures, tracks.active ws subscriber found]
    constructor
    · rintro ⟨⟨_, _, product, ⟨inside, same⟩, rfl, rfl⟩, rfl⟩
      exact ⟨_, product, ⟨inside, same⟩, rfl, rfl⟩
    · rintro ⟨_, product, ⟨inside, same⟩, rfl, rfl⟩
      exact ⟨⟨_, _, product, ⟨inside, same⟩, rfl, rfl⟩, rfl⟩
  have once : (leaving.map fun entry => (ws, entry.1)).Nodup := by
    refine List.Nodup.map_on ?_ ((departures_nodup (tracks.distinct ws subscriber found)).filter _)
    rintro ⟨channel, first⟩ inFirst ⟨channel', second⟩ inSecond same
    obtain ⟨inFirst, firstWire⟩ := List.mem_filter.mp inFirst
    obtain ⟨inSecond, secondWire⟩ := List.mem_filter.mp inSecond
    obtain rfl : channel = channel' := congrArg Prod.snd same
    rw [mem_departures, tracks.active ws subscriber found] at inFirst inSecond
    rw [apart ws channel first second inFirst inSecond
      ((of_decide_eq_true firstWire).trans (of_decide_eq_true secondWire).symm)]
  have counted : ((departures kind subscriber).map fun entry => wireSymbol entry.2).count symbol =
      leaving.length := by
    rw [List.count_eq_countP, List.countP_map, List.countP_eq_length_filter]
    rfl
  rw [← Finset.card_filter_add_card_filter_not (s := reference.openTo symbol) (fun entry => entry.1 = ws), goes,
    List.toFinset_card_of_nodup once, List.length_map, stays, counted, Nat.add_comm]

end SubscriptionBook

theorem Subscriptions.openTo_subscribe {γ σ : Type} [DecidableEq γ] [DecidableEq σ]
    (subscriptions : Subscriptions γ σ) (ws : σ) (channel : γ) (product : Product) (symbol : SymbolName) :
    ({ subscriptions with subscribed := insert (ws, channel, product) subscriptions.subscribed } :
        Subscriptions γ σ).openTo symbol =
      if wireSymbol product = symbol then insert (ws, channel) (subscriptions.openTo symbol)
      else subscriptions.openTo symbol := by
  unfold openTo
  dsimp only
  rw [Finset.filter_insert]
  split
  · rw [Finset.image_insert]
  · rfl

/-! ## Runs -/

namespace SubscriptionSystem

variable {venue : MdVenue} {σ : Type} [DecidableEq σ] {system : SubscriptionSystem venue σ}
  {event : PublisherEvent venue.Channel σ} {ws : σ} {channel : venue.Channel} {product : Product}

/-- What holds as long as every subscription is sound. -/
structure Steady (system : SubscriptionSystem venue σ) : Prop where
  tracks : system.publisher.book.Tracks system.publisher.reference
  drained : system.publisher.book.requests = []
  counted : system.Counted
  fits : ∀ symbol, system.openCount symbol < 65536
  /-- No socket has two products on a channel that one symbol stands for. -/
  apart : ∀ ws channel first second, (ws, channel, first) ∈ system.publisher.reference.subscribed →
    (ws, channel, second) ∈ system.publisher.reference.subscribed → wireSymbol first = wireSymbol second →
    first = second

theorem step_tracks (admitted : system.Admits event)
    (tracks : system.publisher.book.Tracks system.publisher.reference) :
    (system.step event).publisher.book.Tracks (system.step event).publisher.reference :=
  (Bookkeeping.step_tracks event admitted tracks).of_sockets fun _ => rfl

/-- An event that makes no request and changes no subscription. -/
structure Quiet (system : SubscriptionSystem venue σ) (event : PublisherEvent venue.Channel σ) : Prop where
  exchange : (system.step event).exchange = system.exchange
  subscribed : (system.step event).publisher.reference.subscribed = system.publisher.reference.subscribed

theorem quiet_of_requests (drained : system.publisher.book.requests = [])
    (requests : (system.publisher.book.step venue.publisher event).requests = system.publisher.book.requests)
    (subscribed : (system.publisher.reference.step venue.publisher event).subscribed =
      system.publisher.reference.subscribed) : system.Quiet event where
  exchange := by
    show ((system.publisher.book.step venue.publisher event).requests).foldl _ _ = _
    rw [requests, drained]
    rfl
  subscribed := subscribed

theorem step_cases (event : PublisherEvent venue.Channel σ) (drained : system.publisher.book.requests = []) :
    (∃ ws channel product, event = .subscribe ws channel product ∧ venue.publisher.accepts channel = true) ∨
      (∃ ws, event = .close ws) ∨ system.Quiet event := by
  have requests : ∀ {after : SubscriptionBook venue.Channel σ},
      after.containers = system.publisher.book.containers → after.requests = system.publisher.book.requests :=
    fun same => congrArg (fun containers => containers.2.2.2) same
  cases event with
  | connect ws => exact .inr (.inr (quiet_of_requests drained rfl rfl))
  | subscribe ws channel product =>
      by_cases accepted : venue.publisher.accepts channel = true
      · exact .inl ⟨ws, channel, product, rfl, accepted⟩
      · refine .inr (.inr (quiet_of_requests drained ?_ (congrArg Subscriptions.subscribed (if_neg accepted))))
        refine (congrArg SubscriptionBook.requests (if_neg accepted)).trans ?_
        exact requests (SubscriptionBook.onSocket_containers _)
  | other ws => exact .inr (.inr (quiet_of_requests drained (requests (SubscriptionBook.onSocket_containers _)) rfl))
  | unsupported ws =>
      exact .inr (.inr (quiet_of_requests drained (requests (SubscriptionBook.onSocket_containers _)) rfl))
  | close ws => exact .inr (.inl ⟨ws, rfl⟩)
  | publish symbol frame =>
      exact .inr (.inr (quiet_of_requests drained (requests (SubscriptionBook.publish_containers symbol frame)) rfl))
  | reject symbol channel =>
      exact .inr (.inr (quiet_of_requests drained (requests (SubscriptionBook.onEach_containers ..)) rfl))
  | respond symbol channel newer =>
      refine .inr (.inr (quiet_of_requests drained (requests ?_) rfl))
      show (system.publisher.book.respond venue.publisher symbol channel newer).containers = _
      unfold SubscriptionBook.respond
      split
      · exact SubscriptionBook.onEach_containers ..
      · rfl

theorem openCount_congr {after : SubscriptionSystem venue σ}
    (same : after.publisher.reference.subscribed = system.publisher.reference.subscribed) (symbol : SymbolName) :
    after.openCount symbol = system.openCount symbol := by
  unfold openCount Subscriptions.openTo
  rw [same]

theorem Quiet.steady (quiet : system.Quiet event) (admitted : system.Admits event) (steady : system.Steady) :
    (system.step event).Steady where
  tracks := step_tracks admitted steady.tracks
  drained := rfl
  counted := by
    intro symbol
    rw [quiet.exchange, openCount_congr quiet.subscribed]
    exact steady.counted symbol
  fits := by
    intro symbol
    rw [openCount_congr quiet.subscribed]
    exact steady.fits symbol
  apart := by
    rw [quiet.subscribed]
    exact steady.apart

section Subscribe

variable (accepted : venue.publisher.accepts channel = true)
include accepted

theorem subscribe_exchange (drained : system.publisher.book.requests = []) :
    (system.step (.subscribe ws channel product)).exchange =
      venue.handleMdSubscription system.exchange (wireSymbol product) channel := by
  have requests : (system.publisher.book.step venue.publisher (.subscribe ws channel product)).requests =
      [{ subscribes := true, symbol := wireSymbol product, channel, client := ws }] := by
    refine (congrArg SubscriptionBook.requests (if_pos accepted)).trans ?_
    refine (congrArg (fun containers => containers.2.2.2)
      (@SubscriptionBook.subscribeProduct_containers _ _ _ _ system.publisher.book ws channel product)).trans ?_
    dsimp only
    rw [drained]
    rfl
  show ((system.publisher.book.step venue.publisher (.subscribe ws channel product)).requests).foldl _ _ = _
  rw [requests]
  rfl

theorem subscribe_subscribed :
    (system.step (.subscribe ws channel product)).publisher.reference.subscribed =
      insert (ws, channel, product) system.publisher.reference.subscribed :=
  congrArg Subscriptions.subscribed (if_pos accepted)

theorem subscribe_openCount (symbol : SymbolName) :
    (system.step (.subscribe ws channel product)).openCount symbol =
      system.openCount symbol + if wireSymbol product = symbol ∧
        (ws, channel) ∉ system.publisher.reference.openTo symbol then 1 else 0 := by
  have same : (system.step (.subscribe ws channel product)).publisher.reference.openTo symbol = _ :=
    (congrArg (fun reference => Subscriptions.openTo reference symbol) (if_pos accepted)).trans
      (system.publisher.reference.openTo_subscribe ws channel product symbol)
  unfold openCount
  rw [same]
  by_cases named : wireSymbol product = symbol
  · rw [if_pos named]
    by_cases again : (ws, channel) ∈ system.publisher.reference.openTo symbol
    · rw [Finset.insert_eq_of_mem again, if_neg fun fresh => fresh.2 again]
      rfl
    · rw [Finset.card_insert_of_notMem again, if_pos ⟨named, again⟩]
  · rw [if_neg named, if_neg fun fresh => named fresh.1]
    rfl

theorem subscribe_count (drained : system.publisher.book.requests = []) (symbol : SymbolName) :
    ((system.step (.subscribe ws channel product)).exchange.numSubscriptions symbol).getD 0 =
      if symbol = wireSymbol product then
        if venue.countsFirst channel = true ∨
            (system.exchange.numSubscriptions (wireSymbol product)).isSome = true then
          fetchAdd ((system.exchange.numSubscriptions (wireSymbol product)).getD 0) else 0
      else (system.exchange.numSubscriptions symbol).getD 0 := by
  rw [subscribe_exchange accepted drained, MdVenue.handleMdSubscription_spec.1, Function.update_apply]
  split
  · rfl
  · rfl

/-- A count that is right after a subscription was sound. -/
theorem sound_of_counted (steady : system.Steady)
    (counted : (system.step (.subscribe ws channel product)).Counted) :
    system.Sound (.subscribe ws channel product) := by
  intro _
  have here := counted (wireSymbol product)
  rw [subscribe_count accepted steady.drained, if_pos rfl, subscribe_openCount accepted,
    steady.counted] at here
  by_cases again : (ws, channel) ∈ system.publisher.reference.openTo (wireSymbol product)
  · -- The pair is open, so the symbol is known and its count grows though nothing is added.
    have some_open : 0 < system.openCount (wireSymbol product) := Finset.card_pos.mpr ⟨_, again⟩
    have known : (system.exchange.numSubscriptions (wireSymbol product)).isSome = true := by
      have number := steady.counted (wireSymbol product)
      cases found : system.exchange.numSubscriptions (wireSymbol product) with
      | none =>
          rw [found] at number
          exact absurd number.symm (Nat.ne_of_gt some_open)
      | some count => rfl
    rw [if_pos (.inr known), if_neg fun fresh => fresh.2 again] at here
    unfold fetchAdd at here
    omega
  · rw [if_pos (show _ ∧ _ from ⟨rfl, again⟩)] at here
    refine ⟨again, ?_⟩
    split at here <;> rename_i counts
    · refine ⟨counts, ?_⟩
      unfold fetchAdd at here
      omega
    · omega

theorem subscribe_steady (admitted : system.Admits (.subscribe ws channel product)) (steady : system.Steady)
    (sound : system.Sound (.subscribe ws channel product)) :
    (system.step (.subscribe ws channel product)).Steady := by
  obtain ⟨fresh, counts, room⟩ := sound accepted
  refine ⟨step_tracks admitted steady.tracks, rfl, ?_, ?_, ?_⟩
  · intro symbol
    rw [subscribe_count accepted steady.drained, subscribe_openCount accepted]
    by_cases same : symbol = wireSymbol product
    · subst same
      rw [if_pos rfl, if_pos counts, steady.counted, if_pos ⟨rfl, fresh⟩]
      unfold fetchAdd
      omega
    · rw [if_neg same, steady.counted, if_neg fun named => same named.1.symm]
      rfl
  · intro symbol
    rw [subscribe_openCount accepted]
    split <;> rename_i named
    · obtain ⟨rfl, -⟩ := named
      exact room
    · exact steady.fits symbol
  · rw [subscribe_subscribed accepted]
    intro other channel' first second inFirst inSecond same
    have open_of : ∀ {named}, (ws, channel, named) ∈ system.publisher.reference.subscribed →
        wireSymbol named = wireSymbol product → False := by
      intro named inside isWire
      exact fresh (Finset.mem_image.mpr ⟨_, Finset.mem_filter.mpr ⟨inside, isWire⟩, rfl⟩)
    rcases Finset.mem_insert.mp inFirst with isFirst | inFirst
    · cases isFirst
      rcases Finset.mem_insert.mp inSecond with isSecond | inSecond
      · cases isSecond
        rfl
      · exact (open_of inSecond same.symm).elim
    · rcases Finset.mem_insert.mp inSecond with isSecond | inSecond
      · cases isSecond
        exact (open_of inFirst same).elim
      · exact steady.apart other channel' first second inFirst inSecond same

end Subscribe

/-- What closing a socket leaves of counts and feeds. -/
theorem close_spec (admitted : system.Admits (.close ws)) (steady : system.Steady) (symbol : SymbolName) :
    ((system.step (.close ws)).exchange.numSubscriptions symbol).getD 0 =
        (system.step (.close ws)).openCount symbol ∧
      (system.step (.close ws)).openCount symbol ≤ system.openCount symbol ∧
      (system.step (.close ws)).exchange.feeds symbol = (system.exchange.feeds symbol &&
        !decide (0 < system.openCount symbol ∧ (system.step (.close ws)).openCount symbol = 0)) := by
  obtain ⟨subscriber, found⟩ := Option.isSome_iff_exists.mp admitted
  let symbols := (SubscriptionBook.departures venue.publisher subscriber).map fun entry => wireSymbol entry.2
  have fewer : ∀ symbol, (system.step (.close ws)).openCount symbol + symbols.count symbol =
      system.openCount symbol := fun symbol => SubscriptionBook.openTo_close steady.tracks found steady.apart
  have exchange : (system.step (.close ws)).exchange =
      symbols.foldl MdExchange.handleMdUnsubscription system.exchange := by
    show ((system.publisher.book.handleClose venue.publisher ws).requests).foldl _ _ = _
    rw [SubscriptionBook.handleClose_requests steady.tracks found, steady.drained, List.nil_append, List.foldl_map,
      List.foldl_map]
    rfl
  have known : ∀ other ∈ symbols, ∃ count, system.exchange.numSubscriptions other = some count ∧
      symbols.count other ≤ count ∧ count < 65536 := by
    intro other inside
    have some_left := List.count_pos_iff.mpr inside
    have number := steady.counted other
    have total := fewer other
    cases isCount : system.exchange.numSubscriptions other with
    | none =>
        rw [isCount, Option.getD_none] at number
        omega
    | some count =>
        rw [isCount, Option.getD_some] at number
        exact ⟨count, rfl, by omega, number ▸ steady.fits other⟩
  obtain ⟨counts, -, feeds⟩ := MdExchange.unsubscribe_all known (steady.counted symbol)
  have total := fewer symbol
  refine ⟨?_, by omega, ?_⟩
  · rw [exchange, counts]
    omega
  · rw [exchange, feeds]
    congr 2
    exact decide_eq_decide.mpr (by omega)

theorem close_steady (admitted : system.Admits (.close ws)) (steady : system.Steady) :
    (system.step (.close ws)).Steady where
  tracks := step_tracks admitted steady.tracks
  drained := rfl
  counted := fun symbol => (close_spec admitted steady symbol).1
  fits := fun symbol => (close_spec admitted steady symbol).2.1.trans_lt (steady.fits symbol)
  apart := by
    intro other channel first second inFirst inSecond
    exact steady.apart other channel first second (Finset.mem_filter.mp inFirst).1 (Finset.mem_filter.mp inSecond).1

theorem step_steady (admitted : system.Admits event) (steady : system.Steady) (sound : system.Sound event) :
    (system.step event).Steady := by
  obtain ⟨ws, channel, product, rfl, accepted⟩ | ⟨ws, rfl⟩ | quiet := step_cases event steady.drained
  · exact subscribe_steady accepted admitted steady sound
  · exact close_steady admitted steady
  · exact quiet.steady admitted steady

theorem step_tearsDown (admitted : system.Admits event) (steady : system.Steady) :
    system.TearsDown (system.step event) := by
  intro symbol fed
  obtain ⟨ws, channel, product, rfl, accepted⟩ | ⟨ws, rfl⟩ | quiet := step_cases event steady.drained
  · have stays : (system.step (.subscribe ws channel product)).exchange.feeds symbol = true := by
      rw [subscribe_exchange accepted steady.drained]
      exact MdVenue.handleMdSubscription_spec.2 symbol fed
    rw [stays, subscribe_openCount accepted]
    exact iff_of_false (by decide) (by omega)
  · rw [(close_spec admitted steady symbol).2.2, fed]
    simp
  · rw [quiet.exchange, fed, openCount_congr quiet.subscribed]
    exact iff_of_false (by decide) (by omega)

theorem start_steady {exchange : MdExchange venue.Channel}
    (idle : ∀ symbol, (exchange.numSubscriptions symbol).getD 0 = 0) :
    (start exchange : SubscriptionSystem venue σ).Steady where
  tracks := Bookkeeping.start_tracks
  drained := rfl
  counted := idle
  fits := fun _ => Nat.zero_lt_succ _
  apart := fun _ _ _ _ inside => absurd inside (Finset.notMem_empty _)

theorem sound_of_step (steady : system.Steady) (counted : (system.step event).Counted) : system.Sound event := by
  cases event with
  | subscribe ws channel product =>
      intro accepted
      exact sound_of_counted accepted steady counted accepted
  | connect | other | unsupported | close | publish | reject | respond => trivial

section Run

variable {exchange : MdExchange venue.Channel} {events : List (PublisherEvent venue.Channel σ)}

theorem every_counted_iff (idle : ∀ symbol, (exchange.numSubscriptions symbol).getD 0 = 0)
    (admitted : Along step Admits (start exchange) events) :
    (∀ past, past <+: events → ((start exchange).run past).Counted) ↔
      Along step Sound (start exchange) events :=
  @Along.every_iff _ _ step Admits Sound Steady Counted _ _ (fun _ steady => steady.counted)
    (fun _ _ _ => sound_of_step) (fun _ _ => step_steady) admitted (start_steady idle)

theorem run_steady (idle : ∀ symbol, (exchange.numSubscriptions symbol).getD 0 = 0)
    (admitted : Along step Admits (start exchange) events) (sound : Along step Sound (start exchange) events) :
    ((start exchange).run events).Steady :=
  @Along.run _ _ step Admits Sound Steady _ _ (fun _ _ admitted met kept => step_steady admitted kept met) admitted
    sound (start_steady idle)

/-- In every state of a run the count of every symbol is the number of sockets and channels
subscribed to it, and feeds go exactly with the last of them, if and only if every
subscription of the run is sound. -/
theorem run_counted_iff (idle : ∀ symbol, (exchange.numSubscriptions symbol).getD 0 = 0)
    (admitted : Along step Admits (start exchange) events) :
    ((∀ past, past <+: events → ((start exchange).run past).Counted) ∧
      ∀ past event, past ++ [event] <+: events →
        ((start exchange).run past).TearsDown ((start exchange).run (past ++ [event]))) ↔
      Along step Sound (start exchange) events := by
  refine ⟨fun both => (every_counted_iff idle admitted).mp both.1, fun sound => ⟨?_, ?_⟩⟩
  · exact (every_counted_iff idle admitted).mpr sound
  · rintro past event ⟨later, rfl⟩
    rw [List.append_assoc, Along.append_iff] at sound admitted
    have steady := run_steady idle admitted.1 sound.1
    have next : (start exchange).run (past ++ [event]) = ((start exchange).run past).step event :=
      List.foldl_append ..
    rw [next]
    exact step_tearsDown admitted.2.1 steady

end Run

/-- An exchange that no symbol has been asked of. -/
def idleExchange (venue : MdVenue) : MdExchange venue.Channel where
  useLiveFeed := true
  numSubscriptions := fun _ => none
  feeds := fun _ => false
  pending := fun _ => []
  responses := []

/-- One socket on two channels of a product. -/
theorem run_counted_iff_twoChannels :
    let events : List (PublisherEvent CoinbaseChannel Nat) :=
      [.connect 0, .subscribe 0 .level2 [66], .subscribe 0 .ticker [66], .close 0]
    ((∀ past, past <+: events → ((start (idleExchange .coinbase)).run past).Counted) ∧
      ∀ past event, past ++ [event] <+: events →
        ((start (idleExchange .coinbase)).run past).TearsDown
          ((start (idleExchange .coinbase)).run (past ++ [event]))) ↔
      Along step Sound (start (idleExchange .coinbase)) events :=
  @run_counted_iff .coinbase _ _ _ _ (fun _ => rfl) (by decide)

/-- A ticker subscription that comes first is not counted, so closing its socket wraps the count.
A repeated subscription is counted twice and taken back once. -/
theorem not_counted_tickerFirst :
    (¬ ∀ events : List (PublisherEvent CoinbaseChannel Nat), Along step Admits (start (idleExchange .coinbase)) events →
      ((start (idleExchange .coinbase)).run events).Counted) ∧
    ¬ ∀ events : List (PublisherEvent HyperliquidChannel Nat),
      Along step Admits (start (idleExchange .hyperliquid)) events →
        ((start (idleExchange .hyperliquid)).run events).Counted := by
  constructor
  · intro every
    have wrapped := every [.connect 0, .subscribe 0 .ticker [66], .close 0] (by decide) (wireSymbol [66])
    exact absurd wrapped (by decide)
  · intro every
    have left := every [.connect 0, .subscribe 0 .l2Book [66], .subscribe 0 .l2Book [66], .close 0] (by decide)
      (wireSymbol [66])
    exact absurd left (by decide)

end SubscriptionSystem

end SlickSim.MdPublisher
