import Mathlib.Data.Finset.Image
import Mathlib.Data.List.TakeWhile
import SlickSim.Venues.HyperliquidPublisher

/-!
# Subscriptions of the market-data publishers

`CoinbasePublisher` and `HyperliquidPublisher` keep who subscribed to what three
times over: a set of sockets per channel and product, a multimap from channels to
sockets per product, and on each socket the products it is active on. The two
differ in their channels, in the container a frame is fanned out over, and in
whether a socket numbers what it is sent.

Products are the strings of the messages. Requests carry what of them fits the
symbol field. What is written of a frame is left out here.
-/

set_option autoImplicit false

namespace SlickSim.MdPublisher

/-- A product or coin as a message names it. -/
abbrev Product := List UInt8

/-- What `copy_wire_field` leaves of a product in the symbol field of a request. -/
def wireSymbol (product : Product) : SymbolName where
  bytes := (product.take 31).takeWhile (· ≠ 0)
  fits := by
    have shorter := (List.takeWhile_sublist (fun byte : UInt8 => decide (byte ≠ 0)) (l := product.take 31)).length_le
    rw [List.length_take] at shorter
    omega
  terminated := fun inside => by simpa using List.mem_takeWhile_imp inside

inductive CoinbaseChannel where
  | level2
  | marketTrades
  | ticker
  | user
  | heartbeats
deriving DecidableEq, Repr

structure MdRequest (γ σ : Type) where
  subscribes : Bool
  symbol : SymbolName
  channel : γ
  client : σ
deriving DecidableEq

inductive PublisherMessage (γ : Type) where
  | error
  /-- An answer to a message that does not subscribe to a product. -/
  | reply
  | frame (channel : γ) (symbol : SymbolName) (frame : MDFrame)
  | snapshot (channel : γ) (symbol : SymbolName)
  | newerTrades (channel : γ) (symbol : SymbolName)
  | subscriptions
deriving DecidableEq

structure PublisherKind (γ : Type) where
  channels : List γ
  complete : ∀ channel, channel ∈ channels
  distinct : channels.Nodup
  accepts : γ → Bool
  fanOut : MDFrame → List γ
  /-- Frames are fanned out over `symbol_channel_client_`, not `subscription_info_`. -/
  indexed : Bool
  /-- Every message to a socket takes one of its sequence numbers. -/
  sequenced : Bool

/-- `CoinbasePublisher`. An order frame is for the channel `user`, which nobody can
subscribe to here. -/
def coinbasePublisher : PublisherKind CoinbaseChannel where
  channels := [.level2, .marketTrades, .ticker, .user, .heartbeats]
  complete := by intro channel; cases channel <;> decide
  distinct := by decide
  accepts := fun channel => decide (channel = .level2 ∨ channel = .marketTrades ∨ channel = .ticker)
  fanOut
    | .level _ | .bookSnapshot _ _ => [.level2]
    | .tradeSummary _ _ => [.marketTrades]
    | .order _ | .subResponse _ _ => []
  indexed := true
  sequenced := true

def hyperliquidPublisher : PublisherKind HyperliquidChannel where
  channels := HyperliquidChannel.all
  complete := by intro channel; cases channel <;> decide
  distinct := by decide
  accepts := fun _ => true
  fanOut
    | .bookSnapshot _ _ => [.l2Book, .l2]
    | .tradeSummary _ _ => [.trades]
    | .level _ | .order _ | .subResponse _ _ => []
  indexed := false
  sequenced := false

/-- The per-socket data. -/
structure Subscriber (γ : Type) where
  seqNum : Nat
  active : γ → List Product
  pending : γ → List Product
  received : γ → List Product
  /-- What has been sent on the socket, with the sequence numbers taken. -/
  sent : List (Option Nat × PublisherMessage γ)

namespace Subscriber

variable {γ : Type} [DecidableEq γ]

def fresh : Subscriber γ where
  seqNum := 0
  active := fun _ => []
  pending := fun _ => []
  received := fun _ => []
  sent := []

def send (subscriber : Subscriber γ) (message : PublisherMessage γ) : Subscriber γ :=
  { subscriber with sent := subscriber.sent ++ [(none, message)] }

def sendNumbered (kind : PublisherKind γ) (subscriber : Subscriber γ) (message : PublisherMessage γ) :
    Subscriber γ :=
  if kind.sequenced then
    { subscriber with
      seqNum := subscriber.seqNum + 1
      sent := subscriber.sent ++ [(some subscriber.seqNum, message)] }
  else subscriber.send message

def subscribe (subscriber : Subscriber γ) (channel : γ) (product : Product) : Subscriber γ :=
  { subscriber with
    active := Function.update subscriber.active channel ((subscriber.active channel).insert product)
    pending := Function.update subscriber.pending channel ((subscriber.pending channel).insert product) }

def clear (subscriber : Subscriber γ) (channel : γ) : Subscriber γ :=
  { subscriber with
    active := Function.update subscriber.active channel []
    pending := Function.update subscriber.pending channel []
    received := Function.update subscriber.received channel [] }

def respond (kind : PublisherKind γ) (channel : γ) (symbol : SymbolName) (newer : Bool)
    (subscriber : Subscriber γ) : Subscriber γ :=
  if symbol.bytes ∈ subscriber.pending channel then
    let pending := (subscriber.pending channel).erase symbol.bytes
    let subscriber := { subscriber with
      pending := Function.update subscriber.pending channel pending
      received := Function.update subscriber.received channel
        (subscriber.received channel ++ [symbol.bytes]) }
    let subscriber := subscriber.sendNumbered kind (.snapshot channel symbol)
    let subscriber := if newer then subscriber.sendNumbered kind (.newerTrades channel symbol) else subscriber
    if pending.isEmpty then subscriber.sendNumbered kind .subscriptions else subscriber
  else subscriber

end Subscriber

/-- The containers of a publisher. -/
structure SubscriptionBook (γ σ : Type) where
  clients : List σ
  subscriptionInfo : γ → Product → List σ
  symbolChannelClient : Product → List (γ × σ)
  sockets : σ → Option (Subscriber γ)
  requests : List (MdRequest γ σ)
  /-- Whether a closed socket has been used. -/
  touchedClosed : Bool

inductive PublisherEvent (γ σ : Type) where
  | connect (ws : σ)
  /-- One product of a subscribe message. -/
  | subscribe (ws : σ) (channel : γ) (product : Product)
  | other (ws : σ)
  /-- A message that is no JSON or asks for what the venue does not support. -/
  | unsupported (ws : σ)
  | close (ws : σ)
  | publish (symbol : SymbolName) (frame : MDFrame)
  | reject (symbol : SymbolName) (channel : γ)
  /-- The snapshot of a symbol, with trades newer than it or without. -/
  | respond (symbol : SymbolName) (channel : γ) (newer : Bool)

namespace SubscriptionBook

variable {γ σ : Type} [DecidableEq γ] [DecidableEq σ]

def start : SubscriptionBook γ σ where
  clients := []
  subscriptionInfo := fun _ _ => []
  symbolChannelClient := fun _ => []
  sockets := fun _ => none
  requests := []
  touchedClosed := false

def onSocket (book : SubscriptionBook γ σ) (ws : σ) (change : Subscriber γ → Subscriber γ) :
    SubscriptionBook γ σ :=
  match book.sockets ws with
  | none => { book with touchedClosed := true }
  | some subscriber => { book with sockets := Function.update book.sockets ws (some (change subscriber)) }

def onEach (book : SubscriptionBook γ σ) (targets : List σ) (change : Subscriber γ → Subscriber γ) :
    SubscriptionBook γ σ :=
  targets.foldl (fun book ws => book.onSocket ws change) book

def connect (book : SubscriptionBook γ σ) (ws : σ) : SubscriptionBook γ σ :=
  { book with
    clients := book.clients.insert ws
    sockets := Function.update book.sockets ws (some .fresh) }

def subscribeProduct (book : SubscriptionBook γ σ) (ws : σ) (channel : γ) (product : Product) :
    SubscriptionBook γ σ :=
  let info := book.subscriptionInfo channel
  let book : SubscriptionBook γ σ := { book with
    requests := book.requests ++ [{ subscribes := true, symbol := wireSymbol product, channel, client := ws }]
    subscriptionInfo := Function.update book.subscriptionInfo channel
      (Function.update info product ((info product).insert ws))
    symbolChannelClient := Function.update book.symbolChannelClient product
      (book.symbolChannelClient product ++ [(channel, ws)]) }
  book.onSocket ws (·.subscribe channel product)

/-- The message of a socket that names one product on a channel. A socket has been a client
since it connected, so the message does not make it one. -/
def subscribe (kind : PublisherKind γ) (book : SubscriptionBook γ σ) (ws : σ) (channel : γ)
    (product : Product) : SubscriptionBook γ σ :=
  if kind.accepts channel then book.subscribeProduct ws channel product
  else book.onSocket ws (·.send .error)

/-- The body of the inner loop of `unsubscribe_md`. One entry of the multimap goes. -/
def unsubscribeProduct (ws : σ) (channel : γ) (book : SubscriptionBook γ σ) (product : Product) :
    SubscriptionBook γ σ :=
  let info := book.subscriptionInfo channel
  { book with
    requests := book.requests ++ [{ subscribes := false, symbol := wireSymbol product, channel, client := ws }]
    symbolChannelClient := Function.update book.symbolChannelClient product
      ((book.symbolChannelClient product).erase (channel, ws))
    subscriptionInfo := Function.update book.subscriptionInfo channel
      (Function.update info product ((info product).erase ws)) }

def unsubscribeChannel (ws : σ) (subscriber : Subscriber γ) (book : SubscriptionBook γ σ) (channel : γ) :
    SubscriptionBook γ σ :=
  ((subscriber.active channel).foldl (unsubscribeProduct ws channel) book).onSocket ws (·.clear channel)

def unsubscribeMd (kind : PublisherKind γ) (book : SubscriptionBook γ σ) (ws : σ) : SubscriptionBook γ σ :=
  match book.sockets ws with
  | none => { book with touchedClosed := true }
  | some subscriber => kind.channels.foldl (unsubscribeChannel ws subscriber) book

/-- `handle_close`, and the socket is gone. -/
def handleClose (kind : PublisherKind γ) (book : SubscriptionBook γ σ) (ws : σ) : SubscriptionBook γ σ :=
  let book := book.unsubscribeMd kind ws
  { book with
    clients := book.clients.erase ws
    sockets := Function.update book.sockets ws none }

/-- The sockets a channel of a symbol is fanned out to. -/
def targets (kind : PublisherKind γ) (book : SubscriptionBook γ σ) (channel : γ) (symbol : SymbolName) :
    List σ :=
  if kind.indexed then
    ((book.symbolChannelClient symbol.bytes).filter fun entry => decide (entry.1 = channel)).map Prod.snd
  else book.subscriptionInfo channel symbol.bytes

def publish (kind : PublisherKind γ) (book : SubscriptionBook γ σ) (symbol : SymbolName) (frame : MDFrame) :
    SubscriptionBook γ σ :=
  (kind.fanOut frame).foldl (fun book channel =>
    book.onEach (book.targets kind channel symbol) (·.sendNumbered kind (.frame channel symbol frame))) book

def reject (book : SubscriptionBook γ σ) (symbol : SymbolName) (channel : γ) : SubscriptionBook γ σ :=
  book.onEach (book.subscriptionInfo channel symbol.bytes) (·.send .error)

def respond (kind : PublisherKind γ) (book : SubscriptionBook γ σ) (symbol : SymbolName) (channel : γ)
    (newer : Bool) : SubscriptionBook γ σ :=
  if kind.accepts channel then
    book.onEach (book.subscriptionInfo channel symbol.bytes) (Subscriber.respond kind channel symbol newer)
  else book

def step (kind : PublisherKind γ) (book : SubscriptionBook γ σ) : PublisherEvent γ σ → SubscriptionBook γ σ
  | .connect ws => book.connect ws
  | .subscribe ws channel product => book.subscribe kind ws channel product
  | .other ws => book.onSocket ws (·.sendNumbered kind .reply)
  | .unsupported ws => book.onSocket ws (·.send .error)
  | .close ws => book.handleClose kind ws
  | .publish symbol frame => book.publish kind symbol frame
  | .reject symbol channel => book.reject symbol channel
  | .respond symbol channel newer => book.respond kind symbol channel newer

/-- What the event loop promises: a socket that connects is not open, and events come from
open sockets. -/
def Admits (book : SubscriptionBook γ σ) : PublisherEvent γ σ → Prop
  | .connect ws => book.sockets ws = none
  | .subscribe ws _ _ | .other ws | .unsupported ws | .close ws => (book.sockets ws).isSome = true
  | .publish .. | .reject .. | .respond .. => True

instance (book : SubscriptionBook γ σ) (event : PublisherEvent γ σ) : Decidable (book.Admits event) :=
  match event with
  | .connect ws => decidable_of_iff ((book.sockets ws).isNone = true) Option.isNone_iff_eq_none
  | .subscribe .. | .other _ | .unsupported _ | .close _ => inferInstanceAs (Decidable (_ = true))
  | .publish .. | .reject .. | .respond .. => isTrue trivial

end SubscriptionBook

/-! ## The reference -/

structure Subscriptions (γ σ : Type) where
  opened : Finset σ
  subscribed : Finset (σ × γ × Product)

namespace Subscriptions

variable {γ σ : Type} [DecidableEq γ] [DecidableEq σ]

def start : Subscriptions γ σ := ⟨∅, ∅⟩

def step (kind : PublisherKind γ) (subscriptions : Subscriptions γ σ) :
    PublisherEvent γ σ → Subscriptions γ σ
  | .connect ws => { subscriptions with opened := insert ws subscriptions.opened }
  | .subscribe ws channel product =>
      if kind.accepts channel then
        { subscriptions with subscribed := insert (ws, channel, product) subscriptions.subscribed }
      else subscriptions
  | .close ws =>
      { opened := subscriptions.opened.erase ws
        subscribed := subscriptions.subscribed.filter fun entry => entry.1 ≠ ws }
  | .other _ | .unsupported _ | .publish .. | .reject .. | .respond .. => subscriptions

end Subscriptions

inductive MdVenue where
  | coinbase
  | hyperliquid
deriving DecidableEq, Repr

namespace MdVenue

abbrev Channel : MdVenue → Type
  | coinbase => CoinbaseChannel
  | hyperliquid => HyperliquidChannel

instance : ∀ venue : MdVenue, DecidableEq venue.Channel
  | coinbase => inferInstanceAs (DecidableEq CoinbaseChannel)
  | hyperliquid => inferInstanceAs (DecidableEq HyperliquidChannel)

def publisher : ∀ venue : MdVenue, PublisherKind venue.Channel
  | coinbase => coinbasePublisher
  | hyperliquid => hyperliquidPublisher

end MdVenue

end SlickSim.MdPublisher
