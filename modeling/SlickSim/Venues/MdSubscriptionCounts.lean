import SlickSim.Venues.MdSubscriptions

/-!
# Subscription counts of the exchanges

`handleMdSubscription` and `handleMdUnsubscription` of `CoinbaseExchange` and
`HyperliquidExchange`: the exchange counts the requests of the publishers per symbol
and lets go of a symbol's live feed when the count goes back to nothing. The count
is a 16-bit one.
-/

set_option autoImplicit false

namespace SlickSim.MdPublisher

/-- `std::atomic_uint16_t::fetch_add` by one. -/
def fetchAdd (count : Nat) : Nat := (count + 1) % 65536

/-- `std::atomic_uint16_t::fetch_sub` by one. -/
def fetchSub (count : Nat) : Nat := (count + 65535) % 65536

structure MdExchange (γ : Type) where
  useLiveFeed : Bool
  numSubscriptions : SymbolName → Option Nat
  /-- The symbols with an entry in `map_symbol_feed_` or `map_coin_feed_`. -/
  feeds : SymbolName → Bool
  pending : γ → List SymbolName
  responses : List (SymbolName × γ)

namespace MdExchange

variable {γ : Type} [DecidableEq γ]

def setCount (exchange : MdExchange γ) (symbol : SymbolName) (count : Nat) : MdExchange γ :=
  { exchange with numSubscriptions := Function.update exchange.numSubscriptions symbol (some count) }

def startFeed (exchange : MdExchange γ) (symbol : SymbolName) : MdExchange γ :=
  { exchange with feeds := Function.update exchange.feeds symbol true }

def pend (exchange : MdExchange γ) (symbol : SymbolName) (channel : γ) : MdExchange γ :=
  { exchange with
    pending := Function.update exchange.pending channel ((exchange.pending channel).insert symbol) }

def respond (exchange : MdExchange γ) (symbol : SymbolName) (channel : γ) : MdExchange γ :=
  { exchange with responses := exchange.responses ++ [(symbol, channel)] }

def handleMdUnsubscription (exchange : MdExchange γ) (symbol : SymbolName) : MdExchange γ :=
  match exchange.numSubscriptions symbol with
  | none => exchange
  | some count =>
      let exchange := exchange.setCount symbol (fetchSub count)
      if count = 1 then { exchange with feeds := Function.update exchange.feeds symbol false } else exchange

end MdExchange

/-- `CoinbaseExchange::handleMdSubscription`. A first subscription on a channel the exchange
does not know makes the symbol and is not counted. -/
def coinbaseMdSubscription (exchange : MdExchange CoinbaseChannel) (symbol : SymbolName)
    (channel : CoinbaseChannel) : MdExchange CoinbaseChannel :=
  match exchange.numSubscriptions symbol with
  | none =>
      let added := exchange.setCount symbol 0
      if exchange.useLiveFeed then
        match channel with
        | .level2 | .marketTrades => ((added.pend symbol channel).startFeed symbol).setCount symbol (fetchAdd 0)
        | .heartbeats => (added.startFeed symbol).setCount symbol (fetchAdd 0)
        | .ticker | .user => added
      else
        match channel with
        | .level2 | .marketTrades => (added.respond symbol channel).setCount symbol (fetchAdd 0)
        | .heartbeats => added.setCount symbol (fetchAdd 0)
        | .ticker | .user => added
  | some count =>
      let counted := exchange.setCount symbol (fetchAdd count)
      match channel with
      | .level2 | .marketTrades =>
          if symbol ∈ exchange.pending channel then counted else counted.respond symbol channel
      | .ticker | .user | .heartbeats => counted

def hyperliquidMdSubscription (exchange : MdExchange HyperliquidChannel) (symbol : SymbolName)
    (channel : HyperliquidChannel) : MdExchange HyperliquidChannel :=
  let isNew := (exchange.numSubscriptions symbol).isNone
  let exchange := exchange.setCount symbol (fetchAdd ((exchange.numSubscriptions symbol).getD 0))
  if exchange.useLiveFeed then
    if isNew then
      let exchange := exchange.startFeed symbol
      if channel = .trades then exchange.respond symbol channel else exchange.pend symbol channel
    else if symbol ∈ exchange.pending channel then exchange else exchange.respond symbol channel
  else exchange.respond symbol channel

namespace MdVenue

def handleMdSubscription : ∀ venue : MdVenue,
    MdExchange venue.Channel → SymbolName → venue.Channel → MdExchange venue.Channel
  | coinbase => coinbaseMdSubscription
  | hyperliquid => hyperliquidMdSubscription

def countsFirst : ∀ venue : MdVenue, venue.Channel → Bool
  | coinbase => fun channel => decide (channel ≠ CoinbaseChannel.ticker ∧ channel ≠ CoinbaseChannel.user)
  | hyperliquid => fun _ => true

def processRequest {σ : Type} (venue : MdVenue) (exchange : MdExchange venue.Channel)
    (request : MdRequest venue.Channel σ) : MdExchange venue.Channel :=
  if request.subscribes then venue.handleMdSubscription exchange request.symbol request.channel
  else exchange.handleMdUnsubscription request.symbol

end MdVenue

end SlickSim.MdPublisher
