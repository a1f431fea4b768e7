import SlickSim.Venues.Coinbase
import SlickSim.Venues.Hyperliquid

/-!
# Runs

Everything that can reach one symbol of an exchange, one input at a time: client
requests, the feeds of both venues, mirrored order-by-order events, subscribers,
and draws other symbols make from the counters they share.
-/

set_option autoImplicit false

namespace SlickSim

inductive Input where
  | newOrder (header : RequestHeader) (msg : AddOrderMessage)
  | amend (header : RequestHeader) (msg : ModifyOrderMessage)
  | cancel (header : RequestHeader) (msg : CancelOrderMessage)
  | level2Snapshot (seqNum : Nat) (updates : List Level2Update)
  | coinbaseEvent (event : CoinbaseEvent)
  | l2Snapshot (snapshot : L2Snapshot)
  | l2Diff (diff : L2Diff)
  | trades (trades : List HyperliquidTrade)
  | marketOrder (event : MarketOrderEvent)
  | marketTrade (event : MarketTradeEvent)
  | flushMarketEvents
  /-- A first market-data subscriber waits for its snapshot. -/
  | subscribe (level2 l2Book l2 : Bool)
  /-- A subscriber of a channel that waits for no snapshot is answered with the book at once. -/
  | subscribeServed
  | elsewhere (draws : Globals)
deriving DecidableEq

/-- So many more draws from every counter. -/
def Globals.draw (globals draws : Globals) : Globals :=
  { nextPriority := globals.nextPriority + draws.nextPriority
    nextOrderId := globals.nextOrderId + draws.nextOrderId
    nextTradeId := globals.nextTradeId + draws.nextTradeId
    uuidDraws := globals.uuidDraws + draws.uuidDraws
    clockReads := globals.clockReads + draws.clockReads }

namespace Exchange

variable {β : Type} [OrderBookL3 β]

/-- An exchange before its first input, over a pool of arbitrary objects. -/
def new (pool : Nat → Order) (publishOrderUpdates : Bool) : Exchange β :=
  { matching := { book := OrderBook.new pool, responses := [] }
    clientIds := ∅, nextClientId := 0, mdQueue := [], publishOrderUpdates, nextVenueTradeId := 1
    tradeHistory := [], tradedQtyCredit := fun _ => ∅, venueLog := [], marketChanged := false
    coinbase := { nextBookSeqNum := 0, levelUpdateBuffer := [], lastPublishedLevelSeqNum := 0
                  pendingLevel2 := false }
    hyperliquid := { l2RefLevels := fun _ => [], pendingL2Book := false, pendingL2 := false } }

def step (exchange : Exchange β) (env : Environment) (config : SymbolConfig) : Input → Exchange β
  | .newOrder header msg => exchange.handleNewOrderRequest env config header msg
  | .amend header msg => exchange.handleModifyOrderRequest env config header msg
  | .cancel header msg => exchange.handleCancelOrderRequest env config header msg
  | .level2Snapshot seqNum updates => exchange.onLevel2Snapshot env config seqNum updates
  | .coinbaseEvent event => exchange.dispatchEvent env config event
  | .l2Snapshot snapshot => exchange.processL2Snapshot env config snapshot
  | .l2Diff diff => exchange.processL2Diff env config diff
  | .trades trades => exchange.processTradesEvent env config trades
  | .marketOrder event => exchange.applyMarketOrder env config event
  | .marketTrade event => exchange.replayMarketTrade env config event
  | .flushMarketEvents => exchange.flushMarketEvents
  | .subscribe level2 l2Book l2 =>
      { exchange with
        coinbase := { exchange.coinbase with pendingLevel2 := exchange.coinbase.pendingLevel2 || level2 }
        hyperliquid := { exchange.hyperliquid with
          pendingL2Book := exchange.hyperliquid.pendingL2Book || l2Book
          pendingL2 := exchange.hyperliquid.pendingL2 || l2 } }
  | .subscribeServed => exchange.populateL2SubscriptionResponse
  | .elsewhere draws => exchange.onBook fun book => { book with globals := book.globals.draw draws }

def run (exchange : Exchange β) (env : Environment) (config : SymbolConfig) (inputs : List Input) :
    Exchange β :=
  inputs.foldl (fun exchange input => exchange.step env config input) exchange

/-- The order number of a report names a client's order, and no reports name other orders. -/
def Reported (exchange : Exchange β) (id : Nat) : Prop :=
  id ≠ 0 ∧ ∃ response ∈ exchange.matching.responses, response.orderNum = id

instance (exchange : Exchange β) (id : Nat) : Decidable (exchange.Reported id) :=
  inferInstanceAs (Decidable (_ ∧ _))

/-- What the surroundings promise: a uuid that is drawn names no order in the book, and
a mirrored order has an id drawn for it, so it is none of a client's. -/
def Admits (exchange : Exchange β) (env : Environment) : Input → Prop
  | .newOrder _ _ => exchange.book.findOrderByOrderId (env.uuid exchange.book.globals.uuidDraws) = none
  | .marketOrder event =>
      event.bookOrderId < exchange.book.globals.nextOrderId ∧ ¬ exchange.Reported event.bookOrderId
  | _ => True

instance (exchange : Exchange β) (env : Environment) (input : Input) :
    Decidable (exchange.Admits env input) :=
  match input with
  | .newOrder .. => inferInstanceAs (Decidable (_ = _))
  | .marketOrder .. => inferInstanceAs (Decidable (_ ∧ ¬ _))
  | .amend .. | .cancel .. | .level2Snapshot .. | .coinbaseEvent .. | .l2Snapshot .. | .l2Diff ..
  | .trades .. | .marketTrade .. | .flushMarketEvents | .subscribe .. | .subscribeServed | .elsewhere .. => isTrue trivial

/-- The states of a symbol: from a new exchange by inputs the surroundings can bring and
the run allows. -/
inductive Reachable (env : Environment) (config : SymbolConfig)
    (allowed : Exchange β → Input → Prop) : Exchange β → Prop
  | new (pool : Nat → Order) (publishOrderUpdates : Bool) :
      Reachable env config allowed (Exchange.new pool publishOrderUpdates)
  | step {exchange : Exchange β} (earlier : Reachable env config allowed exchange) (input : Input)
      (admitted : exchange.Admits env input) (permitted : allowed exchange input) :
      Reachable env config allowed (exchange.step env config input)

def Takes (env : Environment) (config : SymbolConfig) (allowed : Exchange β → Input → Prop)
    (exchange : Exchange β) : List Input → Prop
  | [] => True
  | input :: rest =>
      exchange.Admits env input ∧ allowed exchange input ∧
        (exchange.step env config input).Takes env config allowed rest

instance decidableTakes {env : Environment} {config : SymbolConfig} {allowed : Exchange β → Input → Prop}
    [∀ exchange input, Decidable (allowed exchange input)] :
    ∀ (inputs : List Input) (exchange : Exchange β), Decidable (exchange.Takes env config allowed inputs)
  | [], _ => isTrue trivial
  | input :: rest, exchange =>
      have : Decidable ((exchange.step env config input).Takes env config allowed rest) :=
        decidableTakes rest _
      inferInstanceAs (Decidable (_ ∧ _ ∧ _))

theorem Reachable.run {env : Environment} {config : SymbolConfig} {allowed : Exchange β → Input → Prop}
    {exchange : Exchange β} (reachable : Reachable env config allowed exchange) {inputs : List Input}
    (takes : exchange.Takes env config allowed inputs) :
    Reachable env config allowed (exchange.run env config inputs) := by
  induction inputs generalizing exchange with
  | nil => exact reachable
  | cons input rest ih =>
      obtain ⟨admitted, permitted, takes⟩ := takes
      exact ih (reachable.step input admitted permitted) takes

end Exchange

/-! ## A reference environment -/

namespace Environment

/-- Names that differ in their last byte. -/
def countedName (draw : Nat) : Name where
  bytes := List.replicate 35 48 ++ [UInt8.ofNat (draw % 255 + 1)]
  fits := by simp
  terminated := by
    intro member
    rcases List.mem_append.mp member with zeros | last
    · exact absurd (List.eq_of_mem_replicate zeros) (by decide)
    · have same := congrArg UInt8.toNat (List.mem_singleton.mp last)
      rw [UInt8.toNat_ofNat'] at same
      have : (0 : UInt8).toNat = 0 := rfl
      omega

/-- An environment in which the model can be run: counted names, a clock that ticks at
every read, and the response slots it is given. -/
def counted (slot : Nat → OrderResponse) : Environment where
  uuid := countedName
  clock := fun read => read + 1
  slot := slot
  pool := fun live => live.foldr max 0 + 1
  uuid_length := fun _ => by simp [countedName]
  pool_fresh := by
    intro live member
    have bound : ∀ (refs : List Nat) (ref : Nat), ref ∈ refs → ref ≤ refs.foldr max 0 := by
      intro refs
      induction refs with
      | nil => rintro _ ⟨⟩
      | cons head rest ih =>
          intro ref inside
          rcases List.mem_cons.mp inside with rfl | later
          · exact Nat.le_max_left ..
          · exact (ih ref later).trans (Nat.le_max_right ..)
    exact Nat.not_succ_le_self _ (bound live _ member)

end Environment

/-- A symbol matched first in, first out, under the name the inputs below carry. -/
def SymbolConfig.reference (smpMode : SelfMatchPreventionMode) : SymbolConfig :=
  { symbol := default, matchingEngine := .fifo, smpMode }

/-- A buy order under the third counted client order id. -/
def buyMessage (timeInForce : TimeInForce) (price qty : Int) : AddOrderMessage :=
  { userId := default, clientOrderId := Environment.countedName 3, side := .buy, type := .limit
    timeInForce, price, qty }

namespace Input

def header : RequestHeader := { timeStamp := 0, symbol := default, requestTag := 0 }

def limit (draw : Nat) (side : Side) (price qty : Int) : Input :=
  .newOrder header
    { userId := default, clientOrderId := Environment.countedName draw, side, type := .limit
      timeInForce := .goodTillCancel, price, qty }

def reprice (draw : Nat) (newPrice newQty : Int) : Input :=
  .amend header
    { userId := default, orderId := default, clientOrderId := Environment.countedName draw, newPrice
      newQty }

def withdraw (draw : Nat) : Input :=
  .cancel header
    { userId := default, orderId := default, clientOrderId := Environment.countedName draw }

end Input

end SlickSim
