import Mathlib.Logic.Function.Basic
import SlickSim.Common.Messages

/-!
# Hyperliquid's market-data publisher

The publisher turns the frames of the market-data queue into messages on the sockets
that subscribed. On the channel `l2` a subscriber is sent the book once, and after
that what changed. What changed is computed once per frame, against one baseline per
coin. Messages are the values their JSON carries: numbers are written exactly, and
the compression of a difference loses nothing.
-/

set_option autoImplicit false

namespace SlickSim.MdPublisher

inductive HyperliquidChannel where
  | l2Book
  | trades
  | l2
deriving DecidableEq, Repr

def HyperliquidChannel.all : List HyperliquidChannel := [.l2Book, .trades, .l2]

inductive MDSubscriptionRejectReason where
  | unknownContract
  | marketClosed
deriving DecidableEq, Repr

structure BookSnapshot where
  numBid : Nat
  numAsk : Nat
  levels : List SnapshotLevel
  complete : levels.length = numBid + numAsk
  bidsOrdered : (levels.take numBid).Pairwise fun left right => right.price < left.price
  asksOrdered : (levels.drop numBid).Pairwise fun left right => left.price < right.price

inductive MDSubscriptionResponse where
  | rejected (channel : HyperliquidChannel) (reason : MDSubscriptionRejectReason)
  | l2Book (snapshot : BookSnapshot)
  | l2 (snapshot : BookSnapshot)
  | trades (snapshot update : List MDTrade)

def MDSubscriptionResponse.channel : MDSubscriptionResponse → HyperliquidChannel
  | rejected channel _ => channel
  | l2Book _ => .l2Book
  | l2 _ => .l2
  | trades _ _ => .trades

abbrev L2Levels := List (Int × Int)

/-- `L2Diff`: per side, the levels that are new or changed and the positions of those
that are gone. -/
structure L2Diff where
  changed : L2Levels × L2Levels
  removed : List Nat × List Nat
deriving DecidableEq, Repr

inductive WireMessage where
  | error (coin : SymbolName) (reason : MDSubscriptionRejectReason)
  | l2Book (coin : SymbolName) (time : Nat) (bids asks : List SnapshotLevel)
  | l2Snapshot (coin : SymbolName) (time : Nat) (bids asks : List SnapshotLevel)
  | l2Diff (coin : SymbolName) (diff : L2Diff) (time : Nat)
  | trades (coin : SymbolName) (rows : List MDTrade)
  | subscriptions (coins : List SymbolName)
deriving DecidableEq

/-! ## Differences -/

/-- `diff_side`. The old level of a price is the first one listed. -/
def diffSide (prev curr : L2Levels) (descendingIndex : Bool) : L2Levels × List Nat :=
  let changed := curr.filter fun level => decide (prev.lookup level.1 ≠ some level.2)
  let removed := (prev.zipIdx.filter fun level => decide (level.1.1 ∉ curr.map Prod.fst)).map Prod.snd
  (changed, if descendingIndex then removed.reverse else removed)

def computeL2Diff (prev curr : L2Levels × L2Levels) : L2Diff :=
  let (bidsChanged, bidsRemoved) := diffSide prev.1 curr.1 true
  let (asksChanged, asksRemoved) := diffSide prev.2 curr.2 false
  ⟨(bidsChanged, asksChanged), (bidsRemoved, asksRemoved)⟩

def l2PublishDepth : Nat := 20

def SnapshotLevel.toL2 (level : SnapshotLevel) : Int × Int := (level.price, level.qty)

/-- The rows `split_book_snapshot` publishes. The asks start after every bid of the
frame, not after those published. -/
def BookSnapshot.publishedRows (snapshot : BookSnapshot) : List SnapshotLevel × List SnapshotLevel :=
  (snapshot.levels.take (min snapshot.numBid l2PublishDepth),
    (snapshot.levels.drop snapshot.numBid).take (min snapshot.numAsk l2PublishDepth))

/-- The baseline `split_book_snapshot` makes of the rows it publishes. -/
def BookSnapshot.publishedLevels (snapshot : BookSnapshot) : L2Levels × L2Levels :=
  let (bids, asks) := snapshot.publishedRows
  (bids.map SnapshotLevel.toL2, asks.map SnapshotLevel.toL2)

/-! ## Sockets -/

/-- `SubInfo`: the coins of one channel a socket asked for, those it waits for, and
those it was sent, in order. -/
structure SubInfo where
  active : List SymbolName
  pending : List SymbolName
  received : List SymbolName
deriving DecidableEq

structure PublisherSocket where
  subs : HyperliquidChannel → SubInfo
  sent : List WireMessage

namespace PublisherSocket

def fresh : PublisherSocket where
  subs := fun _ => ⟨[], [], []⟩
  sent := []

def send (socket : PublisherSocket) (messages : List WireMessage) : PublisherSocket :=
  { socket with sent := socket.sent ++ messages }

def setSub (socket : PublisherSocket) (channel : HyperliquidChannel) (info : SubInfo) : PublisherSocket :=
  { socket with subs := Function.update socket.subs channel info }

def subscribe (socket : PublisherSocket) (channel : HyperliquidChannel) (coin : SymbolName) : PublisherSocket :=
  let info := socket.subs channel
  socket.setSub channel
    { info with active := info.active.insert coin, pending := info.pending.insert coin }

/-- What `publish_subscription_response` does with one subscriber: only one that waits
is sent the snapshot. -/
def respond (socket : PublisherSocket) (channel : HyperliquidChannel) (coin : SymbolName)
    (messages : List WireMessage) : PublisherSocket :=
  let info := socket.subs channel
  if coin ∈ info.pending then
    let pending := info.pending.filter fun other => decide (other ≠ coin)
    let received := info.received ++ [coin]
    let confirm := if pending.isEmpty then [.subscriptions received] else []
    (socket.setSub channel { info with pending, received }).send (messages ++ confirm)
  else socket

end PublisherSocket

/-! ## The publisher -/

/-- `HyperliquidPublisher`. Sockets of the type `σ` are the connections. -/
structure HyperliquidPublisher (σ : Type) where
  subscriptionInfo : HyperliquidChannel → SymbolName → List σ
  sockets : σ → PublisherSocket
  l2DiffBaseline : SymbolName → Option (L2Levels × L2Levels)

namespace HyperliquidPublisher

variable {σ : Type} [DecidableEq σ] (publisher : HyperliquidPublisher σ)

def start : HyperliquidPublisher σ where
  subscriptionInfo := fun _ _ => []
  sockets := fun _ => .fresh
  l2DiffBaseline := fun _ => none

def updateEach (subscribers : List σ) (change : PublisherSocket → PublisherSocket) : HyperliquidPublisher σ :=
  { publisher with
    sockets := fun ws => if ws ∈ subscribers then change (publisher.sockets ws) else publisher.sockets ws }

def subscribeChannel (ws : σ) (channel : HyperliquidChannel) (coin : SymbolName) : HyperliquidPublisher σ :=
  let subscribers := publisher.subscriptionInfo channel
  { publisher with
    subscriptionInfo := Function.update publisher.subscriptionInfo channel
      (Function.update subscribers coin ((subscribers coin).insert ws))
    sockets := Function.update publisher.sockets ws ((publisher.sockets ws).subscribe channel coin) }

/-- `publish_subscription_response`. The response on `l2` sets the baseline of the coin,
whoever it is for. -/
def publishSubscriptionResponse (coin : SymbolName) (time : Nat) (response : MDSubscriptionResponse) :
    HyperliquidPublisher σ :=
  let subscribers := publisher.subscriptionInfo response.channel coin
  if subscribers.isEmpty then publisher
  else
    match response with
    | .rejected _ reason => publisher.updateEach subscribers (·.send [.error coin reason])
    | .l2Book snapshot =>
        let (bids, asks) := snapshot.publishedRows
        publisher.updateEach subscribers (·.respond .l2Book coin [.l2Book coin time bids asks])
    | .l2 snapshot =>
        let (bids, asks) := snapshot.publishedRows
        let publisher := { publisher with
          l2DiffBaseline := Function.update publisher.l2DiffBaseline coin (some snapshot.publishedLevels) }
        publisher.updateEach subscribers (·.respond .l2 coin [.l2Snapshot coin time bids asks])
    | .trades snapshot update =>
        -- The newer trades go out as an update of their own.
        let updates := if update.isEmpty then [] else [.trades coin update]
        publisher.updateEach subscribers (·.respond .trades coin (.trades coin snapshot :: updates))

def publishL2Book (coin : SymbolName) (time : Nat) (snapshot : BookSnapshot) : HyperliquidPublisher σ :=
  let (bids, asks) := snapshot.publishedRows
  publisher.updateEach (publisher.subscriptionInfo .l2Book coin) (·.send [.l2Book coin time bids asks])

/-- The `l2` part of `publish_book_snapshot`: one difference for every subscriber. -/
def publishL2Diff (coin : SymbolName) (time : Nat) (snapshot : BookSnapshot) : HyperliquidPublisher σ :=
  let subscribers := publisher.subscriptionInfo .l2 coin
  if subscribers.isEmpty then publisher
  else
    let baseline := (publisher.l2DiffBaseline coin).getD ([], [])
    let diff := computeL2Diff baseline snapshot.publishedLevels
    let publisher := { publisher with
      l2DiffBaseline := Function.update publisher.l2DiffBaseline coin (some snapshot.publishedLevels) }
    publisher.updateEach subscribers (·.send [.l2Diff coin diff time])

def publishBookSnapshot (coin : SymbolName) (time : Nat) (snapshot : BookSnapshot) : HyperliquidPublisher σ :=
  (publisher.publishL2Book coin time snapshot).publishL2Diff coin time snapshot

/-- `unsubscribe_md` on every channel and coin the socket is active on. The baseline goes
with the last subscriber of a coin. -/
def unsubscribeMd (ws : σ) : HyperliquidPublisher σ :=
  let active := fun channel => ((publisher.sockets ws).subs channel).active
  let remaining := fun channel coin =>
    (publisher.subscriptionInfo channel coin).filter fun other => decide (other ≠ ws)
  { subscriptionInfo := fun channel coin =>
      if coin ∈ active channel then remaining channel coin else publisher.subscriptionInfo channel coin
    -- The connection is gone; a later one under the same name starts afresh.
    sockets := Function.update publisher.sockets ws .fresh
    l2DiffBaseline := fun coin =>
      if coin ∈ active .l2 ∧ remaining .l2 coin = [] then none else publisher.l2DiffBaseline coin }

end HyperliquidPublisher

inductive PublisherInput (σ : Type) where
  | subscribe (ws : σ) (channel : HyperliquidChannel) (coin : SymbolName)
  | close (ws : σ)
  | subResponse (coin : SymbolName) (time : Nat) (response : MDSubscriptionResponse)
  | bookSnapshot (coin : SymbolName) (time : Nat) (snapshot : BookSnapshot)

def HyperliquidPublisher.step {σ : Type} [DecidableEq σ] (publisher : HyperliquidPublisher σ) :
    PublisherInput σ → HyperliquidPublisher σ
  | .subscribe ws channel coin => publisher.subscribeChannel ws channel coin
  | .close ws => publisher.unsubscribeMd ws
  | .subResponse coin time response => publisher.publishSubscriptionResponse coin time response
  | .bookSnapshot coin time snapshot => publisher.publishBookSnapshot coin time snapshot

end SlickSim.MdPublisher
