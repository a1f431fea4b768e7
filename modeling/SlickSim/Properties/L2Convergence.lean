import Mathlib.Data.Int.Order.Basic
import SlickSim.Lib.SortedPatch
import SlickSim.Venues.HyperliquidPublisher

/-!
# What an `l2` subscriber holds

A subscriber keeps the book of the last snapshot it was sent and applies every
difference to it. The differences are computed against one baseline per coin, so they
fit a subscriber as long as no frame reaches it before its snapshot and no response
moves the baseline without reaching it.
-/

set_option autoImplicit false

namespace SlickSim.MdPublisher

/-! ## The subscriber -/

/-- A message of the channel `l2` about a coin. -/
def WireMessage.isL2Data (coin : SymbolName) : WireMessage → Bool
  | l2Snapshot other _ _ _ => decide (other = coin)
  | l2Diff other _ _ => decide (other = coin)
  | _ => false

def WireMessage.isL2Snapshot : WireMessage → Bool
  | l2Snapshot .. => true
  | _ => false

def l2Data (coin : SymbolName) (messages : List WireMessage) : List WireMessage :=
  messages.filter (·.isL2Data coin)

/-- A subscriber takes over a snapshot, and patches the book it holds with a difference:
bids run down in price and asks up. -/
def L2Levels.receive : Option (L2Levels × L2Levels) → WireMessage → Option (L2Levels × L2Levels)
  | _, .l2Snapshot _ _ bids asks => some (bids.map SnapshotLevel.toL2, asks.map SnapshotLevel.toL2)
  | some (bids, asks), .l2Diff _ diff _ =>
      some (SortedPatch.patch (· > ·) diff.removed.1 diff.changed.1 bids,
        SortedPatch.patch (· < ·) diff.removed.2 diff.changed.2 asks)
  | held, _ => held

/-- The book a subscriber reconstructs from what it was sent. -/
def heldBook (coin : SymbolName) (messages : List WireMessage) : Option (L2Levels × L2Levels) :=
  (l2Data coin messages).foldl L2Levels.receive none

/-- A book as frames carry it: bids down in price, asks up. -/
def L2Ordered (book : L2Levels × L2Levels) : Prop :=
  SortedPatch.Ordered (· > ·) book.1 ∧ SortedPatch.Ordered (· < ·) book.2

theorem BookSnapshot.publishedLevels_ordered (snapshot : BookSnapshot) :
    L2Ordered snapshot.publishedLevels := by
  constructor
  · have kept := snapshot.bidsOrdered.sublist
      (List.take_sublist_take_left (l := snapshot.levels) (Nat.min_le_left snapshot.numBid l2PublishDepth))
    exact List.pairwise_map.mpr kept
  · have kept := snapshot.asksOrdered.sublist (List.take_sublist (min snapshot.numAsk l2PublishDepth) _)
    exact List.pairwise_map.mpr kept

/-- The positions a difference lists are those of the prices that are gone. -/
theorem mem_diffSide_removed {prev curr : L2Levels} (descendingIndex : Bool) {level : Int × Int} {index : Nat}
    (member : (level, index) ∈ prev.zipIdx) :
    index ∈ (diffSide prev curr descendingIndex).2 ↔ level.1 ∉ curr.map Prod.fst := by
  have removed : index ∈ (diffSide prev curr descendingIndex).2 ↔
      ∃ other, (other, index) ∈ prev.zipIdx ∧ other.1 ∉ curr.map Prod.fst := by
    unfold diffSide
    cases descendingIndex <;> simp
  rw [removed]
  constructor
  · rintro ⟨other, otherMember, gone⟩
    rw [List.mk_mem_zipIdx_iff_getElem?] at member otherMember
    have same : other = level := Option.some.inj (otherMember.symm.trans member)
    exact same ▸ gone
  · intro gone
    exact ⟨level, member, gone⟩

/-- A difference turns the book it was computed against into the new one. -/
theorem diffSide_patch (before : Int → Int → Prop) [DecidableRel before] [IsStrictTotalOrder Int before]
    {prev curr : L2Levels} (descendingIndex : Bool) (prevOrdered : SortedPatch.Ordered before prev)
    (currOrdered : SortedPatch.Ordered before curr) :
    SortedPatch.patch before (diffSide prev curr descendingIndex).2 (diffSide prev curr descendingIndex).1 prev =
      curr := by
  apply SortedPatch.patch_eq prevOrdered currOrdered
  · intro level index member
    exact mem_diffSide_removed descendingIndex member
  · exact List.filter_sublist
  · intro level member unsent
    have known : prev.lookup level.1 = some level.2 := by
      by_contra different
      exact unsent (List.mem_filter.mpr ⟨member, decide_eq_true different⟩)
    obtain ⟨front, back, split, -⟩ := List.lookup_eq_some_iff.mp known
    rw [split]
    exact List.mem_append_right _ List.mem_cons_self

theorem computeL2Diff_receive {prev curr : L2Levels × L2Levels} (prevOrdered : L2Ordered prev)
    (currOrdered : L2Ordered curr) (coin : SymbolName) (time : Nat) :
    L2Levels.receive (some prev) (.l2Diff coin (computeL2Diff prev curr) time) = some curr := by
  have bids := diffSide_patch (· > ·) true prevOrdered.1 currOrdered.1
  have asks := diffSide_patch (· < ·) false prevOrdered.2 currOrdered.2
  exact congrArg some (Prod.ext bids asks)

/-! ## Histories -/

/-- The levels a frame shows on the channel `l2`. -/
def PublisherInput.l2Levels {σ : Type} : PublisherInput σ → Option (L2Levels × L2Levels)
  | subResponse _ _ (.l2 snapshot) => some snapshot.publishedLevels
  | bookSnapshot _ _ snapshot => some snapshot.publishedLevels
  | _ => none

/-- A publisher with what it has delivered. -/
structure L2History (σ : Type) where
  publisher : HyperliquidPublisher σ
  /-- The levels of the last frame delivered to a socket on `l2`, per coin. -/
  lastFrame : σ → SymbolName → Option (L2Levels × L2Levels)
  /-- The subscribers that were sent a difference against another book than theirs. -/
  misled : List (σ × SymbolName)

namespace L2History

variable {σ : Type} [DecidableEq σ]

def start : L2History σ := ⟨.start, fun _ _ => none, []⟩

def held (history : L2History σ) (ws : σ) (coin : SymbolName) : Option (L2Levels × L2Levels) :=
  heldBook coin (history.publisher.sockets ws).sent

def misfits (history : L2History σ) (coin : SymbolName) : List (σ × SymbolName) :=
  ((history.publisher.subscriptionInfo .l2 coin).filter fun ws =>
    decide (history.held ws coin ≠ some ((history.publisher.l2DiffBaseline coin).getD ([], [])))).map
      fun ws => (ws, coin)

def step (history : L2History σ) (input : PublisherInput σ) : L2History σ where
  publisher := history.publisher.step input
  lastFrame := fun ws coin =>
    match input with
    | .close closed => if ws = closed then none else history.lastFrame ws coin
    | input =>
        let sent := l2Data coin ((history.publisher.step input).sockets ws).sent
        if sent = l2Data coin (history.publisher.sockets ws).sent then history.lastFrame ws coin
        else input.l2Levels
  misled :=
    match input with
    | .bookSnapshot coin _ _ => history.misled ++ history.misfits coin
    | _ => history.misled

/-- Every open subscriber was sent a snapshot first, holds the levels of the last frame
delivered to it, and was sent differences against the book it held only. -/
structure Converged (history : L2History σ) : Prop where
  snapshotFirst : ∀ coin, ∀ ws ∈ history.publisher.subscriptionInfo .l2 coin,
    ∀ first ∈ (l2Data coin (history.publisher.sockets ws).sent).head?, first.isL2Snapshot
  current : ∀ coin, ∀ ws ∈ history.publisher.subscriptionInfo .l2 coin,
    history.held ws coin = history.lastFrame ws coin
  fitting : history.misled = []

end L2History

/-! ## One socket and one coin -/

@[simp] theorem l2Data_append (coin : SymbolName) (left right : List WireMessage) :
    l2Data coin (left ++ right) = l2Data coin left ++ l2Data coin right :=
  List.filter_append ..

namespace PublisherSocket

/-- The socket has been sent nothing about the coin on `l2`, and waits if it subscribed. -/
structure Unserved (socket : PublisherSocket) (coin : SymbolName)
    (lastFrame : Option (L2Levels × L2Levels)) (subscribed : Prop) : Prop where
  unlisted : coin ∉ (socket.subs .l2).received
  silent : l2Data coin socket.sent = []
  noFrame : lastFrame = none
  waits : subscribed → coin ∈ (socket.subs .l2).pending

/-- The socket holds the baseline of the coin, and that is the last frame it was sent. -/
structure Holds (socket : PublisherSocket) (coin : SymbolName)
    (lastFrame baseline : Option (L2Levels × L2Levels)) : Prop where
  listed : coin ∈ (socket.subs .l2).received
  snapshotFirst : ∃ first rest, l2Data coin socket.sent = first :: rest ∧ first.isL2Snapshot
  held : heldBook coin socket.sent = baseline
  framed : lastFrame = baseline
  ordered : ∃ book, baseline = some book ∧ L2Ordered book

/-- Either of the two; only a subscriber holds a book. -/
def Follows (socket : PublisherSocket) (coin : SymbolName)
    (lastFrame baseline : Option (L2Levels × L2Levels)) (subscribed : Prop) : Prop :=
  socket.Unserved coin lastFrame subscribed ∨ subscribed ∧ socket.Holds coin lastFrame baseline

/-- Nothing about the coin on `l2` was sent or noted as sent. -/
structure Quiet (coin : SymbolName) (before after : PublisherSocket) : Prop where
  data : l2Data coin after.sent = l2Data coin before.sent
  received : coin ∈ (after.subs .l2).received ↔ coin ∈ (before.subs .l2).received
  pending : coin ∈ (before.subs .l2).pending → coin ∈ (after.subs .l2).pending

theorem respond_active (socket : PublisherSocket) (channel : HyperliquidChannel) (coin : SymbolName)
    (messages : List WireMessage) :
    ((socket.respond channel coin messages).subs .l2).active = (socket.subs .l2).active := by
  unfold respond
  dsimp only
  split
  case isFalse => rfl
  case isTrue =>
    by_cases isL2 : channel = .l2
    · subst isL2
      simp [send, setSub]
    · simp [send, setSub, Function.update_of_ne (Ne.symm isL2)]

theorem Follows.quiet {before after : PublisherSocket} {coin : SymbolName}
    {lastFrame baseline nextBaseline : Option (L2Levels × L2Levels)} {subscribed stillSubscribed : Prop}
    (follows : before.Follows coin lastFrame baseline subscribed) (quiet : Quiet coin before after)
    (same : stillSubscribed ↔ subscribed) (baselineKept : subscribed → nextBaseline = baseline) :
    after.Follows coin lastFrame nextBaseline stillSubscribed := by
  rcases follows with unserved | ⟨isSubscribed, holds⟩
  · refine .inl ⟨?_, ?_, unserved.noFrame, ?_⟩
    · rw [quiet.received]
      exact unserved.unlisted
    · rw [quiet.data]
      exact unserved.silent
    · intro isSubscribed
      exact quiet.pending (unserved.waits (same.mp isSubscribed))
  · rw [baselineKept isSubscribed]
    refine .inr ⟨same.mpr isSubscribed, quiet.received.mpr holds.listed, ?_, ?_, holds.framed, holds.ordered⟩
    · rw [quiet.data]
      exact holds.snapshotFirst
    · rw [heldBook, quiet.data]
      exact holds.held

theorem Quiet.refl (coin : SymbolName) (socket : PublisherSocket) : Quiet coin socket socket :=
  ⟨rfl, Iff.rfl, id⟩

theorem quiet_send (socket : PublisherSocket) {coin : SymbolName} {messages : List WireMessage}
    (unrelated : l2Data coin messages = []) : Quiet coin socket (socket.send messages) := by
  refine ⟨?_, Iff.rfl, id⟩
  rw [send, l2Data_append, unrelated, List.append_nil]

theorem quiet_subscribe (socket : PublisherSocket) (channel : HyperliquidChannel) (subscribed coin : SymbolName) :
    Quiet coin socket (socket.subscribe channel subscribed) := by
  refine ⟨rfl, ?_, ?_⟩
  · by_cases isL2 : channel = .l2
    · subst isL2
      simp [subscribe, setSub]
    · simp [subscribe, setSub, Function.update_of_ne (Ne.symm isL2)]
  · intro waits
    by_cases isL2 : channel = .l2
    · subst isL2
      simp [subscribe, setSub, waits]
    · simpa [subscribe, setSub, Function.update_of_ne (Ne.symm isL2)] using waits

theorem quiet_respond (socket : PublisherSocket) {channel : HyperliquidChannel} {answered coin : SymbolName}
    {messages : List WireMessage} (unrelated : l2Data coin messages = [])
    (other : channel ≠ .l2 ∨ coin ≠ answered) :
    Quiet coin socket (socket.respond channel answered messages) := by
  unfold respond
  dsimp only
  split
  case isFalse => exact .refl coin socket
  case isTrue =>
    refine ⟨?_, ?_, ?_⟩
    · rw [send, l2Data_append, l2Data_append, unrelated]
      split <;> simp [l2Data, WireMessage.isL2Data, setSub]
    · rcases other with otherChannel | otherCoin
      · simp [send, setSub, Function.update_of_ne (Ne.symm otherChannel)]
      · by_cases isL2 : channel = .l2
        · subst isL2
          simp [send, setSub, otherCoin]
        · simp [send, setSub, Function.update_of_ne (Ne.symm isL2)]
    · intro waits
      rcases other with otherChannel | otherCoin
      · simpa [send, setSub, Function.update_of_ne (Ne.symm otherChannel)] using waits
      · by_cases isL2 : channel = .l2
        · subst isL2
          simp [send, setSub, otherCoin, waits]
        · simpa [send, setSub, Function.update_of_ne (Ne.symm isL2)] using waits

/-- A socket sent one more message on `l2` holds what that message makes of its book. -/
theorem holds_of_told {before after : PublisherSocket} {coin : SymbolName} {message : WireMessage}
    {book : L2Levels × L2Levels}
    (told : l2Data coin after.sent = l2Data coin before.sent ++ [message])
    (listed : coin ∈ (after.subs .l2).received)
    (snapshotFirst : l2Data coin before.sent = [] ∧ message.isL2Snapshot ∨
      ∃ first rest, l2Data coin before.sent = first :: rest ∧ first.isL2Snapshot)
    (taken : L2Levels.receive (heldBook coin before.sent) message = some book) (ordered : L2Ordered book) :
    after.Holds coin (some book) (some book) := by
  refine ⟨listed, ?_, ?_, rfl, book, rfl, ordered⟩
  · rw [told]
    rcases snapshotFirst with ⟨silent, isSnapshot⟩ | ⟨first, rest, data, isSnapshot⟩
    · exact ⟨message, [], by rw [silent]; rfl, isSnapshot⟩
    · exact ⟨first, rest ++ [message], by rw [data]; rfl, isSnapshot⟩
  · rw [heldBook, told, List.foldl_append]
    exact taken

theorem respond_told (socket : PublisherSocket) {coin : SymbolName} (waits : coin ∈ (socket.subs .l2).pending)
    (time : Nat) (bids asks : List SnapshotLevel) :
    let message := WireMessage.l2Snapshot coin time bids asks
    l2Data coin (socket.respond .l2 coin [message]).sent = l2Data coin socket.sent ++ [message] ∧
      coin ∈ ((socket.respond .l2 coin [message]).subs .l2).received := by
  unfold respond
  dsimp only
  rw [if_pos waits]
  constructor
  · rw [send, l2Data_append]
    split <;> simp [l2Data, WireMessage.isL2Data, setSub]
  · simp [send, setSub]

theorem Follows.respond {socket : PublisherSocket} {coin : SymbolName}
    {lastFrame baseline : Option (L2Levels × L2Levels)} {subscribed : Prop}
    (follows : socket.Follows coin lastFrame baseline subscribed) (waits : coin ∈ (socket.subs .l2).pending)
    (time : Nat) (snapshot : BookSnapshot) :
    (socket.respond .l2 coin [.l2Snapshot coin time snapshot.publishedRows.1 snapshot.publishedRows.2]).Holds
      coin (some snapshot.publishedLevels) (some snapshot.publishedLevels) := by
  obtain ⟨told, listed⟩ := respond_told socket waits time snapshot.publishedRows.1 snapshot.publishedRows.2
  refine holds_of_told told listed ?_ rfl snapshot.publishedLevels_ordered
  rcases follows with unserved | ⟨-, holds⟩
  · exact .inl ⟨unserved.silent, rfl⟩
  · exact .inr holds.snapshotFirst

/-- A difference against the baseline brings a subscriber that holds the baseline up to date. -/
theorem Holds.send_diff {socket : PublisherSocket} {coin : SymbolName}
    {lastFrame baseline : Option (L2Levels × L2Levels)} (holds : socket.Holds coin lastFrame baseline)
    (time : Nat) (snapshot : BookSnapshot) :
    (socket.send [.l2Diff coin (computeL2Diff (baseline.getD ([], [])) snapshot.publishedLevels) time]).Holds
      coin (some snapshot.publishedLevels) (some snapshot.publishedLevels) := by
  obtain ⟨book, isBook, ordered⟩ := holds.ordered
  have isDiff (diff : L2Diff) : l2Data coin [.l2Diff coin diff time] = [.l2Diff coin diff time] := by
    simp [l2Data, WireMessage.isL2Data]
  have told : l2Data coin (socket.send [.l2Diff coin (computeL2Diff book snapshot.publishedLevels) time]).sent =
      l2Data coin socket.sent ++ [.l2Diff coin (computeL2Diff book snapshot.publishedLevels) time] := by
    rw [send, l2Data_append, isDiff]
  rw [isBook, Option.getD_some]
  refine holds_of_told told holds.listed (.inr holds.snapshotFirst) ?_ snapshot.publishedLevels_ordered
  rw [holds.held, isBook]
  exact computeL2Diff_receive ordered snapshot.publishedLevels_ordered coin time

end PublisherSocket

namespace L2History

variable {σ : Type}

/-- Every socket follows every coin, and the sockets know what they subscribed to. -/
structure Aligned (history : L2History σ) : Prop where
  listed : ∀ coin ws, ws ∈ history.publisher.subscriptionInfo .l2 coin ↔
    coin ∈ ((history.publisher.sockets ws).subs .l2).active
  follows : ∀ coin ws, (history.publisher.sockets ws).Follows coin (history.lastFrame ws coin)
    (history.publisher.l2DiffBaseline coin) (ws ∈ history.publisher.subscriptionInfo .l2 coin)
  fitting : history.misled = []

theorem Aligned.toConverged {history : L2History σ} (aligned : history.Aligned) : history.Converged := by
  refine ⟨?_, ?_, aligned.fitting⟩
  · intro coin ws _ first isFirst
    rcases aligned.follows coin ws with unserved | ⟨-, holds⟩
    · rw [unserved.silent] at isFirst
      cases isFirst
    · obtain ⟨head, rest, data, isSnapshot⟩ := holds.snapshotFirst
      rw [data] at isFirst
      cases isFirst
      exact isSnapshot
  · intro coin ws _
    rcases aligned.follows coin ws with unserved | ⟨-, holds⟩
    · rw [held, heldBook, unserved.silent, unserved.noFrame]
      rfl
    · exact holds.held.trans holds.framed.symm

theorem Aligned.misfits_eq_nil {history : L2History σ} (aligned : history.Aligned) {coin : SymbolName}
    (listed : ∀ ws ∈ history.publisher.subscriptionInfo .l2 coin,
      coin ∈ ((history.publisher.sockets ws).subs .l2).received) :
    history.misfits coin = [] := by
  refine List.map_eq_nil_iff.mpr (List.filter_eq_nil_iff.mpr ?_)
  intro ws subscribed
  rcases aligned.follows coin ws with unserved | ⟨-, holds⟩
  · exact absurd (listed ws subscribed) unserved.unlisted
  · obtain ⟨book, isBook, -⟩ := holds.ordered
    have held : history.held ws coin = some book := holds.held.trans isBook
    simp [held, isBook]

theorem start_aligned : (start : L2History σ).Aligned := by
  refine ⟨?_, ?_, rfl⟩
  · intro coin ws
    exact iff_of_false List.not_mem_nil List.not_mem_nil
  · intro coin ws
    refine .inl ⟨List.not_mem_nil, rfl, rfl, ?_⟩
    intro subscribed
    cases subscribed

/-! ## Steps -/

variable [DecidableEq σ]

theorem step_lastFrame_of_quiet (history : L2History σ) {input : PublisherInput σ} {ws : σ} {coin : SymbolName}
    (isOpen : input ≠ .close ws)
    (quiet : PublisherSocket.Quiet coin (history.publisher.sockets ws) ((history.publisher.step input).sockets ws)) :
    (history.step input).lastFrame ws coin = history.lastFrame ws coin := by
  cases input with
  | close closed =>
      have other : ws ≠ closed := by
        rintro rfl
        exact isOpen rfl
      exact if_neg other
  | _ => exact if_pos quiet.data

theorem step_lastFrame_of_told (history : L2History σ) {input : PublisherInput σ} {ws : σ} {coin : SymbolName}
    (isOpen : ∀ closed, input ≠ .close closed)
    (told : l2Data coin ((history.publisher.step input).sockets ws).sent ≠
      l2Data coin (history.publisher.sockets ws).sent) :
    (history.step input).lastFrame ws coin = input.l2Levels := by
  cases input with
  | close closed => exact absurd rfl (isOpen closed)
  | _ => exact if_neg told

theorem Aligned.follows_of_quiet {history : L2History σ} (aligned : history.Aligned) {input : PublisherInput σ}
    {ws : σ} {coin : SymbolName} (isOpen : input ≠ .close ws)
    (quiet : PublisherSocket.Quiet coin (history.publisher.sockets ws) ((history.publisher.step input).sockets ws))
    (subscribers : ws ∈ (history.publisher.step input).subscriptionInfo .l2 coin ↔
      ws ∈ history.publisher.subscriptionInfo .l2 coin)
    (baseline : ws ∈ history.publisher.subscriptionInfo .l2 coin →
      (history.publisher.step input).l2DiffBaseline coin = history.publisher.l2DiffBaseline coin) :
    ((history.step input).publisher.sockets ws).Follows coin ((history.step input).lastFrame ws coin)
      ((history.step input).publisher.l2DiffBaseline coin)
      (ws ∈ (history.step input).publisher.subscriptionInfo .l2 coin) := by
  rw [history.step_lastFrame_of_quiet isOpen quiet]
  exact (aligned.follows coin ws).quiet quiet subscribers baseline

theorem mem_subscribeChannel (publisher : HyperliquidPublisher σ) (ws socket : σ) (channel : HyperliquidChannel)
    (coin other : SymbolName) :
    socket ∈ (publisher.subscribeChannel ws channel coin).subscriptionInfo .l2 other ↔
      socket ∈ publisher.subscriptionInfo .l2 other ∨ (channel = .l2 ∧ other = coin) ∧ socket = ws := by
  unfold HyperliquidPublisher.subscribeChannel
  by_cases isL2 : channel = .l2
  · subst isL2
    by_cases sameCoin : other = coin
    · subst sameCoin
      simp [or_comm]
    · simp [sameCoin]
  · simp [Function.update_of_ne (Ne.symm isL2), isL2]

theorem subscribeChannel_active (publisher : HyperliquidPublisher σ) (ws socket : σ) (channel : HyperliquidChannel)
    (coin other : SymbolName) :
    other ∈ (((publisher.subscribeChannel ws channel coin).sockets socket).subs .l2).active ↔
      other ∈ ((publisher.sockets socket).subs .l2).active ∨ (channel = .l2 ∧ other = coin) ∧ socket = ws := by
  unfold HyperliquidPublisher.subscribeChannel PublisherSocket.subscribe PublisherSocket.setSub
  by_cases same : socket = ws
  · subst same
    by_cases isL2 : channel = .l2
    · subst isL2
      simp [or_comm]
    · simp [Function.update_of_ne (Ne.symm isL2), isL2]
  · simp [same]

theorem quiet_subscribeChannel (publisher : HyperliquidPublisher σ) (ws socket : σ) (channel : HyperliquidChannel)
    (coin other : SymbolName) :
    PublisherSocket.Quiet other (publisher.sockets socket)
      ((publisher.subscribeChannel ws channel coin).sockets socket) := by
  unfold HyperliquidPublisher.subscribeChannel
  by_cases same : socket = ws
  · subst same
    simpa using (publisher.sockets socket).quiet_subscribe channel coin other
  · simpa [same] using PublisherSocket.Quiet.refl other _

theorem Aligned.subscribe {history : L2History σ} (aligned : history.Aligned) (ws : σ)
    (channel : HyperliquidChannel) (coin : SymbolName) :
    (history.step (.subscribe ws channel coin)).Aligned := by
  refine ⟨?_, ?_, aligned.fitting⟩
  · intro other socket
    exact (mem_subscribeChannel ..).trans
      ((or_congr_left (aligned.listed other socket)).trans (subscribeChannel_active ..).symm)
  · intro other socket
    have isOpen : PublisherInput.subscribe ws channel coin ≠ .close socket := nofun
    have quiet := quiet_subscribeChannel history.publisher ws socket channel coin other
    by_cases joins : (channel = .l2 ∧ other = coin) ∧ socket = ws
    · obtain ⟨⟨rfl, rfl⟩, rfl⟩ := joins
      have subscribed : socket ∈ (history.publisher.subscribeChannel socket .l2 other).subscriptionInfo .l2 other :=
        (mem_subscribeChannel ..).mpr (.inr ⟨⟨rfl, rfl⟩, rfl⟩)
      rw [history.step_lastFrame_of_quiet isOpen quiet]
      rcases aligned.follows other socket with unserved | ⟨-, holds⟩
      · refine .inl ⟨?_, ?_, unserved.noFrame, ?_⟩
        · exact fun listed => unserved.unlisted (quiet.received.mp listed)
        · exact quiet.data.trans unserved.silent
        · intro _
          show other ∈ (((history.publisher.subscribeChannel socket .l2 other).sockets socket).subs .l2).pending
          simp [HyperliquidPublisher.subscribeChannel, PublisherSocket.subscribe, PublisherSocket.setSub]
      · have follows : (history.publisher.sockets socket).Follows other (history.lastFrame socket other)
            (history.publisher.l2DiffBaseline other) True := .inr ⟨trivial, holds⟩
        exact follows.quiet quiet (iff_true_intro subscribed) fun _ => rfl
    · refine aligned.follows_of_quiet isOpen quiet ?_ fun _ => rfl
      exact (mem_subscribeChannel ..).trans (or_iff_left joins)

theorem Aligned.close {history : L2History σ} (aligned : history.Aligned) (ws : σ) :
    (history.step (.close ws)).Aligned := by
  have remaining (coin : SymbolName) (socket : σ) :
      socket ∈ (history.publisher.unsubscribeMd ws).subscriptionInfo .l2 coin ↔
        socket ∈ history.publisher.subscriptionInfo .l2 coin ∧ socket ≠ ws := by
    show socket ∈ ite _ _ _ ↔ _
    split
    case isTrue => simp
    case isFalse inactive =>
      have absent : ws ∉ history.publisher.subscriptionInfo .l2 coin :=
        fun subscribed => inactive ((aligned.listed coin ws).mp subscribed)
      grind
  refine ⟨?_, ?_, aligned.fitting⟩
  · intro coin socket
    have listed := aligned.listed coin socket
    refine (remaining coin socket).trans ?_
    show _ ↔ coin ∈ ((Function.update history.publisher.sockets ws .fresh socket).subs .l2).active
    by_cases same : socket = ws
    · subst same
      simp [PublisherSocket.fresh]
    · simp [same, listed]
  · intro coin socket
    by_cases same : socket = ws
    · subst same
      have gone : (history.publisher.unsubscribeMd socket).sockets socket = .fresh :=
        Function.update_self ..
      refine .inl ⟨?_, ?_, if_pos rfl, ?_⟩
      · show coin ∉ (((history.publisher.unsubscribeMd socket).sockets socket).subs .l2).received
        rw [gone]
        exact List.not_mem_nil
      · show l2Data coin ((history.publisher.unsubscribeMd socket).sockets socket).sent = []
        rw [gone]
        rfl
      · intro subscribed
        exact absurd rfl ((remaining coin socket).mp subscribed).2
    · have kept : (history.publisher.unsubscribeMd ws).sockets socket = history.publisher.sockets socket :=
        Function.update_of_ne same ..
      refine aligned.follows_of_quiet ?_ ?_ ?_ ?_
      · rintro ⟨⟩
        exact same rfl
      · show PublisherSocket.Quiet coin _ ((history.publisher.unsubscribeMd ws).sockets socket)
        rw [kept]
        exact .refl ..
      · exact (remaining coin socket).trans (and_iff_left same)
      · intro subscribed
        refine if_neg ?_
        rintro ⟨-, empty⟩
        have left : socket ∈ (history.publisher.subscriptionInfo .l2 coin).filter fun other => decide (other ≠ ws) :=
          List.mem_filter.mpr ⟨subscribed, decide_eq_true same⟩
        exact List.ne_nil_of_mem left empty

/-- What frames leave alone: who subscribed to what. -/
structure SameSubscriptions (before after : HyperliquidPublisher σ) : Prop where
  subscribers : after.subscriptionInfo = before.subscriptionInfo
  active : ∀ ws, ((after.sockets ws).subs .l2).active = ((before.sockets ws).subs .l2).active

theorem sameSubscriptions_updateEach (publisher : HyperliquidPublisher σ) (subscribers : List σ)
    {change : PublisherSocket → PublisherSocket}
    (keeps : ∀ socket, ((change socket).subs .l2).active = (socket.subs .l2).active) :
    SameSubscriptions publisher (publisher.updateEach subscribers change) := by
  refine ⟨rfl, fun ws => ?_⟩
  unfold HyperliquidPublisher.updateEach
  dsimp only
  split
  · exact keeps _
  · rfl

theorem updateEach_send_active (publisher : HyperliquidPublisher σ) (subscribers : List σ)
    (messages : List WireMessage) (ws : σ) :
    (((publisher.updateEach subscribers (·.send messages)).sockets ws).subs .l2).active =
      ((publisher.sockets ws).subs .l2).active := by
  have keeps (socket : PublisherSocket) :
      ((socket.send messages).subs .l2).active = (socket.subs .l2).active := rfl
  exact (sameSubscriptions_updateEach publisher subscribers keeps).active ws

theorem quiet_updateEach (publisher : HyperliquidPublisher σ) (subscribers : List σ)
    {change : PublisherSocket → PublisherSocket} {coin : SymbolName}
    (quiet : ∀ socket, PublisherSocket.Quiet coin socket (change socket)) (ws : σ) :
    PublisherSocket.Quiet coin (publisher.sockets ws) ((publisher.updateEach subscribers change).sockets ws) := by
  unfold HyperliquidPublisher.updateEach
  dsimp only
  split
  · exact quiet _
  · exact .refl ..

theorem sameSubscriptions_response (publisher : HyperliquidPublisher σ) (coin : SymbolName) (time : Nat)
    (response : MDSubscriptionResponse) :
    SameSubscriptions publisher (publisher.publishSubscriptionResponse coin time response) := by
  unfold HyperliquidPublisher.publishSubscriptionResponse
  dsimp only
  split
  case isTrue => exact ⟨rfl, fun _ => rfl⟩
  case isFalse =>
    cases response with
    | rejected channel reason => exact sameSubscriptions_updateEach _ _ fun _ => rfl
    | l2 snapshot =>
        exact ⟨rfl, (sameSubscriptions_updateEach publisher _ fun socket => socket.respond_active ..).active⟩
    | _ => exact sameSubscriptions_updateEach _ _ fun socket => socket.respond_active ..

/-- A response on `l2` says nothing to its subscribers about other coins, and one on another
channel says nothing on `l2`. -/
theorem quiet_response (publisher : HyperliquidPublisher σ) (answered coin : SymbolName) (time : Nat)
    (response : MDSubscriptionResponse)
    (other : ∀ snapshot, response = .l2 snapshot → coin ≠ answered) (ws : σ) :
    PublisherSocket.Quiet coin (publisher.sockets ws)
      ((publisher.publishSubscriptionResponse answered time response).sockets ws) := by
  unfold HyperliquidPublisher.publishSubscriptionResponse
  dsimp only
  split
  case isTrue => exact .refl ..
  case isFalse =>
    cases response with
    | rejected channel reason => exact quiet_updateEach _ _ (fun socket => socket.quiet_send rfl) ws
    | l2Book snapshot =>
        have otherChannel : HyperliquidChannel.l2Book ≠ .l2 := by decide
        have unrelated : l2Data coin [.l2Book answered time snapshot.publishedRows.1
            snapshot.publishedRows.2] = [] := rfl
        exact quiet_updateEach _ _ (fun socket => socket.quiet_respond unrelated (.inl otherChannel)) ws
    | l2 snapshot =>
        have otherCoin := other snapshot rfl
        have unrelated : l2Data coin [.l2Snapshot answered time snapshot.publishedRows.1
            snapshot.publishedRows.2] = [] := by
          simp [l2Data, WireMessage.isL2Data, Ne.symm otherCoin]
        exact quiet_updateEach publisher _ (fun socket => socket.quiet_respond unrelated (.inr otherCoin)) ws
    | trades snapshot update =>
        have otherChannel : HyperliquidChannel.trades ≠ .l2 := by decide
        have unrelated : l2Data coin (.trades answered snapshot ::
            if update.isEmpty then [] else [.trades answered update]) = [] := by
          split <;> rfl
        exact quiet_updateEach _ _ (fun socket => socket.quiet_respond unrelated (.inl otherChannel)) ws

theorem response_baseline (publisher : HyperliquidPublisher σ) (answered coin : SymbolName) (time : Nat)
    (response : MDSubscriptionResponse) (other : ∀ snapshot, response = .l2 snapshot → coin ≠ answered) :
    (publisher.publishSubscriptionResponse answered time response).l2DiffBaseline coin =
      publisher.l2DiffBaseline coin := by
  unfold HyperliquidPublisher.publishSubscriptionResponse
  dsimp only
  split
  case isTrue => rfl
  case isFalse =>
    cases response with
    | l2 snapshot => exact Function.update_of_ne (other snapshot rfl) ..
    | _ => rfl

end L2History

/-! ## Runs -/

/-- The frames every subscriber can follow: a book is sent only when all subscribers have
their snapshot, and a response on `l2` either reaches all of them or repeats the baseline. -/
def PublisherInput.Fits {σ : Type} (publisher : HyperliquidPublisher σ) : PublisherInput σ → Prop
  | bookSnapshot coin _ _ => ∀ ws ∈ publisher.subscriptionInfo .l2 coin,
      coin ∈ ((publisher.sockets ws).subs .l2).received
  | subResponse coin _ (.l2 snapshot) =>
      (∀ ws ∈ publisher.subscriptionInfo .l2 coin, coin ∈ ((publisher.sockets ws).subs .l2).pending) ∨
        publisher.l2DiffBaseline coin = some snapshot.publishedLevels
  | _ => True

namespace L2History

variable {σ : Type} [DecidableEq σ]

/-- What a response on `l2` does, where it does anything. -/
theorem publishSubscriptionResponse_l2 (publisher : HyperliquidPublisher σ) {coin : SymbolName} (time : Nat)
    (snapshot : BookSnapshot) {ws : σ} (subscribed : ws ∈ publisher.subscriptionInfo .l2 coin) :
    let after := publisher.publishSubscriptionResponse coin time (.l2 snapshot)
    after.l2DiffBaseline coin = some snapshot.publishedLevels ∧
      after.sockets ws = (publisher.sockets ws).respond .l2 coin
        [.l2Snapshot coin time snapshot.publishedRows.1 snapshot.publishedRows.2] := by
  have someone : (publisher.subscriptionInfo .l2 coin).isEmpty = false :=
    List.isEmpty_eq_false_iff.mpr (List.ne_nil_of_mem subscribed)
  unfold HyperliquidPublisher.publishSubscriptionResponse
  dsimp only [MDSubscriptionResponse.channel]
  rw [someone]
  exact ⟨Function.update_self .., if_pos subscribed⟩

theorem Aligned.follows_response {history : L2History σ} (aligned : history.Aligned) (coin : SymbolName) (time : Nat)
    (snapshot : BookSnapshot) (fits : (PublisherInput.subResponse coin time (.l2 snapshot)).Fits history.publisher)
    (ws : σ) :
    let after := history.step (.subResponse coin time (.l2 snapshot))
    (after.publisher.sockets ws).Follows coin (after.lastFrame ws coin) (after.publisher.l2DiffBaseline coin)
      (ws ∈ after.publisher.subscriptionInfo .l2 coin) := by
  intro after
  have same := sameSubscriptions_response history.publisher coin time (.l2 snapshot)
  have subscribers : ws ∈ after.publisher.subscriptionInfo .l2 coin ↔
      ws ∈ history.publisher.subscriptionInfo .l2 coin := by
    show ws ∈ (history.publisher.publishSubscriptionResponse coin time (.l2 snapshot)).subscriptionInfo .l2 coin ↔ _
    rw [same.subscribers]
  by_cases subscribed : ws ∈ history.publisher.subscriptionInfo .l2 coin
  · obtain ⟨baseline, responded⟩ : after.publisher.l2DiffBaseline coin = some snapshot.publishedLevels ∧
        after.publisher.sockets ws = (history.publisher.sockets ws).respond .l2 coin
          [.l2Snapshot coin time snapshot.publishedRows.1 snapshot.publishedRows.2] :=
      publishSubscriptionResponse_l2 history.publisher time snapshot subscribed
    by_cases waits : coin ∈ ((history.publisher.sockets ws).subs .l2).pending
    · have told : l2Data coin (after.publisher.sockets ws).sent ≠
          l2Data coin (history.publisher.sockets ws).sent := by
        rw [responded, (PublisherSocket.respond_told _ waits ..).1]
        simp
      have framed : after.lastFrame ws coin = some snapshot.publishedLevels :=
        history.step_lastFrame_of_told nofun told
      have holds := (aligned.follows coin ws).respond waits time snapshot
      rw [← responded] at holds
      rw [framed, baseline]
      exact .inr ⟨subscribers.mpr subscribed, holds⟩
    · have unmoved : history.publisher.l2DiffBaseline coin = some snapshot.publishedLevels :=
        fits.resolve_left fun allWait => waits (allWait ws subscribed)
      refine aligned.follows_of_quiet nofun ?_ subscribers fun _ => baseline.trans unmoved.symm
      show PublisherSocket.Quiet coin _ (after.publisher.sockets ws)
      rw [responded, PublisherSocket.respond, if_neg waits]
      exact .refl ..
  · have untouched : after.publisher.sockets ws = history.publisher.sockets ws := by
      show ((history.publisher.publishSubscriptionResponse coin time (.l2 snapshot)).sockets ws) = _
      unfold HyperliquidPublisher.publishSubscriptionResponse
      dsimp only [MDSubscriptionResponse.channel]
      split
      · rfl
      · exact if_neg subscribed
    refine aligned.follows_of_quiet nofun ?_ subscribers fun present => absurd present subscribed
    show PublisherSocket.Quiet coin _ (after.publisher.sockets ws)
    rw [untouched]
    exact .refl ..

theorem Aligned.subResponse {history : L2History σ} (aligned : history.Aligned) (answered : SymbolName) (time : Nat)
    (response : MDSubscriptionResponse)
    (fits : (PublisherInput.subResponse answered time response).Fits history.publisher) :
    (history.step (.subResponse answered time response)).Aligned := by
  have same := sameSubscriptions_response history.publisher answered time response
  have subscribers (coin : SymbolName) (ws : σ) :
      ws ∈ (history.publisher.publishSubscriptionResponse answered time response).subscriptionInfo .l2 coin ↔
        ws ∈ history.publisher.subscriptionInfo .l2 coin := by
    rw [same.subscribers]
  refine ⟨?_, ?_, aligned.fitting⟩
  · intro coin ws
    refine (subscribers coin ws).trans ((aligned.listed coin ws).trans ?_)
    rw [← same.active ws]
    rfl
  · intro coin ws
    have isOpen : PublisherInput.subResponse answered time response ≠ .close ws := nofun
    by_cases other : ∀ snapshot, response = .l2 snapshot → coin ≠ answered
    · refine aligned.follows_of_quiet isOpen (quiet_response _ _ _ _ _ other ws) (subscribers coin ws) ?_
      intro _
      exact response_baseline _ _ _ _ _ other
    · push Not at other
      obtain ⟨snapshot, rfl, rfl⟩ := other
      exact aligned.follows_response coin time snapshot fits ws

theorem sameSubscriptions_bookSnapshot (publisher : HyperliquidPublisher σ) (coin : SymbolName) (time : Nat)
    (snapshot : BookSnapshot) :
    SameSubscriptions publisher (publisher.publishBookSnapshot coin time snapshot) := by
  have book : SameSubscriptions publisher (publisher.publishL2Book coin time snapshot) :=
    ⟨rfl, fun ws => updateEach_send_active publisher _ _ ws⟩
  unfold HyperliquidPublisher.publishBookSnapshot HyperliquidPublisher.publishL2Diff
  dsimp only
  split
  case isTrue => exact book
  case isFalse =>
    refine ⟨book.subscribers, fun ws => ?_⟩
    refine Eq.trans ?_ (book.active ws)
    exact updateEach_send_active (publisher.publishL2Book coin time snapshot) _ _ ws

theorem quiet_publishL2Book (publisher : HyperliquidPublisher σ) (shown coin : SymbolName) (time : Nat)
    (snapshot : BookSnapshot) (ws : σ) :
    PublisherSocket.Quiet coin (publisher.sockets ws) ((publisher.publishL2Book shown time snapshot).sockets ws) :=
  quiet_updateEach publisher _ (fun socket => socket.quiet_send rfl) ws

/-- A book says nothing to those who did not subscribe to its coin on `l2`. -/
theorem quiet_bookSnapshot (publisher : HyperliquidPublisher σ) (shown coin : SymbolName) (time : Nat)
    (snapshot : BookSnapshot) (ws : σ) (other : coin = shown → ws ∉ publisher.subscriptionInfo .l2 shown) :
    PublisherSocket.Quiet coin (publisher.sockets ws)
      ((publisher.publishBookSnapshot shown time snapshot).sockets ws) := by
  have book := quiet_publishL2Book publisher shown coin time snapshot ws
  unfold HyperliquidPublisher.publishBookSnapshot HyperliquidPublisher.publishL2Diff
  dsimp only
  split
  case isTrue => exact book
  case isFalse =>
    show PublisherSocket.Quiet coin _ (ite _ _ _)
    split
    case isFalse => exact book
    case isTrue subscribed =>
      have otherCoin : shown ≠ coin := fun same => other same.symm subscribed
      refine ⟨?_, book.received, book.pending⟩
      rw [PublisherSocket.send, l2Data_append]
      simpa [l2Data, WireMessage.isL2Data, otherCoin] using book.data

theorem bookSnapshot_baseline (publisher : HyperliquidPublisher σ) (shown coin : SymbolName) (time : Nat)
    (snapshot : BookSnapshot) (other : coin ≠ shown) :
    (publisher.publishBookSnapshot shown time snapshot).l2DiffBaseline coin = publisher.l2DiffBaseline coin := by
  unfold HyperliquidPublisher.publishBookSnapshot HyperliquidPublisher.publishL2Diff
  dsimp only
  split
  case isTrue => rfl
  case isFalse => exact Function.update_of_ne other ..

/-- What a book does to a subscriber of its coin on `l2`. -/
theorem publishBookSnapshot_l2 (publisher : HyperliquidPublisher σ) {coin : SymbolName} (time : Nat)
    (snapshot : BookSnapshot) {ws : σ} (subscribed : ws ∈ publisher.subscriptionInfo .l2 coin) :
    let after := publisher.publishBookSnapshot coin time snapshot
    after.l2DiffBaseline coin = some snapshot.publishedLevels ∧
      after.sockets ws = ((publisher.publishL2Book coin time snapshot).sockets ws).send
        [.l2Diff coin (computeL2Diff ((publisher.l2DiffBaseline coin).getD ([], [])) snapshot.publishedLevels)
          time] := by
  have someone : (publisher.subscriptionInfo .l2 coin).isEmpty = false :=
    List.isEmpty_eq_false_iff.mpr (List.ne_nil_of_mem subscribed)
  unfold HyperliquidPublisher.publishBookSnapshot HyperliquidPublisher.publishL2Diff
  dsimp only [HyperliquidPublisher.publishL2Book, HyperliquidPublisher.updateEach]
  rw [someone]
  exact ⟨Function.update_self .., if_pos subscribed⟩

theorem Aligned.follows_bookSnapshot {history : L2History σ} (aligned : history.Aligned) (coin : SymbolName)
    (time : Nat) (snapshot : BookSnapshot) {ws : σ} (subscribed : ws ∈ history.publisher.subscriptionInfo .l2 coin)
    (listed : coin ∈ ((history.publisher.sockets ws).subs .l2).received) :
    let after := history.step (.bookSnapshot coin time snapshot)
    (after.publisher.sockets ws).Holds coin (after.lastFrame ws coin) (after.publisher.l2DiffBaseline coin) := by
  intro after
  obtain ⟨baseline, sent⟩ : after.publisher.l2DiffBaseline coin = some snapshot.publishedLevels ∧
      after.publisher.sockets ws = ((history.publisher.publishL2Book coin time snapshot).sockets ws).send
        [.l2Diff coin (computeL2Diff ((history.publisher.l2DiffBaseline coin).getD ([], []))
          snapshot.publishedLevels) time] :=
    publishBookSnapshot_l2 history.publisher time snapshot subscribed
  have quiet := quiet_publishL2Book history.publisher coin coin time snapshot ws
  have told : l2Data coin (after.publisher.sockets ws).sent ≠ l2Data coin (history.publisher.sockets ws).sent := by
    rw [sent, PublisherSocket.send, l2Data_append, quiet.data]
    simp [l2Data, WireMessage.isL2Data]
  have framed : after.lastFrame ws coin = some snapshot.publishedLevels :=
    history.step_lastFrame_of_told nofun told
  rw [framed, baseline, sent]
  rcases (aligned.follows coin ws).quiet quiet Iff.rfl fun _ => rfl with unserved | ⟨-, holds⟩
  · exact absurd (quiet.received.mpr listed) unserved.unlisted
  · exact holds.send_diff time snapshot

theorem Aligned.bookSnapshot {history : L2History σ} (aligned : history.Aligned) (shown : SymbolName) (time : Nat)
    (snapshot : BookSnapshot) (fits : (PublisherInput.bookSnapshot shown time snapshot).Fits history.publisher) :
    (history.step (.bookSnapshot shown time snapshot)).Aligned := by
  have same := sameSubscriptions_bookSnapshot history.publisher shown time snapshot
  have subscribers (coin : SymbolName) (ws : σ) :
      ws ∈ (history.publisher.publishBookSnapshot shown time snapshot).subscriptionInfo .l2 coin ↔
        ws ∈ history.publisher.subscriptionInfo .l2 coin := by
    rw [same.subscribers]
  refine ⟨?_, ?_, ?_⟩
  · intro coin ws
    refine (subscribers coin ws).trans ((aligned.listed coin ws).trans ?_)
    rw [← same.active ws]
    rfl
  · intro coin ws
    by_cases reached : coin = shown ∧ ws ∈ history.publisher.subscriptionInfo .l2 shown
    · obtain ⟨rfl, subscribed⟩ := reached
      exact .inr ⟨(subscribers coin ws).mpr subscribed,
        aligned.follows_bookSnapshot coin time snapshot subscribed (fits ws subscribed)⟩
    · have other : coin = shown → ws ∉ history.publisher.subscriptionInfo .l2 shown :=
        fun sameCoin subscribed => reached ⟨sameCoin, subscribed⟩
      refine aligned.follows_of_quiet nofun (quiet_bookSnapshot _ _ _ _ _ _ other) (subscribers coin ws) ?_
      intro subscribed
      refine bookSnapshot_baseline _ _ _ _ _ ?_
      rintro rfl
      exact other rfl subscribed
  · show history.misled ++ history.misfits shown = []
    rw [aligned.fitting, aligned.misfits_eq_nil fits]
    rfl

theorem Aligned.step {history : L2History σ} (aligned : history.Aligned) {input : PublisherInput σ}
    (fits : input.Fits history.publisher) : (history.step input).Aligned := by
  cases input with
  | subscribe ws channel coin => exact aligned.subscribe ws channel coin
  | close ws => exact aligned.close ws
  | subResponse coin time response => exact aligned.subResponse coin time response fits
  | bookSnapshot coin time snapshot => exact aligned.bookSnapshot coin time snapshot fits

end L2History

/-- The histories in which every frame fits the subscribers it finds. -/
inductive Fitted {σ : Type} [DecidableEq σ] : L2History σ → Prop where
  | start : Fitted .start
  | step {history : L2History σ} {input : PublisherInput σ} :
      Fitted history → input.Fits history.publisher → Fitted (history.step input)

theorem Fitted.aligned {σ : Type} [DecidableEq σ] {history : L2History σ} (fitted : Fitted history) :
    history.Aligned := by
  induction fitted with
  | start => exact L2History.start_aligned
  | step _ fits ih => exact ih.step fits

/-- Whatever the sockets and the exchange do, subscribers converge while every frame fits. -/
theorem Fitted.converged {σ : Type} [DecidableEq σ] {history : L2History σ} (fitted : Fitted history) :
    history.Converged :=
  fitted.aligned.toConverged

/-! ## Two subscribers -/

private def bookOf (bid ask : SnapshotLevel) : BookSnapshot where
  numBid := 1
  numAsk := 1
  levels := [bid, ask]
  complete := rfl
  bidsOrdered := List.pairwise_singleton ..
  asksOrdered := List.pairwise_singleton ..

private def someCoin : SymbolName := ⟨[66, 84, 67], by decide, by decide⟩

private def firstBook : BookSnapshot := bookOf ⟨99, 5, 1⟩ ⟨101, 4, 1⟩

private def secondBook : BookSnapshot := bookOf ⟨98, 7, 1⟩ ⟨101, 4, 1⟩

/-- Two subscribers join the same book, and the next one reaches both. -/
theorem converged_sameBook :
    (([.subscribe 0 .l2 someCoin, .subResponse someCoin 1 (.l2 firstBook), .subscribe 1 .l2 someCoin,
      .subResponse someCoin 2 (.l2 firstBook), .bookSnapshot someCoin 3 secondBook] :
      List (PublisherInput Nat)).foldl L2History.step .start).Converged := by
  refine Fitted.converged (.step (.step (.step (.step (.step .start ?_) ?_) ?_) ?_) ?_)
  · trivial
  · refine .inl ?_
    decide
  · trivial
  · exact .inr rfl
  · show ∀ ws ∈ _, _
    decide

/-- The second subscriber's response moves the baseline under the first, which is never told
that the bid moved. -/
theorem not_converged_laterBook :
    ¬ ∀ inputs : List (PublisherInput Nat), (inputs.foldl L2History.step .start).Converged := by
  intro always
  have current := (always [.subscribe 0 .l2 someCoin, .subResponse someCoin 1 (.l2 firstBook),
    .subscribe 1 .l2 someCoin, .subResponse someCoin 2 (.l2 secondBook),
    .bookSnapshot someCoin 3 secondBook]).current someCoin 0 (by decide)
  exact absurd current (by decide)

end SlickSim.MdPublisher
