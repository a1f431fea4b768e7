import SlickSim.Properties.L2RoundTrip
import SlickSim.Properties.SnapshotFrames

/-!
# One exchange after another

An exchange publishes its book, the publisher turns the frames into messages, and a second
exchange takes the messages of one socket as its venue's.
-/

set_option autoImplicit false

namespace SlickSim

open MdPublisher

namespace ShownBook

/-- The snapshot a frame carries, the bids and then the asks. -/
structure IsIn (shown : ShownBook) (snapshot : BookSnapshot) : Prop where
  numBid : snapshot.numBid = shown.bids.length
  numAsk : snapshot.numAsk = shown.asks.length
  levels : snapshot.levels = shown.bids ++ shown.asks

/-- A valid book can be written as a frame. -/
def snapshot (shown : ShownBook) (valid : shown.Valid) : BookSnapshot where
  numBid := shown.bids.length
  numAsk := shown.asks.length
  levels := shown.bids ++ shown.asks
  complete := List.length_append
  bidsOrdered := by
    rw [List.take_left' rfl]
    exact (valid.ordered .buy).imp of_decide_eq_true
  asksOrdered := by
    rw [List.drop_left' rfl]
    exact (valid.ordered .sell).imp of_decide_eq_true

/-- No row is priced with the sentinel that stands for no price, which is not the value of
any double. -/
def Priced (shown : ShownBook) : Prop :=
  ∀ side, ∀ row ∈ shown.rows side, row.price ≠ nullPrice

/-- What the publisher shows of a book. -/
def published (shown : ShownBook) (side : BookSide) : L2Levels :=
  ((shown.rows side).take l2PublishDepth).map SnapshotLevel.toL2

theorem IsIn.publishedLevels {shown : ShownBook} {snapshot : BookSnapshot} (isIn : shown.IsIn snapshot) :
    snapshot.publishedLevels = (shown.published .buy, shown.published .sell) := by
  have capped (rows : List SnapshotLevel) : rows.take (min rows.length l2PublishDepth) = rows.take l2PublishDepth := by
    rw [Nat.min_comm]
    exact List.take_eq_take_min.symm
  unfold BookSnapshot.publishedLevels BookSnapshot.publishedRows published
  dsimp only [rows]
  rw [isIn.numBid, isIn.numAsk, isIn.levels, List.take_append_of_le_length (Nat.min_le_left ..),
    List.drop_left' rfl, capped, capped]

theorem mem_published {shown : ShownBook} {side : BookSide} {level : Int × Int}
    (member : level ∈ shown.published side) : ∃ row ∈ shown.rows side, SnapshotLevel.toL2 row = level := by
  obtain ⟨row, isRow, same⟩ := List.mem_map.mp member
  exact ⟨row, List.mem_of_mem_take isRow, same⟩

/-- A book the publisher shows is one that a venue could have. -/
def venueBook (shown : ShownBook) (valid : shown.Valid) (priced : shown.Priced) : VenueBook where
  bids := shown.published .buy
  asks := shown.published .sell
  ordered := by
    have isIn : shown.IsIn (shown.snapshot valid) := ⟨rfl, rfl, rfl⟩
    rw [← isIn.publishedLevels]
    exact BookSnapshot.publishedLevels_ordered _
  uncrossed := by
    intro bid isBid ask isAsk
    obtain ⟨bidRow, isBidRow, rfl⟩ := mem_published isBid
    obtain ⟨askRow, isAskRow, rfl⟩ := mem_published isAsk
    exact valid.uncrossed bidRow isBidRow askRow isAskRow
  positive := by
    intro level member
    rcases List.mem_append.mp member with isBid | isAsk
    · obtain ⟨row, isRow, rfl⟩ := mem_published isBid
      exact (valid.filled .buy row isRow).1
    · obtain ⟨row, isRow, rfl⟩ := mem_published isAsk
      exact (valid.filled .sell row isRow).1
  priced := by
    intro level member
    rcases List.mem_append.mp member with isBid | isAsk
    · obtain ⟨row, isRow, rfl⟩ := mem_published isBid
      exact priced .buy row isRow
    · obtain ⟨row, isRow, rfl⟩ := mem_published isAsk
      exact priced .sell row isRow

end ShownBook

/-! ## What a socket is told -/

namespace MdPublisher

/-- The frame about a coin that an input brings to the channel `l2`. -/
def PublisherInput.l2Frame {σ : Type} (coin : SymbolName) : PublisherInput σ → Option BookSnapshot
  | subResponse other _ (.l2 snapshot) => if other = coin then some snapshot else none
  | bookSnapshot other _ snapshot => if other = coin then some snapshot else none
  | _ => none

/-- Messages about the books of a venue: each difference is the one to the book told before it. -/
inductive ToldBooks (coin : SymbolName) : List WireMessage → VenueBook → Prop where
  | first (time : Nat) {snapshot : BookSnapshot} {book : VenueBook}
      (shows : snapshot.publishedLevels = (book.bids, book.asks)) :
      ToldBooks coin [.l2Snapshot coin time snapshot.publishedRows.1 snapshot.publishedRows.2] book
  | again {earlier : List WireMessage} {prev : VenueBook} (told : ToldBooks coin earlier prev) (time : Nat)
      {snapshot : BookSnapshot} {book : VenueBook} (shows : snapshot.publishedLevels = (book.bids, book.asks)) :
      ToldBooks coin (earlier ++ [.l2Snapshot coin time snapshot.publishedRows.1 snapshot.publishedRows.2]) book
  | diff {earlier : List WireMessage} {prev curr : VenueBook} (told : ToldBooks coin earlier prev) (time : Nat) :
      ToldBooks coin (earlier ++ [.l2Diff coin (computeL2Diff (prev.bids, prev.asks) (curr.bids, curr.asks)) time]) curr

/-- A subscriber that has been told of a book holds it. -/
theorem ToldBooks.held {coin : SymbolName} {messages : List WireMessage} {book : VenueBook}
    (told : ToldBooks coin messages book) : messages.foldl L2Levels.receive none = some (book.bids, book.asks) := by
  induction told with
  | first time shows => exact congrArg some shows
  | again _ time shows =>
      rw [List.foldl_concat]
      exact congrArg some shows
  | @diff earlier prev curr _ time ih =>
      rw [List.foldl_concat, ih]
      exact computeL2Diff_receive prev.ordered curr.ordered coin time

/-- What a socket has been told of a coin after an input: what it was told before, and at most
the frame the input brings. -/
inductive TellsNext (coin : SymbolName) (frame : Option BookSnapshot) (held : Option (L2Levels × L2Levels))
    (before : List WireMessage) : List WireMessage → Prop where
  | closed : TellsNext coin frame held before []
  | quiet : TellsNext coin frame held before before
  | snapshot (time : Nat) {snapshot : BookSnapshot} (isFrame : frame = some snapshot) :
      TellsNext coin frame held before
        (before ++ [.l2Snapshot coin time snapshot.publishedRows.1 snapshot.publishedRows.2])
  | diff (time : Nat) {snapshot : BookSnapshot} {book : L2Levels × L2Levels} (isFrame : frame = some snapshot)
      (isHeld : held = some book) :
      TellsNext coin frame held before
        (before ++ [.l2Diff coin (computeL2Diff book snapshot.publishedLevels) time])

namespace L2History

variable {σ : Type} [DecidableEq σ] {history : L2History σ}

private theorem response_tellsNext (history : L2History σ) (answered coin : SymbolName) (time : Nat)
    (response : MDSubscriptionResponse) (ws : σ) :
    TellsNext coin (PublisherInput.l2Frame coin (.subResponse answered time response : PublisherInput σ))
      (history.held ws coin) (l2Data coin (history.publisher.sockets ws).sent)
      (l2Data coin ((history.publisher.publishSubscriptionResponse answered time response).sockets ws).sent) := by
  by_cases other : ∀ snapshot, response = .l2 snapshot → coin ≠ answered
  · rw [(quiet_response history.publisher answered coin time response other ws).data]
    exact .quiet
  · push Not at other
    obtain ⟨snapshot, rfl, rfl⟩ := other
    by_cases subscribed : ws ∈ history.publisher.subscriptionInfo .l2 coin
    · obtain ⟨-, responded⟩ := publishSubscriptionResponse_l2 history.publisher time snapshot subscribed
      rw [responded]
      by_cases waits : coin ∈ ((history.publisher.sockets ws).subs .l2).pending
      · rw [(PublisherSocket.respond_told _ waits ..).1]
        exact .snapshot time (if_pos rfl)
      · rw [PublisherSocket.respond, if_neg waits]
        exact .quiet
    · have untouched : (history.publisher.publishSubscriptionResponse coin time (.l2 snapshot)).sockets ws =
          history.publisher.sockets ws := by
        unfold HyperliquidPublisher.publishSubscriptionResponse
        dsimp only [MDSubscriptionResponse.channel]
        split
        · rfl
        · exact if_neg subscribed
      rw [untouched]
      exact .quiet

theorem Aligned.tellsNext (aligned : history.Aligned) {input : PublisherInput σ}
    (fits : input.Fits history.publisher) (ws : σ) (coin : SymbolName) :
    TellsNext coin (input.l2Frame coin) (history.held ws coin) (l2Data coin (history.publisher.sockets ws).sent)
      (l2Data coin ((history.publisher.step input).sockets ws).sent) := by
  cases input with
  | subscribe subscriber channel other =>
      have same : ((history.publisher.step (.subscribe subscriber channel other)).sockets ws).sent =
          (history.publisher.sockets ws).sent := by
        show PublisherSocket.sent (Function.update history.publisher.sockets _ _ ws) = _
        rw [Function.update_apply]
        split <;> rename_i same
        · rw [same]
          rfl
        · rfl
      rw [same]
      exact .quiet
  | close closed =>
      show TellsNext _ _ _ _ (l2Data coin (PublisherSocket.sent (Function.update history.publisher.sockets _ _ ws)))
      rw [Function.update_apply]
      split
      · exact .closed
      · exact .quiet
  | subResponse answered time response => exact response_tellsNext history answered coin time response ws
  | bookSnapshot shown time snapshot =>
      by_cases reached : coin = shown ∧ ws ∈ history.publisher.subscriptionInfo .l2 shown
      · obtain ⟨rfl, subscribed⟩ := reached
        obtain ⟨-, sent⟩ := publishBookSnapshot_l2 history.publisher time snapshot subscribed
        have quiet := quiet_publishL2Book history.publisher coin coin time snapshot ws
        rcases aligned.follows coin ws with unserved | ⟨-, holds⟩
        · exact absurd (fits ws subscribed) unserved.unlisted
        · obtain ⟨book, isBaseline, -⟩ := holds.ordered
          show TellsNext _ _ _ _ (l2Data coin ((history.publisher.publishBookSnapshot coin time snapshot).sockets ws).sent)
          rw [sent, PublisherSocket.send, l2Data_append, quiet.data, isBaseline]
          have only : l2Data coin [.l2Diff coin (computeL2Diff book snapshot.publishedLevels) time] =
              [.l2Diff coin (computeL2Diff book snapshot.publishedLevels) time] := by
            simp [l2Data, WireMessage.isL2Data]
          rw [Option.getD_some, only]
          exact .diff time (if_pos rfl) (holds.held.trans isBaseline)
      · have other : coin = shown → ws ∉ history.publisher.subscriptionInfo .l2 shown :=
          fun sameCoin subscribed => reached ⟨sameCoin, subscribed⟩
        show TellsNext _ _ _ _ (l2Data coin ((history.publisher.publishBookSnapshot shown time snapshot).sockets ws).sent)
        rw [(quiet_bookSnapshot history.publisher shown coin time snapshot ws other).data]
        exact .quiet

/-- The histories in which every frame fits the subscribers it finds, and those about a coin are
of one kind. -/
inductive Fed (frames : BookSnapshot → Prop) (coin : SymbolName) : L2History σ → Prop where
  | start : Fed frames coin .start
  | step {history : L2History σ} {input : PublisherInput σ} (fed : Fed frames coin history)
      (fits : input.Fits history.publisher) (framed : ∀ snapshot ∈ input.l2Frame coin, frames snapshot) :
      Fed frames coin (history.step input)

variable {frames : BookSnapshot → Prop} {coin : SymbolName}

theorem Fed.fitted (fed : Fed frames coin history) : Fitted history := by
  induction fed with
  | start => exact .start
  | step _ fits _ ih => exact ih.step fits

/-- Whatever the sockets do, each of them is told of one venue's books, and last of a frame's. -/
theorem Fed.told (fed : Fed frames coin history)
    (venue : ∀ snapshot, frames snapshot → ∃ book : VenueBook, snapshot.publishedLevels = (book.bids, book.asks))
    (ws : σ) :
    l2Data coin (history.publisher.sockets ws).sent = [] ∨
      ∃ snapshot, frames snapshot ∧ ∃ book : VenueBook, snapshot.publishedLevels = (book.bids, book.asks) ∧
        ToldBooks coin (l2Data coin (history.publisher.sockets ws).sent) book := by
  induction fed with
  | start => exact .inl rfl
  | @step history input earlier fits framed ih =>
      have next := earlier.fitted.aligned.tellsNext fits ws coin
      change TellsNext _ _ _ _ (l2Data coin ((history.step input).publisher.sockets ws).sent) at next
      generalize l2Data coin ((history.step input).publisher.sockets ws).sent = after at next ⊢
      cases next with
      | closed => exact .inl rfl
      | quiet => exact ih
      | snapshot time isFrame =>
          obtain ⟨book, shows⟩ := venue _ (framed _ isFrame)
          rcases ih with nothing | ⟨_, -, prev, -, told⟩
          · rw [nothing]
            exact .inr ⟨_, framed _ isFrame, book, shows, .first time shows⟩
          · exact .inr ⟨_, framed _ isFrame, book, shows, told.again time shows⟩
      | diff time isFrame isHeld =>
          obtain ⟨curr, shows⟩ := venue _ (framed _ isFrame)
          unfold held heldBook at isHeld
          rcases ih with nothing | ⟨_, -, prev, -, told⟩
          · rw [nothing] at isHeld
            cases isHeld
          · obtain rfl := Option.some.inj (told.held.symm.trans isHeld)
            refine .inr ⟨_, framed _ isFrame, curr, shows, ?_⟩
            rw [shows]
            exact told.diff time

end L2History

end MdPublisher

/-! ## What the second exchange makes of it -/

namespace Exchange

variable {β γ : Type} [OrderBookL3 β] [OrderBookL3 γ] {env otherEnv : Environment}
  {config otherConfig : SymbolConfig}

/-- A message taken as the venue's. -/
def consume (env : Environment) (config : SymbolConfig) (exchange : Exchange β) : WireMessage → Exchange β
  | .l2Snapshot _ time bids asks =>
      exchange.processL2Snapshot env config
        ⟨time, L2Levels.rows (bids.map SnapshotLevel.toL2), L2Levels.rows (asks.map SnapshotLevel.toL2)⟩
  | .l2Diff _ diff time =>
      exchange.processL2Diff env config
        ⟨time, some diff.removed, L2Levels.rows diff.changed.1, L2Levels.rows diff.changed.2⟩
  | _ => exchange

theorem consume_snapshot_mirrors {exchange : Exchange β} (untraded : exchange.Untraded) (coin : SymbolName)
    (time : Nat) {snapshot : BookSnapshot} {book : VenueBook}
    (shows : snapshot.publishedLevels = (book.bids, book.asks)) :
    exchange.Mirrors (exchange.consume env config
      (.l2Snapshot coin time snapshot.publishedRows.1 snapshot.publishedRows.2)) book.levels := by
  obtain ⟨bids, asks⟩ := Prod.mk.inj shows
  have taken := processL2Snapshot_mirrors env config untraded book time
  rw [VenueBook.snapshotAt, ← bids, ← asks] at taken
  exact taken

theorem mirrors_of_told {coin : SymbolName} {messages : List WireMessage} {book : VenueBook}
    (told : ToldBooks coin messages book) {exchange : Exchange β} (untraded : exchange.Untraded) :
    exchange.Mirrors (messages.foldl (consume env config) exchange) book.levels := by
  induction told with
  | first time shows => exact consume_snapshot_mirrors untraded coin time shows
  | again _ time shows ih =>
      rw [List.foldl_concat]
      have next := @consume_snapshot_mirrors β _ env config _ ih.untraded coin time _ _ shows
      exact { next with unfilled := ih.unfilled.trans next.unfilled }
  | @diff earlier prev curr _ time ih =>
      rw [List.foldl_concat]
      exact ih.processL2Diff env config curr time

end Exchange

end SlickSim
