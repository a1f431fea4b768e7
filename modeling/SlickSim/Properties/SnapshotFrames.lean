import SlickSim.Ledger.PhantomLevels
import SlickSim.Ledger.Plans
import SlickSim.Properties.Uncrossed

/-!
# Published books

Every book snapshot and every answer to a subscriber is the book of the exchange as it is
once the input that caused it has been handled, and shows it as a venue's book has to be.
-/

set_option autoImplicit false

namespace SlickSim

open OrderBookL3 (restingOrders)

/-- The two sides of a book as a frame shows them. -/
structure ShownBook where
  bids : List SnapshotLevel
  asks : List SnapshotLevel
deriving DecidableEq, Repr

namespace ShownBook

def rows (shown : ShownBook) : BookSide → List SnapshotLevel
  | .buy => shown.bids
  | .sell => shown.asks

/-- The quantity a side shows at a price. -/
def qtyAt (shown : ShownBook) (side : BookSide) (price : Int) : Int :=
  (((shown.rows side).find? fun row => row.price = price).map SnapshotLevel.qty).getD 0

/-- Best price first on each side, nothing empty, and no bid that an ask would meet. -/
structure Valid (shown : ShownBook) : Prop where
  ordered : ∀ side, (shown.rows side).Pairwise fun left right => isPriceBetter side left.price right.price = true
  filled : ∀ side, ∀ row ∈ shown.rows side, 0 < row.qty ∧ 0 < row.numOrders
  uncrossed : ∀ bid ∈ shown.bids, ∀ ask ∈ shown.asks, bid.price < ask.price

end ShownBook

def Input.showsBook : Input → Bool
  | .level2Snapshot .. | .l2Snapshot _ | .l2Diff _ | .subscribeServed => true
  | .trades prints => !prints.isEmpty
  | .newOrder .. | .amend .. | .cancel .. | .coinbaseEvent _ | .marketOrder _ | .marketTrade _
  | .flushMarketEvents | .subscribe .. | .elsewhere _ => false

def MDFrame.shownBook : MDFrame → Option ShownBook
  | .bookSnapshot bids asks | .subResponse bids asks => some ⟨bids, asks⟩
  | .level _ | .order _ | .tradeSummary _ _ => none

/-! ## Levels -/

private theorem isPriceBetter_trans {side : BookSide} {first second third : Int}
    (left : isPriceBetter side first second = true) (right : isPriceBetter side second third = true) :
    isPriceBetter side first third = true := by
  unfold isPriceBetter at *
  cases side <;> simp at * <;> omega

theorem priceLevels_ordered {side : BookSide} {orders : List BookOrder}
    (ranked : orders.Pairwise (BookOrder.ranksBefore side)) :
    (priceLevels orders).Pairwise fun left right => isPriceBetter side left.price right.price = true := by
  generalize cut : priceLevels orders = levels
  induction levels generalizing orders with
  | nil => exact .nil
  | cons level levels ih =>
      have different := fun next more (isNext : levels = next :: more) =>
        priceLevels_next_ne (cut.trans (congrArg _ isNext))
      obtain ⟨rest, rfl, restLevels, filled, prices⟩ := priceLevels_eq_cons cut
      obtain ⟨-, restRanked, across⟩ := List.pairwise_append.mp ranked
      have later := ih restRanked restLevels
      cases levels with
      | nil => exact List.pairwise_singleton ..
      | cons next more =>
          obtain ⟨nextFilled, inside, nextPrices⟩ := mem_priceLevels (restLevels ▸ List.mem_cons_self)
          obtain ⟨front, isFront⟩ := List.exists_mem_of_ne_nil _ filled
          obtain ⟨behind, isBehind⟩ := List.exists_mem_of_ne_nil _ nextFilled
          have better : isPriceBetter side level.price next.price = true := by
            rw [← prices front isFront, ← nextPrices behind isBehind]
            refine (across front isFront behind (inside.subset isBehind)).resolve_right fun same => ?_
            exact different next more rfl
              ((nextPrices behind isBehind).symm.trans (same.1.symm.trans (prices front isFront)))
          refine .cons (fun other member => ?_) later
          rcases List.mem_cons.mp member with rfl | member
          · exact better
          · exact isPriceBetter_trans better ((List.pairwise_cons.mp later).1 other member)

namespace OrderBook

variable {β : Type} [OrderBookL3 β]

/-- What a snapshot of a book shows. -/
def shown (book : OrderBook β) : ShownBook :=
  ⟨Exchange.snapshotRows book .buy, Exchange.snapshotRows book .sell⟩

theorem shown_rows (book : OrderBook β) (side : BookSide) : book.shown.rows side = Exchange.snapshotRows book side := by
  cases side <;> rfl

/-- A snapshot shows at every price what rests there. -/
theorem shown_qtyAt {book : OrderBook β} {side : BookSide}
    (positive : ∀ order ∈ restingOrders book.l3 side, 0 < order.quantity) (price : Int) :
    book.shown.qtyAt side price = levelQty (restingOrders book.l3 side) price := by
  have level := getLevel_totalQuantity positive price
  unfold ShownBook.qtyAt
  rw [shown_rows, Exchange.snapshotRows, List.find?_map, Option.map_map]
  refine (congrArg (Option.getD · 0) level).trans ?_
  split <;> rename_i empty
  · exact empty.symm
  · rfl

theorem shown_valid {book : OrderBook β}
    (positive : ∀ side, ∀ order ∈ restingOrders book.l3 side, 0 < order.quantity)
    (uncrossed : ∀ bid ∈ restingOrders book.l3 .buy, ∀ ask ∈ restingOrders book.l3 .sell, bid.price < ask.price) :
    book.shown.Valid where
  ordered side := by
    rw [shown_rows, Exchange.snapshotRows, List.pairwise_map]
    exact priceLevels_ordered (OrderBookL3.ranked book.l3 side)
  filled side row member := by
    rw [shown_rows, Exchange.snapshotRows] at member
    obtain ⟨level, isLevel, rfl⟩ := List.mem_map.mp member
    obtain ⟨filled, inside, -⟩ := mem_priceLevels isLevel
    refine ⟨List.sum_pos _ ?_ (by simpa using filled), List.length_pos_iff.mpr filled⟩
    intro quantity isQuantity
    obtain ⟨order, isOrder, rfl⟩ := List.mem_map.mp isQuantity
    exact positive side order (inside.subset isOrder)
  uncrossed bid isBid ask isAsk := by
    obtain ⟨bidLevel, isBidLevel, rfl⟩ := List.mem_map.mp isBid
    obtain ⟨askLevel, isAskLevel, rfl⟩ := List.mem_map.mp isAsk
    obtain ⟨bidFilled, bidInside, bidPrices⟩ := mem_priceLevels isBidLevel
    obtain ⟨askFilled, askInside, askPrices⟩ := mem_priceLevels isAskLevel
    obtain ⟨bidOrder, isBidOrder⟩ := List.exists_mem_of_ne_nil _ bidFilled
    obtain ⟨askOrder, isAskOrder⟩ := List.exists_mem_of_ne_nil _ askFilled
    dsimp only
    rw [← bidPrices bidOrder isBidOrder, ← askPrices askOrder isAskOrder]
    exact uncrossed bidOrder (bidInside.subset isBidOrder) askOrder (askInside.subset isAskOrder)

end OrderBook

namespace Exchange

variable {β : Type} (exchange : Exchange β)

def shownBooks : List ShownBook :=
  exchange.mdQueue.filterMap MDFrame.shownBook

/-! ## What shows no book -/

private theorem shownBooks_of_frame {after : Exchange β} (frame : MDFrame) (silent : frame.shownBook = none)
    (published : after.mdQueue = exchange.mdQueue ++ [frame]) : after.shownBooks = exchange.shownBooks := by
  unfold shownBooks
  rw [published, List.filterMap_append, List.filterMap_cons_none silent]
  exact List.append_nil _

@[simp] private theorem setMatching_shownBooks (matching : MatchState β) :
    { exchange with matching }.shownBooks = exchange.shownBooks := rfl

@[simp] private theorem setCoinbase_shownBooks (coinbase : CoinbaseState) :
    { exchange with coinbase }.shownBooks = exchange.shownBooks := rfl

@[simp] private theorem setMarketChanged_shownBooks (marketChanged : Bool) :
    { exchange with marketChanged }.shownBooks = exchange.shownBooks := rfl

@[simp] theorem onMatching_shownBooks (change : MatchState β → MatchState β) :
    (exchange.onMatching change).shownBooks = exchange.shownBooks := rfl

@[simp] theorem onBook_shownBooks (change : OrderBook β → OrderBook β) :
    (exchange.onBook change).shownBooks = exchange.shownBooks := rfl

@[simp] theorem clientIdFor_shownBooks (userId : Name) :
    (exchange.clientIdFor userId).2.shownBooks = exchange.shownBooks := by
  unfold clientIdFor
  split
  · rfl
  · split <;> rfl

@[simp] theorem publishLevelUpdate_shownBooks (rows : List MDLevel) :
    (exchange.publishLevelUpdate rows).shownBooks = exchange.shownBooks :=
  exchange.shownBooks_of_frame (.level _) rfl rfl

@[simp] theorem publishMDOrderUpdate_shownBooks (rows : List MDOrder) :
    (exchange.publishMDOrderUpdate rows).shownBooks = exchange.shownBooks :=
  exchange.shownBooks_of_frame (.order _) rfl rfl

@[simp] theorem flushMarketDataCaches_shownBooks :
    exchange.flushMarketDataCaches.shownBooks = exchange.shownBooks := by
  unfold flushMarketDataCaches
  dsimp only
  split <;> split <;> simp

@[simp] theorem publishTradeSummary_shownBooks (summary : TradeSummaryInfo) :
    (exchange.publishTradeSummary summary).shownBooks = exchange.shownBooks :=
  exchange.shownBooks_of_frame (.tradeSummary _ _) rfl rfl

@[simp] theorem publishTradeSummaries_shownBooks (summaries : List TradeSummaryInfo) :
    (exchange.publishTradeSummaries summaries).shownBooks = exchange.shownBooks := by
  induction summaries generalizing exchange with
  | nil => rfl
  | cons summary rest ih => exact (ih _).trans (exchange.publishTradeSummary_shownBooks summary)

@[simp] theorem creditTradedQty_shownBooks (side : Side) (price phantomConsumed : Int) (eventTime : Nat) :
    (exchange.creditTradedQty side price phantomConsumed eventTime).shownBooks = exchange.shownBooks := by
  unfold creditTradedQty
  split <;> rfl

@[simp] theorem creditTrades_shownBooks (side : Side) (eventTime : Nat) (summaries : List TradeSummaryInfo) :
    (summaries.foldl (fun exchange summary =>
      (exchange.creditTradedQty side summary.price summary.phantomQty eventTime).publishTradeSummary
        summary) exchange).shownBooks = exchange.shownBooks := by
  induction summaries generalizing exchange with
  | nil => rfl
  | cons summary rest ih =>
      rw [List.foldl_cons, ih]
      simp

@[simp] theorem takeTradedQty_shownBooks (side : Side) (price : Int) (asOf : Nat) :
    (exchange.takeTradedQty side price asOf).2.shownBooks = exchange.shownBooks := by
  unfold takeTradedQty
  split
  · rfl
  · dsimp only
    split <;> rfl

@[simp] theorem noteMark_shownBooks (mark : VenueMark) :
    (exchange.noteMark mark).shownBooks = exchange.shownBooks := rfl

@[simp] theorem setRefLevels_shownBooks (side : BookSide) (prices : List Int) :
    (exchange.setRefLevels side prices).shownBooks = exchange.shownBooks := rfl

variable [OrderBookL3 β] (env : Environment) (config : SymbolConfig)

@[simp] theorem notePrint_shownBooks (before : OrderBook β) (swept : BookSide) (eventTime : Nat) :
    (exchange.notePrint before swept eventTime).shownBooks = exchange.shownBooks := rfl

theorem handleNewOrderRequest_shownBooks (header : RequestHeader) (msg : AddOrderMessage) :
    (exchange.handleNewOrderRequest env config header msg).shownBooks = exchange.shownBooks := by
  unfold handleNewOrderRequest
  split
  · rfl
  · split
    · rfl
    · dsimp only
      rw [flushMarketDataCaches_shownBooks]
      split
      · rw [onMatching_shownBooks, publishTradeSummaries_shownBooks]
        exact clientIdFor_shownBooks ..
      · rw [publishTradeSummaries_shownBooks]
        exact clientIdFor_shownBooks ..

theorem handleModifyOrderRequest_shownBooks (header : RequestHeader) (msg : ModifyOrderMessage) :
    (exchange.handleModifyOrderRequest env config header msg).shownBooks = exchange.shownBooks := by
  unfold handleModifyOrderRequest
  split
  · rfl
  · split
    · rfl
    · dsimp only
      rw [flushMarketDataCaches_shownBooks]
      split
      · rw [onMatching_shownBooks, onBook_shownBooks, publishTradeSummaries_shownBooks]
        rfl
      · rw [publishTradeSummaries_shownBooks]
        rfl

theorem handleCancelOrderRequest_shownBooks (header : RequestHeader) (msg : CancelOrderMessage) :
    (exchange.handleCancelOrderRequest env config header msg).shownBooks = exchange.shownBooks := by
  unfold handleCancelOrderRequest
  split
  · rfl
  · split
    · rfl
    · simp

@[simp] theorem restVenueQty_shownBooks (side : Side) (price qty : Int) (eventTime seqNum : Nat)
    (isLastInBatch : Bool) :
    (exchange.restVenueQty env config side price qty eventTime seqNum isLastInBatch).2.2.shownBooks =
      exchange.shownBooks := by
  unfold restVenueQty
  dsimp only
  split <;> rfl

@[simp] theorem restTimestamped_shownBooks (side : Side) (price qty : Int) (eventTimeNs : Nat) :
    (exchange.restTimestamped env config side price qty eventTimeNs).2.shownBooks = exchange.shownBooks := by
  unfold restTimestamped
  dsimp only
  split <;> rfl

@[simp] theorem reconcilePhantomQty_shownBooks (side : Side) (price targetQty : Int) (eventTime seqNum : Nat)
    (endEvent : Bool) :
    (exchange.reconcilePhantomQty side price targetQty eventTime seqNum endEvent).shownBooks =
      exchange.shownBooks := by
  unfold reconcilePhantomQty
  split
  · rfl
  · dsimp only
    simp [apply_ite Exchange.shownBooks]

@[simp] theorem nextBookSeqNum_shownBooks : exchange.nextBookSeqNum.2.shownBooks = exchange.shownBooks := rfl

@[simp] theorem placeVenueLevel_shownBooks (event : CoinbaseEvent) (bookSeqNum : Nat) (hadLevel : Bool) :
    (exchange.placeVenueLevel env config event bookSeqNum hadLevel).2.shownBooks = exchange.shownBooks := by
  unfold placeVenueLevel
  split <;> simp

@[simp] theorem bufferLevelRow_shownBooks (event : CoinbaseEvent) (hadLevel : Bool) (index : Nat)
    (action : MDUpdateAction) :
    (exchange.bufferLevelRow event hadLevel index action).shownBooks = exchange.shownBooks := by
  unfold bufferLevelRow
  dsimp only
  split
  · simp
  · split
    · split <;> simp
    · split <;> simp

theorem dispatchEvent_shownBooks (event : CoinbaseEvent) :
    (exchange.dispatchEvent env config event).shownBooks = exchange.shownBooks := by
  unfold dispatchEvent
  dsimp only
  split
  · unfold dispatchLevelUpdate
    split <;> simp
  · simp [dispatchTrade]

@[simp] theorem applySnapshotRows_shownBooks (seqNum bookSeqNum : Nat) (updates : List Level2Update) :
    (exchange.applySnapshotRows env config seqNum bookSeqNum updates).shownBooks = exchange.shownBooks := by
  induction updates generalizing exchange with
  | nil => rfl
  | cons update rest ih =>
      unfold applySnapshotRows applySnapshotRow
      dsimp only
      rw [ih]
      split <;> simp

@[simp] theorem applyL2Side_shownBooks (side : Side) (eventTimeNs : Nat) (rows : List L2Row) :
    (exchange.applyL2Side env config side eventTimeNs rows).shownBooks = exchange.shownBooks := by
  induction rows generalizing exchange with
  | nil => rfl
  | cons row rest ih =>
      unfold applyL2Side
      split
      · exact ih exchange
      · dsimp only
        rw [ih]
        simp

@[simp] theorem applyPhantomLevelUpdate_shownBooks (side : Side) (price targetQty : Int) (eventTimeNs : Nat) :
    (exchange.applyPhantomLevelUpdate env config side price targetQty eventTimeNs).shownBooks =
      exchange.shownBooks := by
  unfold applyPhantomLevelUpdate
  split
  · split
    · rfl
    · simp
  · simp

@[simp] theorem removeL2Prices_shownBooks (side : Side) (eventTimeNs : Nat) (prices : List Int) :
    (exchange.removeL2Prices env config side eventTimeNs prices).shownBooks = exchange.shownBooks := by
  induction prices generalizing exchange with
  | nil => rfl
  | cons price rest ih =>
      unfold removeL2Prices
      rw [ih]
      simp

@[simp] theorem changeL2Rows_shownBooks (side : Side) (eventTimeNs : Nat) (rows : List L2Row) :
    (exchange.changeL2Rows env config side eventTimeNs rows).shownBooks = exchange.shownBooks := by
  induction rows generalizing exchange with
  | nil => rfl
  | cons row rest ih =>
      unfold changeL2Rows
      rw [ih]
      simp

@[simp] theorem removeL2Levels_shownBooks (eventTimeNs : Nat) (removed : Option (List Nat × List Nat)) :
    (exchange.removeL2Levels env config eventTimeNs removed).shownBooks = exchange.shownBooks := by
  unfold removeL2Levels
  split
  · rfl
  · simp [removeL2Indices]

@[simp] theorem applyTrades_shownBooks (trades : List HyperliquidTrade) :
    (exchange.applyTrades env config trades).shownBooks = exchange.shownBooks := by
  unfold applyTrades
  induction trades generalizing exchange with
  | nil => rfl
  | cons trade rest ih =>
      rw [List.foldl_cons, ih]
      simp [applyTrade]

theorem applyMarketOrder_shownBooks (event : MarketOrderEvent) :
    (exchange.applyMarketOrder env config event).shownBooks = exchange.shownBooks := by
  have rests (exchange : Exchange β) : (exchange.restMarketOrder env config event).shownBooks =
      exchange.shownBooks := by
    unfold restMarketOrder
    dsimp only
    split <;> simp
  unfold applyMarketOrder
  refine (setMarketChanged_shownBooks ..).trans ?_
  split
  · exact rests _
  · rfl
  · split
    · split
      · rfl
      · exact rests _
    · exact rests _

/-! ## What shows the book -/

@[simp] theorem populateL2Snapshot_shownBooks :
    exchange.populateL2Snapshot.shownBooks = exchange.shownBooks ++ [exchange.book.shown] :=
  List.filterMap_append

@[simp] theorem populateL2SubscriptionResponse_shownBooks :
    exchange.populateL2SubscriptionResponse.shownBooks = exchange.shownBooks ++ [exchange.book.shown] :=
  List.filterMap_append

/-- So many frames were published, each with the book that was left. -/
def Shows (count : Nat) (exchange after : Exchange β) : Prop :=
  after.shownBooks = exchange.shownBooks ++ List.replicate count after.book.shown

variable {exchange} {after : Exchange β}

theorem Shows.none (silent : after.shownBooks = exchange.shownBooks) : Shows 0 exchange after :=
  silent.trans (List.append_nil _).symm

theorem finalizeL2Event_shows (silent : after.shownBooks = exchange.shownBooks) :
    ∃ count, 0 < count ∧ Shows count exchange (after.finalizeL2Event.onBook OrderBook.clearCaches) := by
  have again (exchange : Exchange β) (sent : exchange.shownBooks = after.shownBooks ++ [after.book.shown])
      (same : exchange.book.shown = after.book.shown) :
      exchange.shownBooks ++ [exchange.book.shown] = after.shownBooks ++ List.replicate 2 after.book.shown := by
    rw [sent, same, List.append_assoc]
    rfl
  have once := after.populateL2SubscriptionResponse_shownBooks
  unfold Shows finalizeL2Event
  rw [← silent]
  cases after.hyperliquid.pendingL2Book <;> cases after.hyperliquid.pendingL2
  · exact ⟨1, Nat.one_pos, after.populateL2Snapshot_shownBooks⟩
  · exact ⟨2, Nat.two_pos, (populateL2Snapshot_shownBooks _).trans (again _ once rfl)⟩
  · exact ⟨2, Nat.two_pos, (populateL2Snapshot_shownBooks _).trans (again _ once rfl)⟩
  · exact ⟨2, Nat.two_pos, (populateL2SubscriptionResponse_shownBooks _).trans (again _ once rfl)⟩

variable (exchange) in
/-- An input that concerns the book as a whole is followed by the book, and no other is. -/
theorem step_shows (input : Input) :
    ∃ count, (0 < count ↔ input.showsBook = true) ∧ Shows count exchange (exchange.step env config input) := by
  have unshown (silent : (exchange.step env config input).shownBooks = exchange.shownBooks)
      (isSilent : input.showsBook = false) : ∃ count, (0 < count ↔ input.showsBook = true) ∧
        Shows count exchange (exchange.step env config input) :=
    ⟨0, by simp [isSilent], .none silent⟩
  have shows (isShown : input.showsBook = true)
      (frames : ∃ count, 0 < count ∧ Shows count exchange (exchange.step env config input)) :
      ∃ count, (0 < count ↔ input.showsBook = true) ∧ Shows count exchange (exchange.step env config input) := by
    obtain ⟨count, some, shows⟩ := frames
    exact ⟨count, iff_of_true some isShown, shows⟩
  cases input with
  | newOrder header msg => exact unshown (exchange.handleNewOrderRequest_shownBooks ..) rfl
  | amend header msg => exact unshown (exchange.handleModifyOrderRequest_shownBooks ..) rfl
  | cancel header msg => exact unshown (exchange.handleCancelOrderRequest_shownBooks ..) rfl
  | level2Snapshot seqNum updates =>
      refine shows rfl ⟨1, Nat.one_pos, ?_⟩
      unfold step onLevel2Snapshot
      dsimp only
      split
      · exact (populateL2SubscriptionResponse_shownBooks _).trans (congrArg (· ++ _) (applySnapshotRows_shownBooks ..))
      · exact (populateL2Snapshot_shownBooks _).trans (congrArg (· ++ _) (applySnapshotRows_shownBooks ..))
  | coinbaseEvent event => exact unshown (exchange.dispatchEvent_shownBooks ..) rfl
  | l2Snapshot snapshot =>
      refine shows rfl (finalizeL2Event_shows ?_)
      simp
  | l2Diff diff =>
      refine shows rfl (finalizeL2Event_shows ?_)
      simp
  | trades prints =>
      cases prints with
      | nil => exact unshown rfl rfl
      | cons print rest =>
          refine shows rfl ⟨1, Nat.one_pos, ?_⟩
          exact (populateL2Snapshot_shownBooks _).trans (congrArg (· ++ _) (applyTrades_shownBooks ..))
  | marketOrder event => exact unshown (exchange.applyMarketOrder_shownBooks ..) rfl
  | marketTrade event =>
      refine unshown ?_ rfl
      exact (setMarketChanged_shownBooks ..).trans ((publishTradeSummaries_shownBooks ..).trans rfl)
  | flushMarketEvents =>
      refine unshown ?_ rfl
      rw [step, flushMarketEvents]
      split
      · exact exchange.flushMarketDataCaches_shownBooks
      · rfl
  | subscribe level2 l2Book l2 => exact unshown rfl rfl
  | subscribeServed => exact shows rfl ⟨1, Nat.one_pos, exchange.populateL2SubscriptionResponse_shownBooks⟩
  | elsewhere draws => exact unshown rfl rfl

/-! ## Runs -/

variable {env config}

theorem Reachable.shown_valid (reachable : Reachable env config MirrorsInPlace exchange) :
    exchange.book.shown.Valid := by
  obtain ⟨represents, -⟩ := reachable.represents
  refine OrderBook.shown_valid ?_ ?_
  · intro side order member
    exact represents.agrees.positive (OrderBookL3.findOrder_of_mem member)
  · intro bid isBid ask isAsk
    exact reachable.uncrossed _ _ _ _ (OrderBookL3.findOrder_of_mem isBid) (OrderBookL3.findOrder_of_mem isAsk)
      (OrderBookL3.side_of_mem isBid) (OrderBookL3.side_of_mem isAsk)

theorem shownBooks_valid (reachable : Reachable env config MirrorsInPlace exchange) :
    ∀ shown ∈ exchange.shownBooks, shown.Valid := by
  induction reachable with
  | new pool publishOrderUpdates => rintro _ ⟨⟩
  | @step exchange earlier input admitted inPlace ih =>
      intro shown member
      obtain ⟨count, -, shows⟩ := exchange.step_shows env config input
      rw [shows] at member
      rcases List.mem_append.mp member with earlierShown | fresh
      · exact ih shown earlierShown
      · rw [List.eq_of_mem_replicate fresh]
        exact (earlier.step input admitted inPlace).shown_valid

/-- Every book that has been published is one a venue could have, and what an input adds to
them, if it is one that shows the book at all, is the book it leaves, with the quantity that
rests at each price. -/
theorem shownBooks_depict (reachable : Reachable env config MirrorsInPlace exchange) {input : Input}
    (admitted : exchange.Admits env input) (inPlace : exchange.MirrorsInPlace input) :
    let after := exchange.step env config input
    (∀ shown ∈ after.shownBooks, shown.Valid) ∧
      ∃ count, (0 < count ↔ input.showsBook = true) ∧
        after.shownBooks = exchange.shownBooks ++ List.replicate count after.book.shown ∧
        ∀ side price, after.book.shown.qtyAt side price = levelQty (restingOrders after.book.l3 side) price := by
  have reached := reachable.step input admitted inPlace
  obtain ⟨count, some, shows⟩ := exchange.step_shows env config input
  refine ⟨shownBooks_valid reached, count, some, shows, fun side price => OrderBook.shown_qtyAt ?_ price⟩
  intro order member
  exact reached.represents.1.agrees.positive (OrderBookL3.findOrder_of_mem member)

/-- A client's order between the venue's levels, and a difference that takes one of them. -/
theorem shownBooks_depict_between :
    let env : Environment := .counted fun _ => default
    let config : SymbolConfig := .reference .cancelResting
    let exchange := (Exchange.new (fun _ => default) true : Exchange ReferenceBook).run env config
      [.l2Snapshot ⟨1, [⟨99, 7⟩, ⟨98, 2⟩], [⟨103, 1⟩]⟩, .limit 1 .buy 100 4]
    let after := exchange.step env config (.l2Diff ⟨2, some ([0], []), [], [⟨102, 3⟩]⟩)
    (after.shownBooks.map fun shown => shown.bids.map SnapshotLevel.price) = [[99, 98], [100, 98]] ∧
      ∀ shown ∈ after.shownBooks, shown.Valid := by
  intro env config exchange
  have start : Reachable env config MirrorsInPlace (Exchange.new (fun _ => default) true : Exchange ReferenceBook) :=
    .new _ _
  have reachable : Reachable env config MirrorsInPlace exchange := start.run (by decide +kernel)
  refine ⟨by decide +kernel, ?_⟩
  clear_value exchange
  exact (@shownBooks_depict ReferenceBook exchange _ env config reachable
    (.l2Diff ⟨2, some ([0], []), [], [⟨102, 3⟩]⟩) trivial trivial).1

end Exchange

end SlickSim
