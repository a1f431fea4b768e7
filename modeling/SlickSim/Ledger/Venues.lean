import SlickSim.Ledger.Feeds
import SlickSim.Ledger.Totals

/-!
# Venue events are runs of the ledger machine

Coinbase snapshots and sequenced events, Hyperliquid snapshots, diffs and
trades. Events of several rows are taken row by row; what is asked of a permit
is asked of the exchange as the rows before have left it.
-/

set_option autoImplicit false

namespace SlickSim

open OrderBookL3 (Regresses)

namespace MatchState.FeedRun

variable {β : Type} [OrderBookL3 β] {env : Environment} {permit : Permit} {seqNum : Nat}
  {first second third : MatchState β}

/-- What neither the ledger nor the sequence of the book can see. -/
theorem unseen (run : first.FeedRun env permit seqNum second) (sameLedger : third.ledger = second.ledger)
    (sameL3 : third.book.l3 = second.book.l3) : first.FeedRun env permit seqNum third :=
  ⟨sameLedger ▸ run.micros, sameL3 ▸ run.current⟩

end MatchState.FeedRun

namespace Exchange

variable {β : Type} [OrderBookL3 β] {env : Environment} {permit : Permit} {seqNum : Nat}
  {exchange other : Exchange β} {config : SymbolConfig} {start : MatchState β}

/-! ## What only market data sees -/

section Unseen

omit [OrderBookL3 β] in
@[simp] theorem creditTradedQty_matching (side : Side) (price qty : Int) (eventTime : Nat) :
    (exchange.creditTradedQty side price qty eventTime).matching = exchange.matching := by
  unfold creditTradedQty
  split <;> rfl

omit [OrderBookL3 β] in
@[simp] theorem publishTradeSummary_matching (summary : TradeSummaryInfo) :
    (exchange.publishTradeSummary summary).matching = exchange.matching := rfl

omit [OrderBookL3 β] in
@[simp] theorem creditSummaries_matching (side : Side) (eventTime : Nat)
    (summaries : List TradeSummaryInfo) :
    (summaries.foldl (fun exchange summary => (exchange.creditTradedQty side summary.price
      summary.phantomQty eventTime).publishTradeSummary summary) exchange).matching =
      exchange.matching := by
  induction summaries generalizing exchange with
  | nil => rfl
  | cons summary rest ih =>
      rw [List.foldl_cons, ih, publishTradeSummary_matching, creditTradedQty_matching]

@[simp] theorem populateL2Snapshot_matching :
    exchange.populateL2Snapshot.matching = exchange.matching := rfl

@[simp] theorem populateL2SubscriptionResponse_matching :
    exchange.populateL2SubscriptionResponse.matching = exchange.matching := rfl

omit [OrderBookL3 β] in
@[simp] theorem setRefLevels_matching (side : BookSide) (prices : List Int) :
    (exchange.setRefLevels side prices).matching = exchange.matching := rfl

@[simp] theorem finalizeL2Event_matching : exchange.finalizeL2Event.matching = exchange.matching := by
  unfold finalizeL2Event
  dsimp only
  split <;> split <;> split <;> rfl

@[simp] theorem bufferLevelRow_matching (event : CoinbaseEvent) (hadLevel : Bool) (index : Nat)
    (action : MDUpdateAction) :
    (exchange.bufferLevelRow event hadLevel index action).matching = exchange.matching := by
  unfold bufferLevelRow
  dsimp only
  split
  · rfl
  · split <;> split <;> rfl

theorem FeedRun.flush (run : start.FeedRun env permit seqNum exchange.matching) :
    start.FeedRun env permit seqNum exchange.flushMarketDataCaches.matching := by
  rw [flushMarketDataCaches_matching]
  exact run.unseen rfl rfl

theorem FeedRun.setLastUpdate (run : start.FeedRun env permit seqNum exchange.matching)
    (timestamp lastSeqNum : Nat) :
    start.FeedRun env permit seqNum
      (exchange.onBook fun book => book.setLastUpdate timestamp lastSeqNum).matching :=
  run.unseen rfl rfl

end Unseen

/-- A snapshot first drops everything that is not ours. -/
theorem clearMDOrders_run (inv : exchange.ledger.Represents .none) :
    Micros env permit (.none, exchange.ledger) (.none, (exchange.onBook OrderBook.clearMDOrders).ledger) ∧
      (exchange.onBook OrderBook.clearMDOrders).ledger.Ranked := by
  obtain ⟨trail, cleared, retold⟩ := OrderBook.clearMDOrders_ledger inv
  have cleared : (exchange.onBook OrderBook.clearMDOrders).ledger = { exchange.ledger with
      entry := fun id => if (exchange.ledger.owner id).isSome then exchange.ledger.entry id else none
      totals := fun _ => none
      trail } := cleared
  rw [cleared]
  refine ⟨.single (.clearMD retold), ?_⟩
  intro id resting found
  dsimp only at found
  split at found <;> rename_i ours
  · obtain ⟨ref, ours⟩ := Option.isSome_iff_exists.mp ours
    have inside := inv.indexed.registered ours
    obtain ⟨isEntry, -⟩ := (inv.agrees.at_ ref).rests inside (by rintro ⟨⟩)
    rw [inv.indexed.owner_id ours, found] at isEntry
    rw [Option.some.inj isEntry]
    exact ((inv.agrees.at_ ref).ranked inside).2
  · cases found

/-! ## Coinbase -/

section Coinbase

omit [OrderBookL3 β] in
theorem nextBookSeqNum_current [OrderBookL3 β] (exchange : Exchange β) :
    ¬ Regresses exchange.nextBookSeqNum.2.book.l3 exchange.nextBookSeqNum.1 := by
  rintro ⟨-, stale⟩
  have stale : max exchange.coinbase.nextBookSeqNum (OrderBookL3.lastSeqNum exchange.book.l3) + 1 <
    OrderBookL3.lastSeqNum exchange.book.l3 := stale
  omega

variable (env config) in
theorem placeVenueLevel_run {event : CoinbaseEvent} (hadLevel : Bool)
    (inv : exchange.ledger.Represents .none) (current : ¬ Regresses exchange.book.l3 seqNum)
    (mayJoin : exchange.ledger.MayJoin permit (toBookSide event.side) event.price
      exchange.ledger.Draws) :
    exchange.matching.FeedRun env permit seqNum
      (exchange.placeVenueLevel env config event seqNum hadLevel).2.matching := by
  unfold placeVenueLevel
  split
  · refine FeedRun.flush ?_
    rw [publishTradeSummaries_matching]
    exact (restVenueQty_run env config event.side event.price event.eventTime event.flags.endEvent inv
      current event.qty_nonneg (fun _ => mayJoin)).1
  · exact reconcilePhantomQty_run env event.side event.price event.qty event.eventTime
      event.flags.endEvent inv current (fun _ => mayJoin)

variable (env config) in
theorem dispatchLevelUpdate_run {event : CoinbaseEvent} (inv : exchange.ledger.Represents .none)
    (current : ¬ Regresses exchange.book.l3 seqNum)
    (mayJoin : exchange.ledger.MayJoin permit (toBookSide event.side) event.price
      exchange.ledger.Draws) :
    exchange.matching.FeedRun env permit seqNum
      (exchange.dispatchLevelUpdate env config event seqNum).matching := by
  unfold dispatchLevelUpdate
  split
  · exact .refl current
  dsimp only
  rw [bufferLevelRow_matching]
  exact FeedRun.setLastUpdate (placeVenueLevel_run env config _ inv current mayJoin) _ _

variable (env config) in
theorem dispatchTrade_run {event : CoinbaseEvent} (inv : exchange.ledger.Represents .none)
    (current : ¬ Regresses exchange.book.l3 seqNum)
    (mayJoin : exchange.ledger.MayJoin permit (toBookSide event.side) event.price
      exchange.ledger.Draws) :
    exchange.matching.FeedRun env permit seqNum
      (exchange.dispatchTrade env config event seqNum).matching := by
  unfold dispatchTrade
  dsimp only
  refine FeedRun.flush ?_
  rw [creditSummaries_matching]
  exact (restVenueQty_run env config event.side event.price event.eventTime event.flags.endEvent inv
    current event.qty_nonneg (fun _ => mayJoin)).1

variable (env config) in
theorem dispatchEvent_micros {event : CoinbaseEvent} (inv : exchange.ledger.Represents .none)
    (mayJoin : exchange.ledger.MayJoin permit (toBookSide event.side) event.price
      exchange.ledger.Draws) :
    Micros env permit (.none, exchange.ledger)
      (.none, (exchange.dispatchEvent env config event).ledger) := by
  have current := nextBookSeqNum_current exchange
  unfold dispatchEvent
  dsimp only
  cases event.type with
  | levelUpdate =>
      exact (@dispatchLevelUpdate_run β _ env permit _ exchange.nextBookSeqNum.2 config event inv current
        mayJoin).micros
  | trade =>
      exact (@dispatchTrade_run β _ env permit _ exchange.nextBookSeqNum.2 config event inv current
        mayJoin).micros

theorem applySnapshotRow_unseen (venueSeqNum : Nat) (update : Level2Update) (isLast : Bool) :
    let rested := (exchange.restVenueQty env config update.side update.price update.newQuantity
      update.eventTime seqNum isLast).2.2
    let applied := exchange.applySnapshotRow env config venueSeqNum seqNum update isLast
    applied.matching.ledger = rested.matching.ledger ∧
      applied.matching.book.l3 = rested.matching.book.l3 := by
  unfold applySnapshotRow
  dsimp only
  split
  · rw [onBook_matching, publishTradeSummaries_matching]
    exact ⟨rfl, rfl⟩
  · rw [publishTradeSummaries_matching]
    exact ⟨rfl, rfl⟩

variable (env config) in
theorem applySnapshotRows_run (venueSeqNum : Nat) (updates : List Level2Update)
    (inv : exchange.ledger.Represents .none) (current : ¬ Regresses exchange.book.l3 seqNum)
    (ranked : exchange.ledger.Ranked)
    (mayJoin : ∀ ledger : Ledger, ledger.Ranked → ∀ update ∈ updates,
      ledger.MayJoin permit (toBookSide update.side) update.price ledger.Draws) :
    exchange.matching.FeedRun env permit seqNum
      (exchange.applySnapshotRows env config venueSeqNum seqNum updates).matching := by
  induction updates generalizing exchange with
  | nil => exact .refl current
  | cons update rest ih =>
      obtain ⟨run, rankedAfter⟩ := restVenueQty_run env config update.side update.price update.eventTime
        rest.isEmpty inv current update.newQuantity_nonneg
        (fun _ => mayJoin _ ranked update List.mem_cons_self)
      obtain ⟨sameLedger, sameL3⟩ :=
        @applySnapshotRow_unseen β _ env seqNum exchange config venueSeqNum update rest.isEmpty
      have applied := run.unseen sameLedger sameL3
      refine applied.trans (ih (applied.represents inv) applied.current ?_ ?_)
      · unfold Exchange.ledger
        rw [sameLedger]
        exact rankedAfter ranked
      · intro ledger isRanked later member
        exact mayJoin ledger isRanked later (List.mem_cons_of_mem _ member)

variable (env config) in
theorem onLevel2Snapshot_micros (venueSeqNum : Nat) (updates : List Level2Update)
    (inv : exchange.ledger.Represents .none)
    (mayJoin : ∀ ledger : Ledger, ledger.Ranked → ∀ update ∈ updates,
      ledger.MayJoin permit (toBookSide update.side) update.price ledger.Draws) :
    Micros env permit (.none, exchange.ledger)
      (.none, (exchange.onLevel2Snapshot env config venueSeqNum updates).ledger) := by
  obtain ⟨clears, ranked⟩ := @clearMDOrders_run β _ env permit exchange inv
  have clearedInv := clears.represents inv
  let cleared : Exchange β := (exchange.onBook OrderBook.clearMDOrders).noteMark .rebuilt
  let reset : Exchange β := { cleared with
    coinbase := { cleared.coinbase with levelUpdateBuffer := [], lastPublishedLevelSeqNum := 0 } }
  have rows := @applySnapshotRows_run β _ env permit reset.nextBookSeqNum.1 reset.nextBookSeqNum.2 config
    venueSeqNum updates.reverse clearedInv (nextBookSeqNum_current reset) ranked
    (fun ledger isRanked update member => mayJoin ledger isRanked update (List.mem_reverse.mp member))
  refine clears.trans ?_
  unfold onLevel2Snapshot
  dsimp only
  refine (MatchState.FeedRun.unseen rows ?_ ?_).micros
  · split <;> rfl
  · split <;> rfl

end Coinbase

/-! ## Hyperliquid -/

section Hyperliquid

/-- What a timestamped row needs of a permit. -/
def StampedJoin (permit : Permit) (exchange : Exchange β) (side : Side) (price qty : Int)
    (eventTimeNs : Nat) : Prop :=
  exchange.LeavesQty side price qty → exchange.ledger.MayJoin permit (toBookSide side) price
    (fun _ => (· = eventTimeNs))

/-- What a row of a diff needs of a permit. -/
def LevelJoin (permit : Permit) (exchange : Exchange β) (side : Side) (price targetQty : Int)
    (eventTimeNs : Nat) : Prop :=
  match OrderBookL3.getLevel exchange.book.l3 (toBookSide side) price with
  | none => 0 < targetQty → exchange.StampedJoin permit side price targetQty eventTimeNs
  | some _ => exchange.book.getMDLevelQty price < max targetQty 0 → exchange.ledger.MayJoin permit
      (toBookSide side) price exchange.ledger.Draws

/-- A condition on every row, for the exchange as the rows before it have left it. -/
def BeforeEach {ρ : Type} (apply : Exchange β → List ρ → Exchange β)
    (condition : Exchange β → ρ → Prop) (exchange : Exchange β) (rows : List ρ) : Prop :=
  ∀ earlier row later, rows = earlier ++ row :: later → condition (apply exchange earlier) row

omit [OrderBookL3 β] in
theorem BeforeEach.cons {ρ : Type} {apply : Exchange β → List ρ → Exchange β}
    {condition : Exchange β → ρ → Prop} {row : ρ} {rest : List ρ}
    (start : ∀ exchange, apply exchange [] = exchange)
    (step : ∀ exchange row rest, apply exchange (row :: rest) = apply (apply exchange [row]) rest)
    (each : exchange.BeforeEach apply condition (row :: rest)) :
    condition exchange row ∧ (apply exchange [row]).BeforeEach apply condition rest := by
  refine ⟨start exchange ▸ each [] row rest rfl, ?_⟩
  intro earlier next later isRest
  rw [← step]
  exact each (row :: earlier) next later (by rw [isRest]; rfl)

omit [OrderBookL3 β] in
theorem BeforeEach.imp {ρ : Type} {apply : Exchange β → List ρ → Exchange β}
    {condition other : Exchange β → ρ → Prop} {rows : List ρ}
    (each : exchange.BeforeEach apply condition rows)
    (implies : ∀ exchange row, condition exchange row → other exchange row) :
    exchange.BeforeEach apply other rows :=
  fun earlier row later cut => implies _ _ (each earlier row later cut)

instance {ρ : Type} {apply : Exchange β → List ρ → Exchange β} {condition : Exchange β → ρ → Prop}
    [∀ exchange row, Decidable (condition exchange row)] (exchange : Exchange β) (rows : List ρ) :
    Decidable (exchange.BeforeEach apply condition rows) :=
  decidable_of_iff (∀ place : Fin rows.length, condition (apply exchange (rows.take place)) rows[place]) <| by
    constructor
    · rintro each earlier row later rfl
      have here := each ⟨earlier.length, by simp⟩
      simpa using here
    · intro each place
      exact each _ _ (rows.drop (place + 1)) (by simp)

variable (env config) in
theorem applyPhantomLevelUpdate_run (side : Side) (price targetQty : Int) (eventTimeNs : Nat)
    (inv : exchange.ledger.Represents .none)
    (mayJoin : exchange.LevelJoin permit side price targetQty eventTimeNs) :
    exchange.matching.FeedRun env permit 0
      (exchange.applyPhantomLevelUpdate env config side price targetQty eventTimeNs).matching := by
  have current : ¬ Regresses exchange.book.l3 0 := fun stale => stale.1.false
  unfold LevelJoin at mayJoin
  unfold applyPhantomLevelUpdate
  split <;> rename_i level
  · rw [level] at mayJoin
    split <;> rename_i more
    · exact .refl current
    · dsimp only
      rw [publishTradeSummaries_matching]
      exact restTimestamped_run env config side price targetQty eventTimeNs inv (mayJoin (by omega))
  · rw [level] at mayJoin
    exact reconcilePhantomQty_run env side price targetQty eventTimeNs true inv current mayJoin

section Rows

variable (env config) (side : Side) (eventTimeNs : Nat)

theorem applyL2Side_run (rows : List L2Row) (inv : exchange.ledger.Represents .none)
    (mayJoin : exchange.BeforeEach (fun exchange => exchange.applyL2Side env config side eventTimeNs)
      (fun exchange row => exchange.StampedJoin permit side row.price row.qty eventTimeNs) rows) :
    exchange.matching.FeedRun env permit 0
      (exchange.applyL2Side env config side eventTimeNs rows).matching := by
  have current : ¬ Regresses exchange.book.l3 0 := fun stale => stale.1.false
  induction rows generalizing exchange with
  | nil => exact .refl current
  | cons row rest ih =>
      have step : ∀ (exchange : Exchange β) (row : L2Row) (rest : List L2Row),
          exchange.applyL2Side env config side eventTimeNs (row :: rest) =
            (exchange.applyL2Side env config side eventTimeNs [row]).applyL2Side env config side
              eventTimeNs rest := by
        intro exchange row rest
        simp only [applyL2Side]
        split <;> rfl
      obtain ⟨first, rest⟩ := mayJoin.cons (fun _ => rfl) step
      have applied : exchange.matching.FeedRun env permit 0
          (exchange.applyL2Side env config side eventTimeNs [row]).matching := by
        unfold applyL2Side
        split
        · exact .refl current
        · dsimp only
          refine MatchState.FeedRun.unseen (restTimestamped_run env config side row.price row.qty
            eventTimeNs inv first) ?_ ?_
          · simp only [applyL2Side, setRefLevels_matching, publishTradeSummaries_matching]
          · simp only [applyL2Side, setRefLevels_matching, publishTradeSummaries_matching]
      rw [step]
      exact applied.trans (ih (applied.represents inv) rest applied.current)

/-- Removing levels only takes quantity off: no total is below 0 to be brought up. -/
theorem removeL2Prices_run (prices : List Int) (inv : exchange.ledger.Represents .none)
    (totalled : exchange.ledger.Totalled) :
    exchange.matching.FeedRun env permit 0
      (exchange.removeL2Prices env config side eventTimeNs prices).matching := by
  induction prices generalizing exchange with
  | nil => exact .refl fun stale => stale.1.false
  | cons price rest ih =>
      have joinsNone : exchange.LevelJoin permit side price 0 eventTimeNs := by
        unfold LevelJoin
        split
        · omega
        · intro short
          have nonneg : 0 ≤ exchange.book.getMDLevelQty price := totalled.nonneg inv price
          omega
      have applied : exchange.matching.FeedRun env permit 0
          (exchange.removeL2Prices env config side eventTimeNs [price]).matching :=
        applyPhantomLevelUpdate_run env config side price 0 eventTimeNs inv joinsNone
      exact applied.trans (ih (applied.represents inv) (applied.micros.totalled inv totalled))

theorem changeL2Rows_run (rows : List L2Row) (inv : exchange.ledger.Represents .none)
    (mayJoin : exchange.BeforeEach (fun exchange => exchange.changeL2Rows env config side eventTimeNs)
      (fun exchange row => exchange.LevelJoin permit side row.price row.qty eventTimeNs) rows) :
    exchange.matching.FeedRun env permit 0
      (exchange.changeL2Rows env config side eventTimeNs rows).matching := by
  induction rows generalizing exchange with
  | nil => exact .refl fun stale => stale.1.false
  | cons row rest ih =>
      obtain ⟨first, rest⟩ := mayJoin.cons (fun _ => rfl) (fun _ _ _ => rfl)
      have applied : exchange.matching.FeedRun env permit 0
          (exchange.changeL2Rows env config side eventTimeNs [row]).matching :=
        applyPhantomLevelUpdate_run env config side row.price row.qty eventTimeNs inv first
      exact applied.trans (ih (applied.represents inv) rest)

end Rows

def EachSnapshotRow (condition : Side → Nat → Exchange β → L2Row → Prop) (env : Environment)
    (config : SymbolConfig) (exchange : Exchange β) (snapshot : L2Snapshot) : Prop :=
  let eventTimeNs := snapshot.timeMs * oneMillisecondNs
  let cleared := (((exchange.onBook OrderBook.clearMDOrders).noteMark .rebuilt).setRefLevels .buy
    []).setRefLevels .sell []
  let bid := cleared.applyL2Side env config .buy eventTimeNs snapshot.bids
  cleared.BeforeEach (fun exchange => exchange.applyL2Side env config .buy eventTimeNs)
      (condition .buy eventTimeNs) snapshot.bids ∧
    bid.BeforeEach (fun exchange => exchange.applyL2Side env config .sell eventTimeNs)
      (condition .sell eventTimeNs) snapshot.asks

def EachDiffRow (condition : Side → Nat → Exchange β → L2Row → Prop) (env : Environment)
    (config : SymbolConfig) (exchange : Exchange β) (diff : L2Diff) : Prop :=
  let eventTimeNs := diff.timeMs * oneMillisecondNs
  let removed := exchange.removeL2Levels env config eventTimeNs diff.removed
  let bid := removed.changeL2Rows env config .buy eventTimeNs diff.bids
  removed.BeforeEach (fun exchange => exchange.changeL2Rows env config .buy eventTimeNs)
      (condition .buy eventTimeNs) diff.bids ∧
    bid.BeforeEach (fun exchange => exchange.changeL2Rows env config .sell eventTimeNs)
      (condition .sell eventTimeNs) diff.asks

def EachTrade (condition : Side → Nat → Exchange β → L2Row → Prop) (env : Environment)
    (config : SymbolConfig) (exchange : Exchange β) (trades : List HyperliquidTrade) : Prop :=
  exchange.BeforeEach (fun exchange => exchange.applyTrades env config)
    (fun exchange trade => condition trade.side (trade.timeMs * oneMillisecondNs) exchange
      ⟨trade.price, trade.qty⟩) trades

section Decide

variable {condition : Side → Nat → Exchange β → L2Row → Prop}
  [∀ side eventTimeNs exchange row, Decidable (condition side eventTimeNs exchange row)]

instance (snapshot : L2Snapshot) : Decidable (exchange.EachSnapshotRow condition env config snapshot) :=
  inferInstanceAs (Decidable (_ ∧ _))

instance (diff : L2Diff) : Decidable (exchange.EachDiffRow condition env config diff) :=
  inferInstanceAs (Decidable (_ ∧ _))

instance (trades : List HyperliquidTrade) : Decidable (exchange.EachTrade condition env config trades) :=
  inferInstanceAs (Decidable (exchange.BeforeEach _ _ _))

end Decide

/-- What the rows of a snapshot need of a permit. -/
def SnapshotJoins (permit : Permit) (env : Environment) (config : SymbolConfig) (exchange : Exchange β)
    (snapshot : L2Snapshot) : Prop :=
  exchange.EachSnapshotRow (fun side eventTimeNs exchange row =>
    exchange.StampedJoin permit side row.price row.qty eventTimeNs) env config snapshot

/-- What the rows of a diff need of a permit. -/
def DiffJoins (permit : Permit) (env : Environment) (config : SymbolConfig) (exchange : Exchange β)
    (diff : L2Diff) : Prop :=
  exchange.EachDiffRow (fun side eventTimeNs exchange row =>
    exchange.LevelJoin permit side row.price row.qty eventTimeNs) env config diff

/-- What the prints of a trades message need of a permit. -/
def TradesJoin (permit : Permit) (env : Environment) (config : SymbolConfig) (exchange : Exchange β)
    (trades : List HyperliquidTrade) : Prop :=
  exchange.EachTrade (fun side eventTimeNs exchange row =>
    exchange.StampedJoin permit side row.price row.qty eventTimeNs) env config trades

variable (env config) in
theorem processL2Snapshot_micros {snapshot : L2Snapshot} (inv : exchange.ledger.Represents .none)
    (mayJoin : exchange.SnapshotJoins permit env config snapshot) :
    Micros env permit (.none, exchange.ledger)
      (.none, (exchange.processL2Snapshot env config snapshot).ledger) := by
  obtain ⟨bids, asks⟩ := mayJoin
  let eventTimeNs := snapshot.timeMs * oneMillisecondNs
  let cleared := (((exchange.onBook OrderBook.clearMDOrders).noteMark .rebuilt).setRefLevels .buy
    []).setRefLevels .sell []
  obtain ⟨clears, -⟩ := @clearMDOrders_run β _ env permit exchange inv
  have clearedInv : cleared.ledger.Represents .none := clears.represents inv
  have bidRun := applyL2Side_run env config .buy eventTimeNs snapshot.bids clearedInv bids
  have askRun := applyL2Side_run env config .sell eventTimeNs snapshot.asks
    (bidRun.represents clearedInv) asks
  refine clears.trans (MatchState.FeedRun.unseen (bidRun.trans askRun) ?_ ?_).micros
  · show (finalizeL2Event _).matching.ledger = _
    rw [finalizeL2Event_matching]
    rfl
  · show (finalizeL2Event _).matching.book.l3 = _
    rw [finalizeL2Event_matching]
    rfl

variable (env config) in
theorem removeL2Levels_run (eventTimeNs : Nat) (removed : Option (List Nat × List Nat))
    (inv : exchange.ledger.Represents .none) (totalled : exchange.ledger.Totalled) :
    exchange.matching.FeedRun env permit 0
      (exchange.removeL2Levels env config eventTimeNs removed).matching := by
  cases removed with
  | none => exact .refl fun stale => stale.1.false
  | some indices =>
      have bids : exchange.matching.FeedRun env permit 0
          (exchange.removeL2Indices env config .buy eventTimeNs indices.1).matching :=
        removeL2Prices_run env config .buy eventTimeNs _ inv totalled
      exact bids.trans (removeL2Prices_run env config .sell eventTimeNs _ (bids.represents inv)
        (bids.micros.totalled inv totalled))

variable (env config) in
theorem processL2Diff_micros {diff : L2Diff} (inv : exchange.ledger.Represents .none)
    (totalled : exchange.ledger.Totalled) (mayJoin : exchange.DiffJoins permit env config diff) :
    Micros env permit (.none, exchange.ledger)
      (.none, (exchange.processL2Diff env config diff).ledger) := by
  obtain ⟨bids, asks⟩ := mayJoin
  let eventTimeNs := diff.timeMs * oneMillisecondNs
  have removeRun := @removeL2Levels_run β _ env permit exchange config eventTimeNs diff.removed inv totalled
  have removedInv := removeRun.represents inv
  have bidRun := changeL2Rows_run env config .buy eventTimeNs diff.bids removedInv bids
  have askRun := changeL2Rows_run env config .sell eventTimeNs diff.asks (bidRun.represents removedInv) asks
  refine (MatchState.FeedRun.unseen ((removeRun.trans bidRun).trans askRun) ?_ ?_).micros
  · show (finalizeL2Event _).matching.ledger = _
    rw [finalizeL2Event_matching]
    rfl
  · show (finalizeL2Event _).matching.book.l3 = _
    rw [finalizeL2Event_matching]
    rfl

variable (env config) in
theorem applyTrades_run (trades : List HyperliquidTrade) (inv : exchange.ledger.Represents .none)
    (mayJoin : exchange.TradesJoin permit env config trades) :
    exchange.matching.FeedRun env permit 0 (exchange.applyTrades env config trades).matching := by
  induction trades generalizing exchange with
  | nil => exact .refl fun stale => stale.1.false
  | cons trade rest ih =>
      unfold TradesJoin EachTrade at mayJoin
      obtain ⟨first, rest⟩ := mayJoin.cons (fun _ => rfl) fun _ _ _ => rfl
      have applied : exchange.matching.FeedRun env permit 0
          (exchange.applyTrades env config [trade]).matching := by
        show MatchState.FeedRun env permit 0 exchange.matching (exchange.applyTrade env config trade).matching
        unfold applyTrade
        dsimp only
        rw [creditSummaries_matching]
        exact restTimestamped_run env config trade.side trade.price trade.qty _ inv first
      exact applied.trans (ih (applied.represents inv) rest)

variable (env config) in
theorem processTradesEvent_micros (trades : List HyperliquidTrade)
    (inv : exchange.ledger.Represents .none) (mayJoin : exchange.TradesJoin permit env config trades) :
    Micros env permit (.none, exchange.ledger)
      (.none, (exchange.processTradesEvent env config trades).ledger) := by
  unfold processTradesEvent
  split
  · exact .refl
  · exact (applyTrades_run env config trades inv mayJoin).micros

end Hyperliquid

end Exchange

end SlickSim
